import FastapiTemplate.DeadLetterSelection
import FastapiTemplate.IndependentRows

/-!
# The life of a dead letter task

The failure hook makes the rows of `dead_letter_tasks`, and the statements of the DAO edit and
remove them. What a statement removes depends on the id, the name and the time of a failure, none
of which is ever updated, so each row has a life of its own.
-/

namespace FastapiTemplate.DeadLetter

open PyValue

/-- Times are in microseconds. -/
def dayLength : ℕ := 86400000000

def deleteOldTasks (days : ℤ) (now : ℕ) (table : DeadLetterTable) : DeadLetterTable × ℕ :=
  table.delete (fun row => (row.failedAt : ℤ) < now - days * dayLength)

/-- What writes to the table, with the id that the server draws and its clock. -/
inductive DlqStatement
  | handleTaskFailure (dbInstance : Bool) (f : TaskFailure) (id now : ℕ)
  | updateTaskPayload (payload : DLQUpdatePayload) (taskId : Option ℕ) (now : ℕ)
  | deleteTasks (taskIds : Option (List ℕ)) (taskName : Option String)
  | fetchAndDeleteTasks (taskIds : Option (List ℕ)) (taskName : Option String)
  | deleteOldTasks (days : ℤ) (now : ℕ)

namespace DlqStatement

/-- A statement that is refused changes nothing. -/
def execute (table : DeadLetterTable) : DlqStatement → DeadLetterTable
  | .handleTaskFailure dbInstance f id now => DeadLetter.handleTaskFailure dbInstance f id now table
  | .updateTaskPayload payload taskId now =>
    ((DeadLetter.updateTaskPayload payload taskId now table).map (·.1)).getD table
  | .deleteTasks taskIds taskName => (DeadLetter.deleteTasks taskIds taskName table).1
  | .fetchAndDeleteTasks taskIds taskName =>
    (DeadLetter.fetchAndDeleteTasks taskIds taskName table).2
  | .deleteOldTasks days now => (DeadLetter.deleteOldTasks days now table).1

def makes : DlqStatement → Option DeadLetterRow
  | .handleTaskFailure dbInstance f id now =>
    if dbInstance then (failurePayload f).bind (rowOf · id now) else none
  | _ => none

def removes : DlqStatement → DeadLetterRow → Bool
  | .deleteTasks taskIds taskName, row => deletes taskIds taskName row
  | .fetchAndDeleteTasks taskIds taskName, row => selects taskIds taskName row
  | .deleteOldTasks days now, row => (row.failedAt : ℤ) < now - days * dayLength
  | _, _ => false

def updateIds (payload : DLQUpdatePayload) (taskId : Option ℕ) : Option (List ℕ) :=
  match taskId with
  | some id => some [id]
  | none => payload.taskIds

/-- The new arguments of an update, unless a value does not fit its column. -/
def updateValues (payload : DLQUpdatePayload) : Option (Option Jsonb × Option Jsonb) := do
  let args ← Jsonb.optionalParam (fun vs => Jsonb.textParam (.list vs)) payload.args
  let kwargs ← Jsonb.optionalParam (fun items => Jsonb.textParam (.dict items)) payload.kwargs
  if payload.queue.all (fitsVarchar 255) then some (args, kwargs) else none

def edits : DlqStatement → DeadLetterRow → DeadLetterRow
  | .updateTaskPayload payload taskId now, row =>
    match updateValues payload with
    | some (args, kwargs) =>
      if selects (updateIds payload taskId) payload.taskName row then
        updatedRow args kwargs (payload.mergeKwargs && taskId.isNone) payload.queue now row
      else row
    | none => row
  | _, row => row

def drawnId : DlqStatement → Option ℕ
  | .handleTaskFailure _ _ id _ => some id
  | _ => none

theorem edits_cases (l : DlqStatement) (row : DeadLetterRow) : l.edits row = row ∨
    ∃ args kwargs merge queue now, l.edits row = updatedRow args kwargs merge queue now row := by
  cases l with
  | updateTaskPayload payload taskId now =>
    simp only [edits]
    cases updateValues payload with
    | none => exact .inl rfl
    | some values =>
      dsimp only
      split_ifs
      · exact .inr ⟨_, _, _, _, _, rfl⟩
      · exact .inl rfl
  | _ => exact .inl rfl

/-- The columns by which rows are removed are never updated. -/
theorem removes_edits (l m : DlqStatement) (row : DeadLetterRow) :
    l.removes (m.edits row) = l.removes row := by
  rcases m.edits_cases row with h | ⟨args, kwargs, merge, queue, now, h⟩
  · rw [h]
  · rw [h]
    cases l <;> rfl

theorem edits_id (l : DlqStatement) (row : DeadLetterRow) : (l.edits row).id = row.id := by
  rcases l.edits_cases row with h | ⟨args, kwargs, merge, queue, now, h⟩
  · rw [h]
  · rw [h]
    rfl

def actions : RowActions DeadLetterRow DlqStatement := ⟨makes, removes, edits, removes_edits⟩

theorem actions_makes (l : DlqStatement) : actions.makes l = l.makes := rfl

/-! ## One statement -/

theorem rowOf_id {payload : FailurePayload} {id now : ℕ} {row : DeadLetterRow}
    (h : rowOf payload id now = some row) : row.id = id := by
  unfold rowOf at h
  obtain ⟨args, -, h⟩ := Option.bind_eq_some_iff.mp h
  obtain ⟨kwargs, -, h⟩ := Option.bind_eq_some_iff.mp h
  obtain ⟨headers, -, h⟩ := Option.bind_eq_some_iff.mp h
  split_ifs at h
  cases h
  rfl

theorem makes_failure (dbInstance : Bool) (f : TaskFailure) (id now : ℕ) :
    makes (.handleTaskFailure dbInstance f id now) =
      if dbInstance then (failurePayload f).bind (rowOf · id now) else none := rfl

/-- A row is made with the id that is drawn for it. -/
theorem drawnId_of_makes {l : DlqStatement} {row : DeadLetterRow} (h : l.makes = some row) :
    l.drawnId = some row.id := by
  cases l with
  | handleTaskFailure dbInstance f id now =>
    rw [makes_failure] at h
    split_ifs at h
    obtain ⟨payload, -, hrow⟩ := Option.bind_eq_some_iff.mp h
    rw [drawnId, rowOf_id hrow]
  | _ => cases h

theorem handleTaskFailure_eq (dbInstance : Bool) (f : TaskFailure) (id now : ℕ)
    (table : DeadLetterTable) : DeadLetter.handleTaskFailure dbInstance f id now table =
      ((makes (.handleTaskFailure dbInstance f id now)).map table.insert).getD table := by
  rw [makes_failure, DeadLetter.handleTaskFailure]
  cases failurePayload f with
  | none => cases dbInstance <;> rfl
  | some payload =>
    cases dbInstance with
    | false => rfl
    | true =>
      simp only [if_true, Option.bind_some, saveDeadLetterTask]
      cases rowOf payload id now <;> rfl

theorem insert_rows {table : DeadLetterTable} {row : DeadLetterRow}
    (h : row.id ∉ table.rows.map (·.id)) : (table.insert row).rows = table.rows ++ [row] := by
  rw [DeadLetterTable.insert, dif_neg h]

/-- A queue that fits its column is accepted, and another only if no row is selected. -/
theorem accepts_queue {queue : Option String} {any : Bool}
    (h : queue.all (fun q => noNulIn q && (q.length ≤ 255 || !any))) :
    queue.all (fitsVarchar 255) ∨ any = false := by
  cases queue with
  | none => exact .inl rfl
  | some q =>
    cases any with
    | false => exact .inr rfl
    | true =>
      rw [Bool.not_true] at h
      simp only [Bool.or_false] at h
      exact .inl h

theorem accepts_fitting {queue : Option String} (any : Bool) (h : queue.all (fitsVarchar 255)) :
    queue.all (fun q => noNulIn q && (q.length ≤ 255 || !any)) := by
  cases queue with
  | none => rfl
  | some q =>
    simp only [Option.all_some, fitsVarchar, Bool.and_eq_true, Bool.or_eq_true] at h ⊢
    exact ⟨h.1, .inl h.2⟩

theorem map_unselected {rows : List DeadLetterRow} {selected : DeadLetterRow → Bool}
    (h : rows.any selected = false) (f : DeadLetterRow → DeadLetterRow) :
    rows.map (fun row => if selected row then f row else row) = rows := by
  rw [List.map_congr_left (g := id), List.map_id]
  intro row hrow
  exact if_neg (List.any_eq_false.mp h row hrow)

/-- An update, refused or not, changes each row as `edits` says. -/
theorem execute_update_rows (payload : DLQUpdatePayload) (taskId : Option ℕ) (now : ℕ)
    (table : DeadLetterTable) : (execute table (.updateTaskPayload payload taskId now)).rows =
      table.rows.map (edits (.updateTaskPayload payload taskId now)) := by
  have hsame (h : updateValues payload = none) :
      edits (.updateTaskPayload payload taskId now) = id := by
    funext row
    simp only [edits, h, id_eq]
  simp only [execute, DeadLetter.updateTaskPayload]
  cases hargs : Jsonb.optionalParam (fun vs => Jsonb.textParam (.list vs)) payload.args with
  | none =>
    rw [hsame (by simp [updateValues, hargs]), List.map_id]
    rfl
  | some args =>
    cases hkwargs : Jsonb.optionalParam (fun items => Jsonb.textParam (.dict items))
        payload.kwargs with
    | none =>
      rw [hsame (by simp [updateValues, hargs, hkwargs]), List.map_id]
      rfl
    | some kwargs =>
      have hvalues : updateValues payload =
          if payload.queue.all (fitsVarchar 255) then some (args, kwargs) else none := by
        simp [updateValues, hargs, hkwargs]
      simp only [Option.bind_eq_bind, Option.bind_some]
      by_cases hfits : payload.queue.all (fitsVarchar 255) = true
      · rw [if_pos hfits] at hvalues
        rw [if_pos (accepts_fitting _ hfits)]
        refine List.map_congr_left (fun row _ => ?_)
        simp only [edits, hvalues]
        rfl
      · rw [if_neg hfits] at hvalues
        rw [hsame hvalues, List.map_id]
        split_ifs with haccepted
        · exact map_unselected ((accepts_queue haccepted).resolve_left hfits) _
        · rfl

/-! ## Runs -/

theorem step_of_removal {l : DlqStatement} (hedits : l.edits = id) (hmakes : l.makes = none)
    (rows : List DeadLetterRow) :
    actions.step rows l = rows.filter (fun row => !l.removes row) := by
  change (rows.filter (fun row => !l.removes row)).map l.edits ++ l.makes.toList = _
  rw [hedits, hmakes, List.map_id, Option.toList_none, List.append_nil]

theorem step_of_kept {l : DlqStatement} (hkept : l.removes = fun _ => false)
    (rows : List DeadLetterRow) : actions.step rows l = rows.map l.edits ++ l.makes.toList := by
  change (rows.filter (fun row => !l.removes row)).map l.edits ++ l.makes.toList = _
  simp only [hkept, Bool.not_false, List.filter_true]

/-- One statement on the rows. The id that is drawn is one that no row has. -/
theorem execute_rows {table : DeadLetterTable} {l : DlqStatement}
    (hnew : ∀ id, l.drawnId = some id → id ∉ table.rows.map (·.id)) :
    (execute table l).rows = actions.step table.rows l := by
  cases l with
  | handleTaskFailure dbInstance f id now =>
    rw [execute, handleTaskFailure_eq, step_of_kept rfl]
    have hsame : table.rows.map (edits (.handleTaskFailure dbInstance f id now)) = table.rows :=
      List.map_id _
    rw [hsame]
    cases hmakes : makes (.handleTaskFailure dbInstance f id now) with
    | none => exact (List.append_nil _).symm
    | some row => exact insert_rows (hnew row.id (drawnId_of_makes hmakes))
  | updateTaskPayload payload taskId now =>
    rw [execute_update_rows, step_of_kept rfl]
    exact (List.append_nil _).symm
  | deleteTasks taskIds taskName =>
    rw [step_of_removal rfl rfl]
    exact (deleteTasks_eq taskIds taskName table).1
  | fetchAndDeleteTasks taskIds taskName => rw [step_of_removal rfl rfl]; rfl
  | deleteOldTasks days now => rw [step_of_removal rfl rfl]; rfl

def drawnIds (ls : List DlqStatement) : List ℕ := ls.filterMap drawnId

/-- Every row of a step is an old one, edited or not, or has the id that was drawn. -/
theorem id_of_mem_step {rows : List DeadLetterRow} {l : DlqStatement} {row : DeadLetterRow}
    (h : row ∈ actions.step rows l) : row.id ∈ rows.map (·.id) ∨ l.drawnId = some row.id := by
  rcases actions.mem_step_iff.mp h with ⟨old, hold, -, rfl⟩ | hmade
  · have hid : (actions.edits l old).id = old.id := edits_id l old
    rw [hid]
    exact .inl (List.mem_map_of_mem hold)
  · exact .inr (drawnId_of_makes hmade)

/-- As long as no id is drawn twice, a run of the statements is one of their actions. -/
theorem run_rows {table : DeadLetterTable} {ls : List DlqStatement} (hids : (drawnIds ls).Nodup)
    (hnew : ∀ id ∈ drawnIds ls, id ∉ table.rows.map (·.id)) :
    (run execute table ls).rows = run actions.step table.rows ls := by
  induction ls generalizing table with
  | nil => rfl
  | cons l ls ih =>
    have hl : ∀ id, l.drawnId = some id → id ∉ table.rows.map (·.id) := fun id hid =>
      hnew id (List.mem_filterMap.mpr ⟨l, List.mem_cons_self, hid⟩)
    have hlater : ∀ id ∈ drawnIds ls, l.drawnId ≠ some id := by
      intro id hid hdrawn
      rw [drawnIds, List.filterMap_cons_some hdrawn] at hids
      exact (List.nodup_cons.mp hids).1 hid
    have hrest : (drawnIds ls).Nodup := by
      refine hids.sublist ?_
      exact (List.sublist_cons_self l ls).filterMap drawnId
    rw [run_cons, run_cons, ← execute_rows hl]
    refine ih hrest (fun id hid hmem => ?_)
    rw [execute_rows hl] at hmem
    obtain ⟨row, hrow, rfl⟩ := List.mem_map.mp hmem
    rcases id_of_mem_step hrow with hold | hdrawn
    · exact hnew row.id (((List.sublist_cons_self l ls).filterMap drawnId).subset hid) hold
    · exact hlater row.id hid hdrawn

end DlqStatement

open DlqStatement

/-- After any run a row is in the table if and only if the hook recorded a failure as a row that no
later statement removes, and it is that row with the later updates. -/
theorem mem_table_iff {ls : List DlqStatement} (hids : (drawnIds ls).Nodup) (row : DeadLetterRow) :
    row ∈ (run execute .empty ls).rows ↔ actions.Left ls row := by
  rw [run_rows hids (fun _ _ => List.not_mem_nil)]
  exact actions.mem_run_nil_iff ls row

def laterFailure : TaskFailure := { syncFailure with taskId := some "b07c" }

def slowQueue : DLQUpdatePayload := ⟨some [1, 2], none, none, none, some "slow", true⟩

/-- Two failures, the update, and the deletion of the second row. -/
def failedTwice : List DlqStatement :=
  [.handleTaskFailure true syncFailure 1 0, .handleTaskFailure true laterFailure 2 3,
    .updateTaskPayload slowQueue none 7, .deleteTasks (some [2]) none]

/-- The first row is left in its new queue, and nothing else. -/
theorem mem_table_failedTwice : (drawnIds failedTwice).Nodup ∧
    ∃ made, actions.makes (.handleTaskFailure true syncFailure 1 0) = some made ∧
      ∀ row, row ∈ (run execute .empty failedTwice).rows ↔
        row = { made with queue := "slow", updatedAt := 7 } := by
  have hids : (drawnIds failedTwice).Nodup := by decide
  obtain ⟨first, hfirst, hfirstId⟩ := @exists_syncRow "af31" (by decide) 1 0
  obtain ⟨second, hsecond, hsecondId⟩ := @exists_syncRow "b07c" (by decide) 2 3
  have hmakes₁ : actions.makes (.handleTaskFailure true syncFailure 1 0) = some first := by
    have hpayload : failurePayload syncFailure = some (syncPayload "af31") := rfl
    rw [actions_makes, makes_failure, if_pos rfl, hpayload, Option.bind_some, hfirst]
  have hmakes₂ : actions.makes (.handleTaskFailure true laterFailure 2 3) = some second := by
    have hpayload : failurePayload laterFailure = some (syncPayload "b07c") := rfl
    rw [actions_makes, makes_failure, if_pos rfl, hpayload, Option.bind_some, hsecond]
  have hspared : actions.Spared first (failedTwice.drop 1) := by
    simp [failedTwice, RowActions.Spared, actions, removes, deletes, hfirstId]
  have hremoved : ¬ actions.Spared second (failedTwice.drop 2) := by
    simp [failedTwice, RowActions.Spared, actions, removes, deletes, hsecondId]
  have hedited : actions.edited first (failedTwice.drop 1) =
      { first with queue := "slow", updatedAt := 7 } := by
    have hvalues : updateValues slowQueue = some (none, none) := rfl
    have hselected : selects (some [1, 2]) none first = true := by simp [selects, hfirstId]
    change edits (.updateTaskPayload slowQueue none 7) first = _
    simp only [edits, hvalues]
    exact if_pos hselected
  refine ⟨hids, first, hmakes₁, fun row => ?_⟩
  rw [mem_table_iff hids, failedTwice, actions.left_cons_iff, actions.left_cons_iff]
  constructor
  · rintro (⟨made, hmade, -, rfl⟩ | ⟨made, hmade, hkept, -⟩ | ⟨before, l, after, made, hsplit, hmade, -⟩)
    · cases hmakes₁.symm.trans hmade
      exact hedited
    · cases hmakes₂.symm.trans hmade
      exact absurd hkept hremoved
    · have hl : l ∈ before ++ l :: after := List.mem_append_right _ List.mem_cons_self
      rw [← hsplit, List.mem_pair] at hl
      rcases hl with rfl | rfl <;> cases hmade
  · rintro rfl
    exact .inl ⟨first, hmakes₁, hspared, hedited.symm⟩

end FastapiTemplate.DeadLetter
