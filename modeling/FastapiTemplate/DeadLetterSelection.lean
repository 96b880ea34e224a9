import FastapiTemplate.DeadLetterEdits

/-!
# What the bulk operations select

The update, the retrigger and the deletion of dead letter tasks each build their own condition
from `task_ids` and `task_name`. All of them take an empty list or an empty name for a missing
one. Without both, the update and the retrigger act on every row, and the deletion on none.
-/

namespace FastapiTemplate.DeadLetter

/-- The rows that the descriptions of the routes name. -/
def described (taskIds : Option (List ℕ)) (taskName : Option String) (row : DeadLetterRow) : Bool :=
  match taskIds, taskName with
  | some ids, _ => row.id ∈ ids
  | none, some name => row.taskName = name
  | none, none => true

/-! ## Deletions -/

def DeadLetterTable.delete (table : DeadLetterTable) (condition : DeadLetterRow → Bool) :
    DeadLetterTable × ℕ :=
  (table.filter (fun row => !condition row), table.rows.countP condition)

def deleteTasks (taskIds : Option (List ℕ)) (taskName : Option String) (table : DeadLetterTable) :
    DeadLetterTable × ℕ :=
  if taskIds.getD [] ≠ [] then table.delete (fun row => row.id ∈ taskIds.getD [])
  else if taskName.getD "" ≠ "" then table.delete (fun row => row.taskName = taskName.getD "")
  else (table, 0)

structure DLQDeleteRequest where
  taskIds : Option (List ℕ)
  taskName : Option String

/-- The ids that the service passes on: an empty list of ids leaves those of the request. -/
def deleteTargetIds (request : Option DLQDeleteRequest) (taskId : Option ℕ)
    (taskIds : Option (List ℕ)) : Option (List ℕ) :=
  match taskId with
  | some id => some [id]
  | none => if taskIds.getD [] ≠ [] then taskIds else request.bind (·.taskIds)

namespace DeadLetterTaskService

def deleteTasks (request : Option DLQDeleteRequest) (taskId : Option ℕ) (taskIds : Option (List ℕ))
    (table : DeadLetterTable) : DeadLetterTable × DLQActionResponse :=
  let (after, count) := DeadLetter.deleteTasks (deleteTargetIds request taskId taskIds)
    (request.bind (·.taskName)) table
  (after, ⟨"Successfully deleted " ++ toString count ++ " task record(s).", count⟩)

end DeadLetterTaskService

/-- How a bulk deletion is asked for: by the route, with a body and the ids of the query string,
or in the admin. -/
inductive DeleteCall
  | route (request : Option DLQDeleteRequest) (query : List ℕ)
  | admin (pks : List ℕ)

/-- Without ids in the query string the parameter of the route is `None`. -/
def queryIds (query : List ℕ) : Option (List ℕ) := if query = [] then none else some query

def DeleteCall.run (table : DeadLetterTable) : DeleteCall → DeadLetterTable × ℕ
  | .route request query =>
    let (after, response) := DeadLetterTaskService.deleteTasks request none (queryIds query) table
    (after, response.affectedCount)
  | .admin pks => deleteTasks (some pks) none table

/-- The ids and the name that are asked for; ids in the query string go before those of the body. -/
def DeleteCall.arguments : DeleteCall → Option (List ℕ) × Option String
  | .route request query =>
    ((queryIds query).or (request.bind (·.taskIds)), request.bind (·.taskName))
  | .admin pks => (some pks, none)

/-! ## The operations -/

inductive RetriggerCall
  | route (payload : DLQRetriggerRequest)
  | retriggerSelected (pks : List ℕ)

def RetriggerCall.request : RetriggerCall → DLQRetriggerRequest
  | .route payload => payload
  | .retriggerSelected pks => ⟨some pks, none⟩

def UpdatesExactly (chosen : DeadLetterRow → Bool) (payload : DLQUpdatePayload) (table : DeadLetterTable) :
    Prop :=
  ∀ now after count, updateTaskPayload payload none now table = some (after, count) →
    count = table.rows.countP chosen ∧ ∃ args kwargs, after.rows = table.rows.map (fun row =>
      if chosen row then updatedRow args kwargs payload.mergeKwargs payload.queue now row else row)

/-- The retrigger removes the chosen rows, sends none but their tasks, and sends all of them unless
it is stopped or a send fails. -/
def RetriggersExactly (chosen : DeadLetterRow → Bool) (call : RetriggerCall) (table : DeadLetterTable) :
    Prop :=
  ∀ outcome n,
    let s := Program.executeFor (Server.handler outcome) (n + 1)
      (retriggerTasks (some call.request) none) ⟨table, []⟩
    s.table.rows = table.rows.filter (fun row => !chosen row) ∧
      (∀ send ∈ s.sends, ∃ row ∈ table.rows.filter chosen, send.dlqId = row.id) ∧
      ((table.rows.filter chosen).length ≤ n → (∀ i, outcome i = .sent) →
        ∀ row ∈ table.rows.filter chosen, s.HandedOver row.id)

def DeletesExactly (chosen : DeadLetterRow → Bool) (call : DeleteCall) (table : DeadLetterTable) : Prop :=
  (call.run table).1.rows = table.rows.filter (fun row => !chosen row) ∧
    (call.run table).2 = table.rows.countP chosen

/-- Every bulk operation with these arguments acts on the rows that the descriptions name. -/
def ActAsDescribed (taskIds : Option (List ℕ)) (taskName : Option String) (table : DeadLetterTable) :
    Prop :=
  (∀ payload : DLQUpdatePayload, payload.taskIds = taskIds → payload.taskName = taskName →
    UpdatesExactly (described taskIds taskName) payload table) ∧
  (∀ call : RetriggerCall, call.request.taskIds = taskIds → call.request.taskName = taskName →
    RetriggersExactly (described taskIds taskName) call table) ∧
  ∀ call : DeleteCall, call.arguments = (taskIds, taskName) →
    DeletesExactly (described taskIds taskName) call table

/-! ## What each operation selects -/

def deletes (taskIds : Option (List ℕ)) (taskName : Option String) (row : DeadLetterRow) : Bool :=
  if taskIds.getD [] ≠ [] then row.id ∈ taskIds.getD []
  else if taskName.getD "" ≠ "" then row.taskName = taskName.getD ""
  else false

theorem deleteTasks_eq (taskIds : Option (List ℕ)) (taskName : Option String) (table : DeadLetterTable) :
    (deleteTasks taskIds taskName table).1.rows =
        table.rows.filter (fun row => !deletes taskIds taskName row) ∧
      (deleteTasks taskIds taskName table).2 = table.rows.countP (deletes taskIds taskName) := by
  unfold deleteTasks deletes
  split_ifs
  · exact ⟨rfl, rfl⟩
  · exact ⟨rfl, rfl⟩
  · simp

theorem deleteTargetIds_query (request : Option DLQDeleteRequest) (query : List ℕ) :
    deleteTargetIds request none (queryIds query) =
      (queryIds query).or (request.bind (·.taskIds)) := by
  unfold deleteTargetIds queryIds
  by_cases hquery : query = []
  · simp [hquery]
  · simp [hquery]

/-- However a deletion is asked for, its rows are those of the condition on its arguments. -/
theorem DeleteCall.run_eq {call : DeleteCall} {taskIds : Option (List ℕ)} {taskName : Option String}
    (h : call.arguments = (taskIds, taskName)) (table : DeadLetterTable) :
    (call.run table).1.rows = table.rows.filter (fun row => !deletes taskIds taskName row) ∧
      (call.run table).2 = table.rows.countP (deletes taskIds taskName) := by
  cases call with
  | route request query =>
    cases h
    have heq := deleteTasks_eq (deleteTargetIds request none (queryIds query))
      (request.bind (·.taskName)) table
    rw [deleteTargetIds_query] at heq
    simpa only [DeleteCall.run, DeadLetterTaskService.deleteTasks, deleteTargetIds_query] using heq
  | admin pks =>
    cases h
    exact deleteTasks_eq (some pks) none table

theorem updateTaskPayload_rows {payload : DLQUpdatePayload} {now count : ℕ}
    {table after : DeadLetterTable}
    (h : updateTaskPayload payload none now table = some (after, count)) :
    count = table.rows.countP (selects payload.taskIds payload.taskName) ∧
      ∃ args kwargs, after.rows = table.rows.map (fun row =>
        if selects payload.taskIds payload.taskName row then
          updatedRow args kwargs payload.mergeKwargs payload.queue now row else row) := by
  unfold updateTaskPayload at h
  obtain ⟨args, _, h⟩ := Option.bind_eq_some_iff.mp h
  obtain ⟨kwargs, _, h⟩ := Option.bind_eq_some_iff.mp h
  dsimp only at h
  split_ifs at h
  cases h
  refine ⟨rfl, args, kwargs, ?_⟩
  simp only [DeadLetterTable.map, Option.isNone_none, Bool.and_true]

theorem retriggersExactly_selects (call : RetriggerCall) (table : DeadLetterTable) :
    RetriggersExactly (selects call.request.taskIds call.request.taskName) call table := by
  intro outcome n
  have hselected : selectedRows (some call.request) none table =
      table.rows.filter (selects call.request.taskIds call.request.taskName) := rfl
  refine ⟨?_, ?_, ?_⟩
  · rw [executeFor_retriggerTasks, sends_table]
    rfl
  · intro send hsend
    rw [executeFor_retriggerTasks] at hsend
    rcases mem_sends outcome _ n _ hsend with h | ⟨t, ht, hid, -⟩
    · exact absurd h List.not_mem_nil
    · obtain ⟨row, hrow, rfl⟩ := List.mem_map.mp ht
      exact ⟨row, hrow, hid⟩
  · intro hn hsent
    have hgo : SendsGoThrough outcome 0 (selectedRows (some call.request) none table).length :=
      fun i _ => ⟨by rw [hsent]; rfl, fun _ => hsent _⟩
    exact (selected_handedOver_iff outcome (some call.request) none n table).mpr ⟨hn, hgo⟩

/-! ## Agreement with the descriptions -/

section agreement
variable {chosen chosen' : DeadLetterRow → Bool} {table : DeadLetterTable}

theorem updatesExactly_of_agree {payload : DLQUpdatePayload}
    (h : ∀ row ∈ table.rows, selects payload.taskIds payload.taskName row = chosen row) :
    UpdatesExactly chosen payload table := by
  intro now after count hupdate
  obtain ⟨hcount, args, kwargs, hrows⟩ := updateTaskPayload_rows hupdate
  refine ⟨?_, args, kwargs, ?_⟩
  · rw [hcount]
    exact List.countP_congr (fun row hrow => by rw [h row hrow])
  · rw [hrows]
    exact List.map_congr_left (fun row hrow => by rw [h row hrow])

theorem filter_agree (h : ∀ row ∈ table.rows, chosen row = chosen' row) :
    table.rows.filter chosen = table.rows.filter chosen' ∧
      table.rows.filter (fun row => !chosen row) = table.rows.filter (fun row => !chosen' row) :=
  ⟨List.filter_congr h, List.filter_congr (fun row hrow => by rw [h row hrow])⟩

theorem retriggersExactly_of_agree {call : RetriggerCall}
    (h : ∀ row ∈ table.rows,
      selects call.request.taskIds call.request.taskName row = chosen row) :
    RetriggersExactly chosen call table := by
  obtain ⟨hchosen, hrest⟩ := filter_agree h
  have hselects := retriggersExactly_selects call table
  unfold RetriggersExactly at hselects ⊢
  rwa [hchosen, hrest] at hselects

theorem deletesExactly_of_agree {call : DeleteCall} {taskIds : Option (List ℕ)}
    {taskName : Option String} (hcall : call.arguments = (taskIds, taskName))
    (h : ∀ row ∈ table.rows, deletes taskIds taskName row = chosen row) :
    DeletesExactly chosen call table := by
  obtain ⟨hrows, hcount⟩ := DeleteCall.run_eq hcall table
  constructor
  · rw [hrows, (filter_agree h).2]
  · rw [hcount]
    exact List.countP_congr (fun row hrow => by rw [h row hrow])

/-- Two conditions that leave the same rows agree on the table. -/
theorem agree_of_filter_eq (h : table.rows.filter (fun row => !chosen row) =
    table.rows.filter (fun row => !chosen' row)) : ∀ row ∈ table.rows, chosen row = chosen' row := by
  intro row hrow
  have hmem : row ∈ table.rows.filter (fun row => !chosen row) ↔
      row ∈ table.rows.filter (fun row => !chosen' row) := by rw [h]
  simp only [List.mem_filter, hrow, true_and, Bool.not_eq_true', Bool.eq_false_iff] at hmem
  exact Bool.eq_iff_iff.mpr (not_iff_not.mp hmem)

end agreement

/-- The condition under which the descriptions are met: ids are given, or a name is and no list, or
no row is concerned. -/
def SelectorsMeant (taskIds : Option (List ℕ)) (taskName : Option String) (table : DeadLetterTable) :
    Prop :=
  taskIds.getD [] ≠ [] ∨
    taskName.getD "" ≠ "" ∧ (taskIds = none ∨ ∀ row ∈ table.rows, row.taskName ≠ taskName.getD "") ∨
    table.rows = []

theorem SelectorsMeant.agree {taskIds : Option (List ℕ)} {taskName : Option String}
    {table : DeadLetterTable} (h : SelectorsMeant taskIds taskName table) :
    ∀ row ∈ table.rows, selects taskIds taskName row = described taskIds taskName row ∧
      deletes taskIds taskName row = described taskIds taskName row := by
  intro row hrow
  unfold selects deletes
  rcases h with hids | ⟨hname, hlist⟩ | hempty
  · obtain ⟨ids, rfl⟩ : ∃ ids, taskIds = some ids := by
      cases taskIds with
      | none => exact absurd rfl hids
      | some ids => exact ⟨ids, rfl⟩
    rw [if_pos hids, if_pos hids]
    exact ⟨rfl, rfl⟩
  · obtain ⟨name, rfl⟩ : ∃ name, taskName = some name := by
      cases taskName with
      | none => exact absurd rfl hname
      | some name => exact ⟨name, rfl⟩
    cases taskIds with
    | none =>
      rw [if_neg (by simp), if_pos hname, if_neg (by simp), if_pos hname]
      exact ⟨rfl, rfl⟩
    | some ids =>
      have hother : ∀ row ∈ table.rows, row.taskName ≠ name := hlist.resolve_left (by simp)
      by_cases hids : (some ids).getD [] ≠ []
      · rw [if_pos hids, if_pos hids]
        exact ⟨rfl, rfl⟩
      · have hnil : ids = [] := not_not.mp hids
        subst hnil
        rw [if_neg hids, if_pos hname, if_neg hids, if_pos hname]
        simp [described, hother row hrow]
  · rw [hempty] at hrow
    exact absurd hrow List.not_mem_nil

/-- Where the retrigger and the deletion both agree with the descriptions, the condition holds. -/
theorem selectorsMeant_of_agree {taskIds : Option (List ℕ)} {taskName : Option String}
    {table : DeadLetterTable}
    (hselects : ∀ row ∈ table.rows, selects taskIds taskName row = described taskIds taskName row)
    (hdeletes : ∀ row ∈ table.rows, deletes taskIds taskName row = described taskIds taskName row) :
    SelectorsMeant taskIds taskName table := by
  by_cases hids : taskIds.getD [] ≠ []
  · exact .inl hids
  by_cases hname : taskName.getD "" ≠ ""
  · refine .inr (.inl ⟨hname, ?_⟩)
    cases taskIds with
    | none => exact .inl rfl
    | some ids =>
      have hnil : ids = [] := not_not.mp hids
      subst hnil
      refine .inr (fun row hrow heq => ?_)
      have hrow' := hselects row hrow
      rw [selects, if_neg hids, if_pos hname] at hrow'
      simp [described, heq] at hrow'
  · -- without ids and name, one of the two takes the row and the other does not
    refine .inr (.inr (List.eq_nil_iff_forall_not_mem.mpr (fun row hrow => ?_)))
    have hboth := (hselects row hrow).trans (hdeletes row hrow).symm
    rw [selects, deletes, if_neg hids, if_neg hname, if_neg hids, if_neg hname] at hboth
    cases hboth

/-- The bulk operations act on the described rows exactly if a list of ids is given that is not
empty, or else a name that is not empty and no list (or one that no row has), or the table is empty. -/
theorem actAsDescribed_iff (taskIds : Option (List ℕ)) (taskName : Option String)
    (table : DeadLetterTable) :
    ActAsDescribed taskIds taskName table ↔ SelectorsMeant taskIds taskName table := by
  constructor
  · rintro ⟨-, hretrigger, hdelete⟩
    have hretriggered := (hretrigger (.route ⟨taskIds, taskName⟩) rfl rfl (fun _ => .sent) 0).1
    have hdeleted := (hdelete (.route (some ⟨taskIds, taskName⟩) []) rfl).1
    rw [(retriggersExactly_selects (.route ⟨taskIds, taskName⟩) table (fun _ => .sent) 0).1]
      at hretriggered
    rw [(DeleteCall.run_eq rfl table).1] at hdeleted
    exact selectorsMeant_of_agree (agree_of_filter_eq hretriggered) (agree_of_filter_eq hdeleted)
  · intro h
    refine ⟨?_, ?_, ?_⟩
    · rintro payload rfl rfl
      exact updatesExactly_of_agree (fun row hrow => (h.agree row hrow).1)
    · rintro call rfl rfl
      exact retriggersExactly_of_agree (fun row hrow => (h.agree row hrow).1)
    · intro call hcall
      exact deletesExactly_of_agree hcall (fun row hrow => (h.agree row hrow).2)

/-- A deletion without ids and name leaves the only row. -/
theorem delete_all_keeps_row : ¬ ∀ (taskIds : Option (List ℕ)) (taskName : Option String)
    (table : DeadLetterTable), ActAsDescribed taskIds taskName table := by
  intro h
  have hdeleted := ((h none none taggedTable).2.2 (.route none []) rfl).1
  exact absurd hdeleted (List.cons_ne_nil _ _)

end FastapiTemplate.DeadLetter
