import FastapiTemplate.DeadLetterRetrigger

/-!
# Editing the keyword arguments of dead letter tasks

Keyword arguments are stored as strings that hold their JSON text, and the parameter of an
update is such a string too. The server concatenates two strings to an array, so a merge does
not leave a dictionary.
-/

namespace FastapiTemplate.DeadLetter

open PyValue

def readKwargs (row : DeadLetterRow) : Option PyValue := (DLQTaskResponse.ofRow row).map (·.kwargs)

/-- After the bulk edit the row is read with the old items overridden key by key, without merge
with the new items; a row that is not selected is as it was. -/
def EditedAsAsked (payload : DLQUpdatePayload) (news : List (String × PyValue))
    (row after : DeadLetterRow) : Prop :=
  if selects payload.taskIds payload.taskName row then
    if payload.mergeKwargs then
      ∃ olds merged, readKwargs row = some (.dict olds) ∧ readKwargs after = some (.dict merged) ∧
        ∀ key, dictGet? merged key = (dictGet? news key).or (dictGet? olds key)
    else readKwargs after = some (.dict news)
  else after = row

theorem readKwargs_eq (row : DeadLetterRow) : readKwargs row = some (responseOf row).kwargs := by
  rw [readKwargs, ofRow_eq]
  rfl

/-- A bulk edit in terms of the stored text of the new items. -/
theorem bulkUpdate_rows {payload : DLQUpdatePayload} {news : List (String × PyValue)} {now count : ℕ}
    {table after : DeadLetterTable} (hnews : payload.kwargs = some news)
    (hjson : (PyValue.dict news).IsJson)
    (hupdate : updateTaskPayload payload none now table = some (after, count)) :
    ∃ args text, loads text = some (.dict news) ∧ after.rows = table.rows.map (fun row =>
      if selects payload.taskIds payload.taskName row then
        updatedRow args (some (.ofStr text)) payload.mergeKwargs payload.queue now row
      else row) := by
  obtain ⟨text, hparam, hloads⟩ := Jsonb.textParam_eq hjson
  unfold updateTaskPayload at hupdate
  obtain ⟨args, _, hupdate⟩ := Option.bind_eq_some_iff.mp hupdate
  obtain ⟨kwargs, hkwargs, hupdate⟩ := Option.bind_eq_some_iff.mp hupdate
  rw [hnews, Jsonb.optionalParam, hparam] at hkwargs
  cases hkwargs
  refine ⟨args, text, hloads, ?_⟩
  dsimp only at hupdate
  split_ifs at hupdate
  cases hupdate
  simp only [DeadLetterTable.map, Option.isNone_none, Bool.and_true]

theorem readKwargs_overwritten {text : String} {news : List (String × PyValue)}
    (hloads : loads text = some (.dict news)) (args : Option Jsonb) (queue : Option String) (now : ℕ)
    (row : DeadLetterRow) :
    readKwargs (updatedRow args (some (.ofStr text)) false queue now row) = some (.dict news) := by
  rw [readKwargs_eq]
  change some ((loads text).getD (.dict [])) = _
  rw [hloads]
  rfl

/-- What a merge leaves is read as a list. -/
theorem readKwargs_merged (text : String) (args : Option Jsonb) (queue : Option String) (now : ℕ)
    (row : DeadLetterRow) :
    readKwargs (updatedRow args (some (.ofStr text)) true queue now row) =
      some (.list (Jsonb.elements row.kwargs.value ++ [.str text])) := by
  rw [readKwargs_eq]
  change some (DLQTaskResponse.parsedOnAccess (.dict []) (row.kwargs.concat (.ofStr text)).value) = _
  rw [Jsonb.concat_ofStr]
  rfl

/-- For a selected row the edit does what is asked exactly if it overwrites. -/
theorem editedAsAsked_iff {payload : DLQUpdatePayload} {text : String}
    {news : List (String × PyValue)} (hloads : loads text = some (.dict news)) (args : Option Jsonb)
    (now : ℕ) (row : DeadLetterRow) :
    EditedAsAsked payload news row (if selects payload.taskIds payload.taskName row then
      updatedRow args (some (.ofStr text)) payload.mergeKwargs payload.queue now row else row) ↔
      payload.mergeKwargs = false ∨ selects payload.taskIds payload.taskName row = false := by
  unfold EditedAsAsked
  by_cases hselected : selects payload.taskIds payload.taskName row = true
  · rw [if_pos hselected, if_pos hselected, hselected]
    cases payload.mergeKwargs with
    | false =>
      rw [if_neg Bool.false_ne_true]
      exact ⟨fun _ => .inl rfl,
        fun _ => readKwargs_overwritten hloads args payload.queue now row⟩
    | true =>
      rw [if_pos rfl]
      constructor
      · rintro ⟨olds, merged, -, hmerged, -⟩
        rw [readKwargs_merged] at hmerged
        cases hmerged
      · rintro (h | h) <;> cases h
  · rw [if_neg hselected, if_neg hselected]
    exact ⟨fun _ => .inr (Bool.eq_false_iff.mpr hselected), fun _ => rfl⟩

/-- A bulk edit does what is asked exactly if it overwrites or selects no row. -/
theorem bulkUpdate_asAsked_iff {payload : DLQUpdatePayload} {news : List (String × PyValue)}
    {now count : ℕ} {table after : DeadLetterTable} (hnews : payload.kwargs = some news)
    (hjson : (PyValue.dict news).IsJson)
    (hupdate : updateTaskPayload payload none now table = some (after, count)) :
    List.Forall₂ (EditedAsAsked payload news) table.rows after.rows ↔
      payload.mergeKwargs = false ∨
        ∀ row ∈ table.rows, selects payload.taskIds payload.taskName row = false := by
  obtain ⟨args, text, hloads, hrows⟩ := bulkUpdate_rows hnews hjson hupdate
  rw [hrows, List.forall₂_map_right_iff, List.forall₂_same]
  constructor
  · intro h
    by_cases hmerge : payload.mergeKwargs = false
    · exact .inl hmerge
    · exact .inr (fun row hrow =>
        ((editedAsAsked_iff hloads args now row).mp (h row hrow)).resolve_left hmerge)
  · rintro h row hrow
    apply (editedAsAsked_iff hloads args now row).mpr
    rcases h with hmerge | hnone
    · exact .inl hmerge
    · exact .inr (hnone row hrow)

def kwargsPayload (news : List (String × PyValue)) (mergeKwargs : Bool) : DLQUpdatePayload where
  taskIds := none
  taskName := some "send_welcome_email"
  args := none
  kwargs := some news
  queue := none
  mergeKwargs := mergeKwargs

theorem exists_kwargsUpdate {news : List (String × PyValue)} (hjson : (PyValue.dict news).IsJson)
    (mergeKwargs : Bool) (now : ℕ) (table : DeadLetterTable) :
    ∃ after count, updateTaskPayload (kwargsPayload news mergeKwargs) none now table =
      some (after, count) := by
  obtain ⟨text, hparam, -⟩ := Jsonb.textParam_eq hjson
  unfold updateTaskPayload
  simp only [kwargsPayload, Jsonb.optionalParam, hparam, Option.map_some, Option.bind_eq_bind,
    Option.bind_some, Option.all_none, if_true]
  exact ⟨_, _, rfl⟩

def taggedTable : DeadLetterTable := ⟨[plainRow 1 "[]" "\x7b\"idx\": 1\x7d"], List.nodup_singleton 1⟩

def newItems : List (String × PyValue) := [("idx", .int 2), ("updated", .bool true)]

theorem overwrite_asAsked : ∃ after count,
    updateTaskPayload (kwargsPayload newItems false) none 9 taggedTable = some (after, count) ∧
      List.Forall₂ (EditedAsAsked (kwargsPayload newItems false) newItems) taggedTable.rows
        after.rows := by
  have hjson : (PyValue.dict newItems).IsJson := by decide
  obtain ⟨after, count, hupdate⟩ := exists_kwargsUpdate hjson false 9 taggedTable
  exact ⟨after, count, hupdate, (bulkUpdate_asAsked_iff rfl hjson hupdate).mpr (.inl rfl)⟩

/-- A row as the hook saves it, merged with new items: what is read back is no dictionary. -/
theorem merge_not_asAsked : ¬ ∀ (payload : DLQUpdatePayload) (news : List (String × PyValue))
    (now count : ℕ) (table after : DeadLetterTable), payload.kwargs = some news →
    (PyValue.dict news).IsJson → updateTaskPayload payload none now table = some (after, count) →
    List.Forall₂ (EditedAsAsked payload news) table.rows after.rows := by
  intro h
  have hjson : (PyValue.dict newItems).IsJson := by decide
  obtain ⟨after, count, hupdate⟩ := exists_kwargsUpdate hjson true 9 taggedTable
  obtain ⟨args, text, hloads, hrows⟩ := bulkUpdate_rows rfl hjson hupdate
  have hedited := h (kwargsPayload newItems true) newItems 9 count taggedTable after rfl hjson hupdate
  rw [hrows, List.forall₂_map_right_iff, List.forall₂_same] at hedited
  have hrow := (editedAsAsked_iff hloads args 9 _).mp (hedited _ List.mem_cons_self)
  exact absurd hrow (by decide)

end FastapiTemplate.DeadLetter
