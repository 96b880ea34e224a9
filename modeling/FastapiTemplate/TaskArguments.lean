import FastapiTemplate.ScheduleAnnouncements

/-!
# The arguments of periodic tasks

`PeriodicTaskDAO` passes arguments as JSON texts to a connection that encodes them once more,
and each reader decodes once. So both the schedule entry and the manual trigger get a string.
-/

namespace FastapiTemplate.Periodic

open PyValue

/-! ## What is stored -/

/-- The row has been written with these arguments, by `create_task` or by `update_task`. -/
def StoresArgs (s : ScheduleStore) (after : PeriodicTaskTable) (row : PeriodicTaskRow)
    (args : List PyValue) : Prop :=
  (∃ t, t.args = args ∧ createTask t s.nextId s.now s.table = some (after, row)) ∨
    ∃ id t, t.args = some args ∧ updateTask id t s.now s.table = some (after, some row)

def StoresKwargs (s : ScheduleStore) (after : PeriodicTaskTable) (row : PeriodicTaskRow)
    (kwargs : List (String × PyValue)) : Prop :=
  (∃ t, t.kwargs = kwargs ∧ createTask t s.nextId s.now s.table = some (after, row)) ∨
    ∃ id t, t.kwargs = some kwargs ∧ updateTask id t s.now s.table = some (after, some row)

theorem createTask_spec {t : PeriodicTaskCreate} {id now : ℕ} {table after : PeriodicTaskTable}
    {row : PeriodicTaskRow} (h : createTask t id now table = some (after, row)) :
    Jsonb.textParam (.list t.args) = row.args ∧ Jsonb.textParam (.dict t.kwargs) = row.kwargs ∧
      row ∈ after.rows := by
  unfold createTask at h
  obtain ⟨args, hargs, h⟩ := Option.bind_eq_some_iff.mp h
  obtain ⟨kwargs, hkwargs, h⟩ := Option.bind_eq_some_iff.mp h
  split_ifs at h
  obtain ⟨table', htable, h⟩ := Option.bind_eq_some_iff.mp h
  cases h
  rw [PeriodicTaskTable.rows_of_ofRows htable]
  exact ⟨hargs, hkwargs, List.mem_append_right _ (List.mem_singleton.mpr rfl)⟩

theorem updateTask_spec {id : ℕ} {t : PeriodicTaskUpdate} {now : ℕ} {table after : PeriodicTaskTable}
    {row : PeriodicTaskRow} (h : updateTask id t now table = some (after, some row)) :
    (∀ args, t.args = some args → Jsonb.textParam (.list args) = row.args) ∧
      (∀ kwargs, t.kwargs = some kwargs → Jsonb.textParam (.dict kwargs) = row.kwargs) ∧
      row ∈ after.rows := by
  unfold updateTask at h
  obtain ⟨args, hargs, h⟩ := Option.bind_eq_some_iff.mp h
  obtain ⟨kwargs, hkwargs, h⟩ := Option.bind_eq_some_iff.mp h
  cases hfind : table.rows.find? (·.id = id) with
  | none =>
    rw [hfind] at h
    cases h
  | some old =>
    rw [hfind] at h
    dsimp only at h
    split_ifs at h
    obtain ⟨table', htable, h⟩ := Option.bind_eq_some_iff.mp h
    cases h
    refine ⟨fun vs hvs => ?_, fun items hitems => ?_, ?_⟩
    · rw [hvs] at hargs
      obtain ⟨j, hj, hargs⟩ := Option.map_eq_some_iff.mp hargs
      rw [← hargs]
      exact hj
    · rw [hitems] at hkwargs
      obtain ⟨j, hj, hkwargs⟩ := Option.map_eq_some_iff.mp hkwargs
      rw [← hkwargs]
      exact hj
    · rw [PeriodicTaskTable.rows_of_ofRows htable]
      have hid : old.id = id := by simpa using List.find?_some hfind
      exact List.mem_map.mpr ⟨old, List.mem_of_find?_eq_some hfind, if_pos hid⟩

theorem StoresArgs.textParam_eq {s : ScheduleStore} {after : PeriodicTaskTable}
    {row : PeriodicTaskRow} {args : List PyValue} (h : StoresArgs s after row args) :
    Jsonb.textParam (.list args) = row.args := by
  rcases h with ⟨t, rfl, hcreate⟩ | ⟨id, t, hargs, hupdate⟩
  · exact (createTask_spec hcreate).1
  · exact (updateTask_spec hupdate).1 args hargs

theorem StoresKwargs.textParam_eq {s : ScheduleStore} {after : PeriodicTaskTable}
    {row : PeriodicTaskRow} {kwargs : List (String × PyValue)} (h : StoresKwargs s after row kwargs) :
    Jsonb.textParam (.dict kwargs) = row.kwargs := by
  rcases h with ⟨t, rfl, hcreate⟩ | ⟨id, t, hkwargs, hupdate⟩
  · exact (createTask_spec hcreate).2.1
  · exact (updateTask_spec hupdate).2.1 kwargs hkwargs

/-- What is stored for a JSON value is its text, as a string. -/
theorem stored_text {v : PyValue} (hv : v.IsJson) {column : Option Jsonb}
    (hcolumn : Jsonb.textParam v = column) :
    ∃ text, text ≠ "" ∧ ∀ default, jsonValue column default = .str text := by
  obtain ⟨text, htext, hloads⟩ := Jsonb.textParam_eq hv
  refine ⟨text, ?_, fun default => ?_⟩
  · rintro rfl
    cases hloads
  · rw [← hcolumn, htext]
    rfl

/-! ## What is read -/

section readers
variable (env : Surroundings)

def triggered (u : ScheduleStore) (pk : String) : List TaskMessage :=
  ((PeriodicTaskAdminView.triggerNowAction env.parseUuid pk).execute
    (ScheduleStore.handler env.crontabDue) u).2.sent.drop u.sent.length

/-- The schedule entry of the row and the manual trigger both carry the value. -/
def Returned (entryValue : EntrySpec → PyValue) (sentValue : TaskMessage → PyValue)
    (row : PeriodicTaskRow) (u : ScheduleStore) (pk : String) (v : PyValue) : Prop :=
  (∀ spec, rowSpec env.validCrontab row = some spec → entryValue spec = v) ∧
    ∃ message ∈ triggered env u pk, sentValue message = v

abbrev ArgsReturned := Returned env (·.args) (·.args)

abbrev KwargsReturned := Returned env (·.kwargs) (·.kwargs)

/-- Consumers that get a text do not get another value. -/
theorem not_returned {entryValue : EntrySpec → PyValue} {sentValue : TaskMessage → PyValue}
    {row : PeriodicTaskRow} {u : ScheduleStore} {pk : String} {v : PyValue} (text : String)
    (hv : .str text ≠ v)
    (hentry : ∀ spec, rowSpec env.validCrontab row = some spec → entryValue spec = .str text)
    (hsent : ∀ message ∈ triggered env u pk, sentValue message = .str text) :
    (∀ spec, rowSpec env.validCrontab row = some spec → entryValue spec ≠ v) ∧
      ¬ Returned env entryValue sentValue row u pk v := by
  constructor
  · intro spec hspec heq
    exact hv ((hentry spec hspec).symm.trans heq)
  · rintro ⟨-, message, hmessage, heq⟩
    exact hv ((hsent message hmessage).symm.trans heq)

end readers

theorem getOr_str {info : TaskInfo} {key text : String} {default : PyValue}
    (h : dictGet? info key = some (.str text)) (htext : text ≠ "") :
    getOr info key default = .str text := by
  have htruthy : truthy (.str text) = true := decide_eq_true htext
  rw [getOr, h]
  exact if_pos htruthy

/-- An entry carries the values of the columns, unless they are empty. -/
theorem rowSpec_some {validCrontab : CronFields → Bool} {row : PeriodicTaskRow} {spec : EntrySpec}
    (h : rowSpec validCrontab row = some spec) :
    (∀ text, text ≠ "" → jsonValue row.args (.list []) = .str text → spec.args = .str text) ∧
      ∀ text, text ≠ "" → jsonValue row.kwargs (.dict []) = .str text → spec.kwargs = .str text := by
  obtain ⟨info, hinfo, -, -, hargs, hkwargs⟩ := exists_taskInfo row
  rw [rowSpec, hinfo] at h
  simp only [Option.bind_eq_bind, Option.bind_some, entrySpec] at h
  obtain ⟨schedule, -, h⟩ := Option.bind_eq_some_iff.mp h
  obtain ⟨task, -, h⟩ := Option.bind_eq_some_iff.mp h
  cases h
  constructor
  · intro text htext hvalue
    exact getOr_str (hargs.trans (congrArg some hvalue)) htext
  · intro text htext hvalue
    exact getOr_str (hkwargs.trans (congrArg some hvalue)) htext

theorem find?_of_mem {table : PeriodicTaskTable} {row : PeriodicTaskRow} (h : row ∈ table.rows) :
    table.rows.find? (·.id = row.id) = some row := by
  cases hfind : table.rows.find? (·.id = row.id) with
  | none => exact absurd (List.find?_eq_none.mp hfind row h) (by simp)
  | some found =>
    have hid : found.id = row.id := by simpa using List.find?_some hfind
    exact congrArg some (List.inj_on_of_nodup_map table.idsApart (List.mem_of_find?_eq_some hfind) h hid)

/-- The trigger sends the values of the columns. -/
theorem triggered_eq {env : Surroundings} {u : ScheduleStore} {row : PeriodicTaskRow} {pk : String}
    (hrow : row ∈ u.table.rows) (hpk : env.parseUuid pk = some row.id) :
    triggered env u pk = [⟨row.task, jsonValue row.args .null, jsonValue row.kwargs .null⟩] := by
  have hprogram : (PeriodicTaskAdminView.triggerNowAction env.parseUuid pk).execute
      (ScheduleStore.handler env.crontabDue) u =
      (.ok (), { u with sent := u.sent ++
        [⟨row.task, jsonValue row.args .null, jsonValue row.kwargs .null⟩] }) := by
    unfold PeriodicTaskAdminView.triggerNowAction PeriodicTaskAdminView.uuidOf
    rw [hpk]
    change Program.execute (ScheduleStore.handler env.crontabDue)
      (orRaise (.valueError "Periodic task not found") (u.table.rows.find? (·.id = row.id)) >>=
        fun row => _) u = _
    rw [find?_of_mem hrow]
    change Program.execute (ScheduleStore.handler env.crontabDue) (do
      let args ← orRaise .jsonDecode (jsonColumn row.args .null)
      let kwargs ← orRaise .jsonDecode (jsonColumn row.kwargs .null)
      Program.ofExcept (← ask (.sendTask ⟨row.task, args, kwargs⟩))) u = _
    rw [jsonColumn_eq, jsonColumn_eq]
    rfl
  rw [triggered, hprogram]
  exact List.drop_left

/-- No consumer gets the list or the dictionary that has been stored. -/
theorem arguments_never_returned {env : Surroundings} {s u : ScheduleStore}
    {after : PeriodicTaskTable} {row : PeriodicTaskRow} {pk : String} (hrow : row ∈ u.table.rows)
    (hpk : env.parseUuid pk = some row.id) :
    (∀ args, (PyValue.list args).IsJson → StoresArgs s after row args →
      (∀ spec, rowSpec env.validCrontab row = some spec → spec.args ≠ .list args) ∧
        ¬ ArgsReturned env row u pk (.list args)) ∧
    ∀ kwargs, (PyValue.dict kwargs).IsJson → StoresKwargs s after row kwargs →
      (∀ spec, rowSpec env.validCrontab row = some spec → spec.kwargs ≠ .dict kwargs) ∧
        ¬ KwargsReturned env row u pk (.dict kwargs) := by
  have htriggered := triggered_eq hrow hpk
  constructor
  · intro args hjson hstored
    obtain ⟨text, htext, hvalue⟩ := stored_text hjson hstored.textParam_eq
    refine not_returned env text nofun (fun spec hspec => ?_) (fun message hmessage => ?_)
    · exact (rowSpec_some hspec).1 text htext (hvalue _)
    · rw [htriggered, List.mem_singleton] at hmessage
      rw [hmessage, ← hvalue .null]
  · intro kwargs hjson hstored
    obtain ⟨text, htext, hvalue⟩ := stored_text hjson hstored.textParam_eq
    refine not_returned env text nofun (fun spec hspec => ?_) (fun message hmessage => ?_)
    · exact (rowSpec_some hspec).2 text htext (hvalue _)
    · rw [htriggered, List.mem_singleton] at hmessage
      rw [hmessage, ← hvalue .null]

def report : PeriodicTaskCreate where
  name := "report"
  task := "api.tasks.report.report"
  scheduleType := .interval
  cronMinute := none
  cronHour := none
  cronDayOfWeek := none
  cronDayOfMonth := none
  cronMonthOfYear := none
  intervalEvery := some 5
  intervalPeriod := some .minutes
  args := [.int 1]
  kwargs := [("x", .bool true)]
  enabled := true

def anyUuid : Surroundings := ⟨fun _ => true, fun _ => true, fun _ _ _ => false, fun _ => some 2⟩

theorem report_created : ∃ after row, createTask report 2 0 newScheduler.table = some (after, row) ∧
    row ∈ after.rows ∧ row.id = 2 := by
  have hsome : (createTask report 2 0 newScheduler.table).isSome = true := by
    decide +kernel
  obtain ⟨⟨after, row⟩, hcreate⟩ := Option.isSome_iff_exists.mp hsome
  obtain ⟨-, -, hrow⟩ := createTask_spec hcreate
  refine ⟨after, row, hcreate, hrow, ?_⟩
  unfold createTask at hcreate
  obtain ⟨_, -, h⟩ := Option.bind_eq_some_iff.mp hcreate
  obtain ⟨_, -, h⟩ := Option.bind_eq_some_iff.mp h
  split_ifs at h
  obtain ⟨_, -, h⟩ := Option.bind_eq_some_iff.mp h
  cases h
  rfl

/-- The report is stored with its positional argument, and can be triggered. -/
theorem report_stored : ∃ after row, StoresArgs newScheduler after row [.int 1] ∧
    row ∈ after.rows ∧ anyUuid.parseUuid "2" = some row.id := by
  obtain ⟨after, row, hcreate, hrow, hid⟩ := report_created
  exact ⟨after, row, .inl ⟨report, rfl, hcreate⟩, hrow, congrArg some hid.symm⟩

theorem report_args_not_returned : ∃ after row u,
    StoresArgs newScheduler after row [.int 1] ∧ ¬ ArgsReturned anyUuid row u "2" (.list [.int 1]) := by
  obtain ⟨after, row, hstored, hrow, hpk⟩ := report_stored
  let u : ScheduleStore := { newScheduler with table := after }
  refine ⟨after, row, u, hstored, ?_⟩
  have hnever := @arguments_never_returned anyUuid newScheduler u after row "2" hrow hpk
  exact (hnever.1 [.int 1] (by decide) hstored).2

/-- The positional argument of the report comes back as a text. -/
theorem arguments_not_returned : ¬ ∀ (env : Surroundings) (s u : ScheduleStore)
    (after : PeriodicTaskTable) (row : PeriodicTaskRow) (pk : String) (args : List PyValue),
    row ∈ u.table.rows → env.parseUuid pk = some row.id → (PyValue.list args).IsJson →
    StoresArgs s after row args → ArgsReturned env row u pk (.list args) := by
  intro h
  obtain ⟨after, row, hstored, hrow, hpk⟩ := report_stored
  let u : ScheduleStore := { newScheduler with table := after }
  obtain ⟨text, htext, hvalue⟩ := stored_text (by decide) hstored.textParam_eq
  obtain ⟨-, message, hmessage, hargs⟩ :=
    h anyUuid newScheduler u after row "2" [.int 1] hrow hpk (by decide) hstored
  rw [triggered_eq hrow hpk, List.mem_singleton] at hmessage
  rw [hmessage, hvalue] at hargs
  cases hargs

end FastapiTemplate.Periodic
