import FastapiTemplate.PeriodicTasks

/-!
# The schedule of the beat process

How `DatabaseBeatScheduler` turns rows of `periodic_tasks` into schedule entries. Its own
connection returns `jsonb` as text, which `fetch_tasks_from_db` parses once; a row is then a
dictionary with ids and times that are no JSON values.
-/

namespace FastapiTemplate.Periodic

open PyValue

inductive CelerySchedule
  | crontab (fields : CronFields)
  | interval (seconds : ℤ)
  deriving DecidableEq, Repr

/-- What a `ScheduleEntry` is made of, without the state of its runs. -/
structure EntrySpec where
  name : String
  task : String
  schedule : CelerySchedule
  args : PyValue
  kwargs : PyValue

abbrev TaskInfo := List (String × PyValue)

/-! ## Rows as dictionaries -/

def textColumn (value : Option String) : PyValue := (value.map .str).getD .null

def intColumn (value : Option ℤ) : PyValue := (value.map .int).getD .null

def timeColumn (value : Option ℕ) : PyValue := (value.map (fun t => .other (toString t))).getD .null

/-- `json.loads(item[key]) if isinstance(item[key], str) else (item[key] or default)` -/
def jsonColumn (value : Option Jsonb) (default : PyValue) : Option PyValue :=
  match value with
  | some j => loads j.toText
  | none => some default

def taskInfo (row : PeriodicTaskRow) : Option TaskInfo := do
  let args ← jsonColumn row.args (.list [])
  let kwargs ← jsonColumn row.kwargs (.dict [])
  pure [
    ("id", .other (toString row.id)),
    ("name", .str row.name),
    ("task", .str row.task),
    ("schedule_type", .str row.scheduleType),
    ("cron_minute", textColumn row.cronMinute),
    ("cron_hour", textColumn row.cronHour),
    ("cron_day_of_week", textColumn row.cronDayOfWeek),
    ("cron_day_of_month", textColumn row.cronDayOfMonth),
    ("cron_month_of_year", textColumn row.cronMonthOfYear),
    ("interval_every", intColumn row.intervalEvery),
    ("interval_period", textColumn row.intervalPeriod),
    ("args", args),
    ("kwargs", kwargs),
    ("enabled", (row.enabled.map .bool).getD .null),
    ("last_run_at", timeColumn row.lastRunAt),
    ("total_run_count", intColumn row.totalRunCount),
    ("created_at", timeColumn row.createdAt),
    ("updated_at", timeColumn row.updatedAt)]

/-! ## Entries from dictionaries -/

/-- `str(value)`, up to the spelling of values that are no text and not `None`. -/
def pyStr (v : PyValue) : String :=
  match v with
  | .str s => s
  | .null => "None"
  | v => String.ofList (v.text true)

/-- A number with a digit other than zero before its exponent. -/
def nonzeroText (t : List Char) : Bool :=
  (t.takeWhile (fun c => c ≠ 'e' ∧ c ≠ 'E')).any (fun c => c.isDigit ∧ c ≠ '0')

def truthy (v : PyValue) : Bool :=
  match v with
  | .null => false
  | .bool b => b
  | .int n => n ≠ 0
  | .float f => nonzeroText f.text
  | .str s => s ≠ ""
  | .list items => !items.isEmpty
  | .dict items => !items.isEmpty
  | .set items => !items.isEmpty
  | .other _ => true

/-- `task_info.get(key) or default` -/
def getOr (info : TaskInfo) (key : String) (default : PyValue) : PyValue :=
  match dictGet? info key with
  | some v => if truthy v then v else default
  | none => default

/-- A text or nothing, as text columns hold them; other values do not occur. -/
def getText (info : TaskInfo) (key : String) (default : String) : Option String :=
  match getOr info key (.str default) with
  | .str s => some s
  | _ => none

def fitsTimedelta (seconds : ℤ) : Bool :=
  -999999999 * 86400 ≤ seconds && seconds < 1000000000 * 86400

def secondsMultiplier (period : String) : ℤ :=
  if period = "seconds" then 1
  else if period = "minutes" then 60
  else if period = "hours" then 3600
  else if period = "days" then 86400
  else 60

section entries
variable (validCrontab : CronFields → Bool)

def parseSchedule (info : TaskInfo) : Option CelerySchedule := do
  let scheduleType := pyStr ((dictGet? info "schedule_type").getD (.str "crontab"))
  if scheduleType = "interval" then
    let every ← match getOr info "interval_every" (.int 60) with
      | .int n => some n
      | _ => none
    let period := pyStr ((dictGet? info "interval_period").getD (.str "seconds"))
    let seconds := every * secondsMultiplier period
    if fitsTimedelta seconds then some (.interval seconds) else none
  else
    let minute ← getText info "cron_minute" "*"
    let hour ← getText info "cron_hour" "*"
    let dayOfWeek ← getText info "cron_day_of_week" "*"
    let dayOfMonth ← getText info "cron_day_of_month" "*"
    let monthOfYear ← getText info "cron_month_of_year" "*"
    let fields : CronFields := ⟨minute, hour, dayOfWeek, dayOfMonth, monthOfYear⟩
    if validCrontab fields then some (.crontab fields) else none

def textAt (info : TaskInfo) (key : String) : Option String :=
  match dictGet? info key with
  | some (.str s) => some s
  | _ => none

/-- The entry of a task, unless its schedule cannot be parsed. -/
def entrySpec (name : String) (info : TaskInfo) : Option EntrySpec := do
  let schedule ← parseSchedule validCrontab info
  let task ← textAt info "task"
  pure ⟨name, task, schedule, getOr info "args" (.list []), getOr info "kwargs" (.dict [])⟩

/-- The loop of `reload_schedule`; a task without a name raises. -/
def newSchedule : List PyValue → Option (List EntrySpec)
  | [] => some []
  | .dict info :: tasks => do
    let name ← textAt info "name"
    let rest ← newSchedule tasks
    match entrySpec validCrontab name info with
    | some spec => pure (spec :: rest)
    | none => pure rest
  | _ :: _ => none

def rowSpec (row : PeriodicTaskRow) : Option EntrySpec := do
  let info ← taskInfo row
  entrySpec validCrontab row.name info

end entries

/-! ## Rows give entries -/

/-- The value of a `jsonb` column, which can always be parsed. -/
def jsonValue (value : Option Jsonb) (default : PyValue) : PyValue :=
  (value.map (·.value)).getD default

theorem jsonColumn_eq (value : Option Jsonb) (default : PyValue) :
    jsonColumn value default = some (jsonValue value default) := by
  cases value with
  | none => rfl
  | some j => exact j.decode_eq

theorem exists_taskInfo (row : PeriodicTaskRow) : ∃ info, taskInfo row = some info ∧
    dictGet? info "id" = some (.other (toString row.id)) ∧
    textAt info "name" = some row.name ∧
    dictGet? info "args" = some (jsonValue row.args (.list [])) ∧
    dictGet? info "kwargs" = some (jsonValue row.kwargs (.dict [])) := by
  unfold taskInfo
  simp only [jsonColumn_eq, Option.bind_eq_bind, Option.bind_some]
  exact ⟨_, rfl, rfl, rfl, rfl, rfl⟩

def taskInfos (rows : List PeriodicTaskRow) : Option (List PyValue) :=
  rows.mapM (fun row => (taskInfo row).map .dict)

def rowSpecs (validCrontab : CronFields → Bool) (rows : List PeriodicTaskRow) : List EntrySpec :=
  rows.filterMap (rowSpec validCrontab)

theorem taskInfos_eq (validCrontab : CronFields → Bool) (rows : List PeriodicTaskRow) :
    ∃ infos, taskInfos rows = some infos ∧ infos.length = rows.length ∧
      newSchedule validCrontab infos = some (rowSpecs validCrontab rows) := by
  induction rows with
  | nil => exact ⟨[], rfl, rfl, rfl⟩
  | cons row rows ih =>
    obtain ⟨infos, hinfos, hlength, hschedule⟩ := ih
    obtain ⟨info, hinfo, -, hname, -⟩ := exists_taskInfo row
    refine ⟨.dict info :: infos, ?_, by simp [hlength], ?_⟩
    · unfold taskInfos at hinfos ⊢
      rw [List.mapM_cons, hinfo, hinfos]
      rfl
    · have hspec : rowSpec validCrontab row = entrySpec validCrontab row.name info := by
        rw [rowSpec, hinfo]
        rfl
      have hcons : rowSpecs validCrontab (row :: rows) =
          match entrySpec validCrontab row.name info with
          | none => rowSpecs validCrontab rows
          | some spec => spec :: rowSpecs validCrontab rows := by
        rw [rowSpecs, List.filterMap_cons, hspec]
        cases entrySpec validCrontab row.name info <;> rfl
      rw [newSchedule, hname, hschedule, hcons]
      simp only [Option.bind_eq_bind, Option.bind_some]
      cases entrySpec validCrontab row.name info <;> rfl

/-- Rows have no JSON text: `json.dumps` raises for their ids and times. -/
theorem dumps_taskInfos {rows : List PeriodicTaskRow} (hrows : rows ≠ []) {infos : List PyValue}
    (h : taskInfos rows = some infos) : (PyValue.list infos).dumps = none := by
  cases rows with
  | nil => exact absurd rfl hrows
  | cons row rows =>
    obtain ⟨info, hinfo, hid, -⟩ := exists_taskInfo row
    unfold taskInfos at h
    rw [List.mapM_cons, hinfo] at h
    simp only [Option.map_some, Option.bind_eq_bind, Option.bind_some] at h
    obtain ⟨rest, _, hrest⟩ := Option.bind_eq_some_iff.mp h
    cases hrest
    have hmem : ("id", PyValue.other (toString row.id)) ∈ info := by
      obtain ⟨x, hx, hvalue⟩ := Option.map_eq_some_iff.mp hid
      have hkey : x.1 = "id" := by simpa using List.find?_some hx
      rw [← hkey, ← hvalue]
      exact List.mem_of_find?_eq_some hx
    have hnot : ¬ jsonableItems info = true := fun hall =>
      absurd (Jsonb.jsonableItems_iff.mp hall _ hmem) (by simp [jsonable])
    have hlist : (PyValue.list (.dict info :: rest)).jsonable = false := by
      simp [jsonable, jsonableElements, hnot]
    rw [dumps, hlist, if_neg Bool.false_ne_true]

end FastapiTemplate.Periodic
