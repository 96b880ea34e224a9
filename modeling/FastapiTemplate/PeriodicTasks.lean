import FastapiTemplate.JsonColumns
import Mathlib.Algebra.Group.Int.Defs

/-!
# Periodic tasks

The table `periodic_tasks`, the schemas of its entries, and the statements of
`PeriodicTaskDAO`. Which crontab expressions are valid is for Celery to say.
-/

namespace FastapiTemplate.Periodic

open PyValue

inductive ScheduleType
  | crontab
  | interval
  deriving DecidableEq, Repr

def ScheduleType.value : ScheduleType → String
  | .crontab => "crontab"
  | .interval => "interval"

inductive IntervalPeriod
  | seconds
  | minutes
  | hours
  | days
  deriving DecidableEq, Repr

def IntervalPeriod.value : IntervalPeriod → String
  | .seconds => "seconds"
  | .minutes => "minutes"
  | .hours => "hours"
  | .days => "days"

/-! ## The table -/

/-- Columns that may be null are optional. -/
structure PeriodicTaskRow where
  id : ℕ
  name : String
  task : String
  scheduleType : String
  cronMinute : Option String
  cronHour : Option String
  cronDayOfWeek : Option String
  cronDayOfMonth : Option String
  cronMonthOfYear : Option String
  intervalEvery : Option ℤ
  intervalPeriod : Option String
  args : Option Jsonb
  kwargs : Option Jsonb
  enabled : Option Bool
  lastRunAt : Option ℕ
  totalRunCount : Option ℤ
  createdAt : Option ℕ
  updatedAt : Option ℕ

/-- `id` is the primary key, and `name` is unique. -/
structure PeriodicTaskTable where
  rows : List PeriodicTaskRow
  idsApart : (rows.map (·.id)).Nodup
  namesApart : (rows.map (·.name)).Nodup

namespace PeriodicTaskTable

def empty : PeriodicTaskTable := ⟨[], List.nodup_nil, List.nodup_nil⟩

def ofRows (rows : List PeriodicTaskRow) : Option PeriodicTaskTable :=
  if h : (rows.map (·.id)).Nodup ∧ (rows.map (·.name)).Nodup then some ⟨rows, h.1, h.2⟩ else none

def filter (table : PeriodicTaskTable) (keep : PeriodicTaskRow → Bool) : PeriodicTaskTable :=
  ⟨table.rows.filter keep, table.idsApart.sublist (List.filter_sublist.map _),
    table.namesApart.sublist (List.filter_sublist.map _)⟩

def enabledRows (table : PeriodicTaskTable) : List PeriodicTaskRow :=
  table.rows.filter (fun row => row.enabled = some true)

theorem rows_of_ofRows {rows : List PeriodicTaskRow} {table : PeriodicTaskTable}
    (h : ofRows rows = some table) : table.rows = rows := by
  unfold ofRows at h
  split at h
  · cases h
    rfl
  · cases h

end PeriodicTaskTable

/-! ## Schemas -/

structure CronFields where
  minute : String
  hour : String
  dayOfWeek : String
  dayOfMonth : String
  monthOfYear : String
  deriving DecidableEq, Repr

structure PeriodicTaskCreate where
  name : String
  task : String
  scheduleType : ScheduleType
  cronMinute : Option String
  cronHour : Option String
  cronDayOfWeek : Option String
  cronDayOfMonth : Option String
  cronMonthOfYear : Option String
  intervalEvery : Option ℤ
  intervalPeriod : Option IntervalPeriod
  args : List PyValue
  kwargs : List (String × PyValue)
  enabled : Bool

structure PeriodicTaskUpdate where
  name : Option String
  task : Option String
  scheduleType : Option ScheduleType
  cronMinute : Option String
  cronHour : Option String
  cronDayOfWeek : Option String
  cronDayOfMonth : Option String
  cronMonthOfYear : Option String
  intervalEvery : Option ℤ
  intervalPeriod : Option IntervalPeriod
  args : Option (List PyValue)
  kwargs : Option (List (String × PyValue))
  enabled : Option Bool

def PeriodicTaskUpdate.ofEnabled (enabled : Bool) : PeriodicTaskUpdate :=
  ⟨none, none, none, none, none, none, none, none, none, none, none, none, some enabled⟩

section valid
variable (validCrontab : CronFields → Bool)

/-- `validate_schedule_fields`, and the constraint on `interval_every`. -/
def PeriodicTaskCreate.valid (t : PeriodicTaskCreate) : Bool :=
  t.intervalEvery.all (0 < ·) &&
    match t.scheduleType with
    | .interval => t.intervalEvery.isSome && t.intervalPeriod.isSome
    | .crontab => validCrontab ⟨textOr t.cronMinute "*", textOr t.cronHour "*",
        textOr t.cronDayOfWeek "*", textOr t.cronDayOfMonth "*",
        textOr t.cronMonthOfYear "*"⟩

/-- `validate_update_schedule_fields`, and the constraint on `interval_every`. -/
def PeriodicTaskUpdate.valid (t : PeriodicTaskUpdate) : Bool :=
  t.intervalEvery.all (0 < ·) &&
    if t.cronMinute.isSome || t.cronHour.isSome || t.cronDayOfWeek.isSome ||
        t.cronDayOfMonth.isSome || t.cronMonthOfYear.isSome then
      validCrontab ⟨textOr t.cronMinute "*", textOr t.cronHour "*",
        textOr t.cronDayOfWeek "*", textOr t.cronDayOfMonth "*",
        textOr t.cronMonthOfYear "*"⟩
    else true

end valid

/-! ## Statements -/

def fitsColumns (name task : Option String) (cron : List (Option String)) (every : Option ℤ) : Bool :=
  name.all (fitsVarchar 255) && task.all (fitsVarchar 255) &&
    cron.all (fun c => c.all (fitsVarchar 50)) && every.all (fun n => -2 ^ 31 ≤ n && n < 2 ^ 31)

/-- The table after the `INSERT` and the new row, unless a value is refused. -/
def createTask (t : PeriodicTaskCreate) (id now : ℕ) (table : PeriodicTaskTable) :
    Option (PeriodicTaskTable × PeriodicTaskRow) := do
  let args ← Jsonb.textParam (.list t.args)
  let kwargs ← Jsonb.textParam (.dict t.kwargs)
  if fitsColumns (some t.name) (some t.task) [t.cronMinute, t.cronHour, t.cronDayOfWeek,
      t.cronDayOfMonth, t.cronMonthOfYear] t.intervalEvery then
    let row : PeriodicTaskRow := {
      id := id
      name := t.name
      task := t.task
      scheduleType := t.scheduleType.value
      cronMinute := t.cronMinute
      cronHour := t.cronHour
      cronDayOfWeek := t.cronDayOfWeek
      cronDayOfMonth := t.cronDayOfMonth
      cronMonthOfYear := t.cronMonthOfYear
      intervalEvery := t.intervalEvery
      intervalPeriod := t.intervalPeriod.map (·.value)
      args := some args
      kwargs := some kwargs
      enabled := some t.enabled
      lastRunAt := none
      totalRunCount := some 0
      createdAt := some now
      updatedAt := some now }
    let after ← PeriodicTaskTable.ofRows (table.rows ++ [row])
    pure (after, row)
  else none

/-- The row with every column that the update gives; `COALESCE` keeps the others. -/
def updatedRow (t : PeriodicTaskUpdate) (args kwargs : Option Jsonb) (now : ℕ)
    (row : PeriodicTaskRow) : PeriodicTaskRow :=
  { row with
    name := t.name.getD row.name
    task := t.task.getD row.task
    scheduleType := (t.scheduleType.map (·.value)).getD row.scheduleType
    cronMinute := t.cronMinute.or row.cronMinute
    cronHour := t.cronHour.or row.cronHour
    cronDayOfWeek := t.cronDayOfWeek.or row.cronDayOfWeek
    cronDayOfMonth := t.cronDayOfMonth.or row.cronDayOfMonth
    cronMonthOfYear := t.cronMonthOfYear.or row.cronMonthOfYear
    intervalEvery := t.intervalEvery.or row.intervalEvery
    intervalPeriod := (t.intervalPeriod.map (·.value)).or row.intervalPeriod
    args := args.or row.args
    kwargs := kwargs.or row.kwargs
    enabled := t.enabled.or row.enabled
    updatedAt := some now }

def updateTask (id : ℕ) (t : PeriodicTaskUpdate) (now : ℕ) (table : PeriodicTaskTable) :
    Option (PeriodicTaskTable × Option PeriodicTaskRow) := do
  let args ← Jsonb.optionalParam (fun vs => Jsonb.textParam (.list vs)) t.args
  let kwargs ← Jsonb.optionalParam (fun items => Jsonb.textParam (.dict items)) t.kwargs
  match table.rows.find? (·.id = id) with
  | none => pure (table, none)
  | some row =>
    if fitsColumns t.name t.task [t.cronMinute, t.cronHour, t.cronDayOfWeek, t.cronDayOfMonth,
        t.cronMonthOfYear] t.intervalEvery then
      let after ← PeriodicTaskTable.ofRows (table.rows.map
        (fun r => if r.id = id then updatedRow t args kwargs now r else r))
      pure (after, some (updatedRow t args kwargs now row))
    else none

def deleteTasks (ids : List ℕ) (table : PeriodicTaskTable) : PeriodicTaskTable × List ℕ :=
  (table.filter (fun row => row.id ∉ ids), (table.rows.filter (·.id ∈ ids)).map (·.id))

end FastapiTemplate.Periodic
