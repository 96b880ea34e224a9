import FastapiTemplate.BeatSchedule
import FastapiTemplate.CallProgram
import Mathlib.Logic.Function.Basic

/-!
# The beat scheduler and what it shares with the API

The database, Redis, the fields of `DatabaseBeatScheduler` and the broker as one store, the
calls that are made on it, and the programs of the scheduler. When a crontab schedule is due is
for Celery to say.
-/

namespace FastapiTemplate.Periodic

open PyValue

structure ScheduleEntry where
  spec : EntrySpec
  lastRunAt : ℕ
  totalRunCount : ℕ

structure TaskMessage where
  task : String
  args : PyValue
  kwargs : PyValue

/-- The cached text lasts until its time; `schedule` is the dictionary of the scheduler. -/
structure ScheduleStore where
  now : ℕ
  table : PeriodicTaskTable
  nextId : ℕ
  data : Option (String × ℕ)
  version : Option ℕ
  lastVersion : Option ℕ
  schedule : String → Option ScheduleEntry
  sent : List TaskMessage

inductive ScheduleCall
  | getData
  | setData (text : String)
  | getVersion
  /-- `DEL` and `INCR` in one transaction -/
  | deleteDataIncrVersion
  | connect
  | selectEnabled
  | close
  | selectById (id : ℕ)
  | selectByName (name : String)
  | insertTask (t : PeriodicTaskCreate)
  | updateTask (id : ℕ) (t : PeriodicTaskUpdate)
  | deleteTasks (ids : List ℕ)
  | sendTask (message : TaskMessage)
  | getLastVersion
  | setLastVersion (version : Option ℕ)
  | installEntries (specs : List EntrySpec)
  | setSchedule (specs : List EntrySpec)
  /-- `tick` of Celery, with the entry that its heap offers -/
  | runDue (name : Option String)

inductive ScheduleError
  | redis
  | database
  | typeError
  | jsonDecode
  | keyError
  | validation
  | valueError (message : String)
  | httpException (statusCode : ℕ) (detail : String)
  deriving DecidableEq, Repr

@[reducible] def ScheduleCall.Answer : ScheduleCall → Type
  | .getData => Except ScheduleError (Option String)
  | .setData _ => Except ScheduleError Unit
  | .getVersion => Except ScheduleError (Option ℕ)
  | .deleteDataIncrVersion => Except ScheduleError Unit
  | .connect => Except ScheduleError Unit
  | .selectEnabled => Except ScheduleError (List PeriodicTaskRow)
  | .close => Except ScheduleError Unit
  | .selectById _ => Except ScheduleError (Option PeriodicTaskRow)
  | .selectByName _ => Except ScheduleError (Option PeriodicTaskRow)
  | .insertTask _ => Except ScheduleError PeriodicTaskRow
  | .updateTask .. => Except ScheduleError (Option PeriodicTaskRow)
  | .deleteTasks _ => Except ScheduleError (List ℕ)
  | .sendTask _ => Except ScheduleError Unit
  | .getLastVersion => Option ℕ
  | .setLastVersion _ => Unit
  | .installEntries _ => Unit
  | .setSchedule _ => Unit
  | .runDue _ => Unit

abbrev ScheduleProgram (α : Type) := Program ScheduleCall ScheduleCall.Answer ScheduleError α

abbrev ask (c : ScheduleCall) : ScheduleProgram c.Answer := Program.perform c

/-! ## The store -/

def freshEntry (now : ℕ) (spec : EntrySpec) : ScheduleEntry := ⟨spec, now, 0⟩

def specAt (specs : List EntrySpec) (name : String) : Option EntrySpec :=
  specs.reverse.find? (·.name = name)

section handler
variable (crontabDue : CronFields → ℕ → ℕ → Bool)

def isDue (schedule : CelerySchedule) (lastRunAt now : ℕ) : Bool :=
  match schedule with
  | .crontab fields => crontabDue fields lastRunAt now
  | .interval seconds => (lastRunAt : ℤ) + seconds ≤ now

namespace ScheduleStore

def runDue (s : ScheduleStore) (name : String) : ScheduleStore :=
  match s.schedule name with
  | some e =>
    if isDue crontabDue e.spec.schedule e.lastRunAt s.now then
      let next : ScheduleEntry := ⟨e.spec, s.now, e.totalRunCount + 1⟩
      { s with schedule := Function.update s.schedule name (some next) }
    else s
  | none => s

def handler : (c : ScheduleCall) → ScheduleStore → c.Answer × ScheduleStore
  | .getData, s => (.ok ((s.data.filter (fun d => s.now < d.2)).map (·.1)), s)
  | .setData text, s => (.ok (), { s with data := some (text, s.now + 3600) })
  | .getVersion, s => (.ok s.version, s)
  | .deleteDataIncrVersion, s =>
    (.ok (), { s with data := none, version := some (s.version.getD 0 + 1) })
  | .connect, s => (.ok (), s)
  | .selectEnabled, s => (.ok s.table.enabledRows, s)
  | .close, s => (.ok (), s)
  | .selectById id, s => (.ok (s.table.rows.find? (·.id = id)), s)
  | .selectByName name, s => (.ok (s.table.rows.find? (·.name = name)), s)
  | .insertTask t, s =>
    match createTask t s.nextId s.now s.table with
    | some (table, row) => (.ok row, { s with table := table, nextId := s.nextId + 1 })
    | none => (.error .database, { s with nextId := s.nextId + 1 })
  | .updateTask id t, s =>
    match Periodic.updateTask id t s.now s.table with
    | some (table, row) => (.ok row, { s with table := table })
    | none => (.error .database, s)
  | .deleteTasks ids, s =>
    (.ok (Periodic.deleteTasks ids s.table).2, { s with table := (Periodic.deleteTasks ids s.table).1 })
  | .sendTask message, s => (.ok (), { s with sent := s.sent ++ [message] })
  | .getLastVersion, s => (s.lastVersion, s)
  | .setLastVersion version, s => ((), { s with lastVersion := version })
  | .installEntries specs, s =>
    ((), { s with schedule := fun name =>
      ((specAt specs name).map (freshEntry s.now)).or (s.schedule name) })
  | .setSchedule specs, s =>
    ((), { s with schedule := fun name => (specAt specs name).map (freshEntry s.now) })
  | .runDue name, s =>
    match name with
    | some name => ((), s.runDue crontabDue name)
    | none => ((), s)

end ScheduleStore
end handler

/-! ## The programs of the scheduler -/

def orRaise {α : Type} (e : ScheduleError) : Option α → ScheduleProgram α
  | some a => pure a
  | none => .raise e

/-- Every error is logged, and the list is empty then. -/
def fetchTasksFromDb : ScheduleProgram (List PyValue) :=
  Program.handle (do
    Program.ofExcept (← ask .connect)
    Program.tryFinally (do
      let rows ← Program.ofExcept (← ask .selectEnabled)
      orRaise .jsonDecode (taskInfos rows))
      (do Program.ofExcept (← ask .close))) (fun _ => pure [])

/-- A cached text that is empty counts as none; the cache holds lists. -/
def cachedTasks (text : String) : ScheduleProgram (List PyValue) :=
  match loads text with
  | some (.list tasks) => pure tasks
  | _ => .raise .jsonDecode

def fetchAndCache : ScheduleProgram (List PyValue) := do
  let tasks ← fetchTasksFromDb
  if tasks.isEmpty then pure tasks
  else
    let text ← orRaise .typeError (PyValue.list tasks).dumps
    Program.ofExcept (← ask (.setData text))
    pure tasks

def readTasks : ScheduleProgram (List PyValue) := do
  let cached ← Program.ofExcept (← ask .getData)
  match cached.filter (· ≠ "") with
  | some text => cachedTasks text
  | none => fetchAndCache

theorem readTasks_eq : readTasks = ask .getData >>= fun answer => Program.ofExcept answer >>=
    fun cached => (cached.filter (· ≠ "")).elim fetchAndCache cachedTasks := by
  refine congrArg (ask .getData >>= ·) (funext (fun answer =>
    congrArg (Program.ofExcept answer >>= ·) (funext (fun cached => ?_))))
  cases cached.filter (· ≠ "") <;> rfl

/-- The version is read after the tasks. -/
def recordVersion (tasks : List PyValue) : ScheduleProgram (List PyValue) := do
  let version ← Program.ofExcept (← ask .getVersion)
  ask (.setLastVersion version)
  pure tasks

/-- The first part of `reload_schedule`, which falls back to the database. -/
def loadTasks : ScheduleProgram (List PyValue) :=
  Program.handle (do recordVersion (← readTasks)) (fun _ => fetchTasksFromDb)

section scheduler
variable (validCrontab : CronFields → Bool)

def reloadSchedule : ScheduleProgram Unit := do
  let tasks ← loadTasks
  let specs ← orRaise .keyError (newSchedule validCrontab tasks)
  ask (.setSchedule specs)

def setupSchedule (defaults : List EntrySpec) : ScheduleProgram Unit := do
  ask (.installEntries defaults)
  reloadSchedule validCrontab

/-- `tick`, with the entry that the heap of Celery offers. -/
def tick (name : Option String) : ScheduleProgram Unit := do
  Program.handle (do
    let version ← Program.ofExcept (← ask .getVersion)
    let last ← ask .getLastVersion
    if version = last then pure () else reloadSchedule validCrontab) (fun _ => pure ())
  ask (.runDue name)

end scheduler

/-! ## The scheduler after the migrations -/

def deleteOldLogs : PeriodicTaskRow where
  id := 1
  name := "delete-old-logs"
  task := "api.tasks.delete_old_logs.delete_old_logs"
  scheduleType := "crontab"
  cronMinute := some "0"
  cronHour := some "0"
  cronDayOfWeek := some "*"
  cronDayOfMonth := some "*"
  cronMonthOfYear := some "*"
  intervalEvery := none
  intervalPeriod := none
  args := some ⟨.list [], rfl, rfl⟩
  kwargs := some ⟨.dict [], rfl, rfl⟩
  enabled := some true
  lastRunAt := none
  totalRunCount := some 0
  createdAt := some 0
  updatedAt := some 0

def newScheduler : ScheduleStore where
  now := 0
  table := ⟨[deleteOldLogs], List.nodup_singleton _, List.nodup_singleton _⟩
  nextId := 2
  data := none
  version := some 3
  lastVersion := none
  schedule := fun _ => none
  sent := []

end FastapiTemplate.Periodic
