import FastapiTemplate.BeatScheduler
import FastapiTemplate.TransitionRuns

/-!
# Changing the periodic tasks

The operations of `PeriodicTaskService` and of `PeriodicTaskAdminView`. The service clears the
cached schedule and increases its version after every change; the view does not. Which tasks are
registered is for Celery to say, and which texts are UUIDs for Python.
-/

namespace FastapiTemplate.Periodic

open PyValue

/-! ## The service -/

namespace PeriodicTaskService

section service
variable (registered : String → Bool)

def validateTaskExists (task : String) : ScheduleProgram Unit :=
  if registered task then pure ()
  else .raise (.httpException 400 ("Task '" ++ task ++ "' is not a registered Celery task"))

def notifyScheduleChanged : ScheduleProgram Unit := do
  Program.ofExcept (← ask .deleteDataIncrVersion)

def createTask (t : PeriodicTaskCreate) : ScheduleProgram PeriodicTaskRow := do
  validateTaskExists registered t.task
  let existing ← Program.ofExcept (← ask (.selectByName t.name))
  if existing.isSome then
    .raise (.httpException 400 ("Periodic task with name '" ++ t.name ++ "' already exists"))
  else
    let row ← Program.ofExcept (← ask (.insertTask t))
    notifyScheduleChanged
    pure row

def updateTask (id : ℕ) (t : PeriodicTaskUpdate) : ScheduleProgram PeriodicTaskRow := do
  match t.task with
  | some task => validateTaskExists registered task
  | none => pure ()
  match ← Program.ofExcept (← ask (.updateTask id t)) with
  | some row =>
    notifyScheduleChanged
    pure row
  | none => .raise (.httpException 404 "Periodic task not found")

/-- What `update_task` does once the name of the task is checked. -/
def writeUpdate (id : ℕ) (t : PeriodicTaskUpdate) : ScheduleProgram PeriodicTaskRow := do
  match ← Program.ofExcept (← ask (.updateTask id t)) with
  | some row =>
    notifyScheduleChanged
    pure row
  | none => .raise (.httpException 404 "Periodic task not found")

theorem updateTask_eq (id : ℕ) (t : PeriodicTaskUpdate) : updateTask registered id t =
    t.task.elim (writeUpdate id t) (fun task => do
      validateTaskExists registered task
      writeUpdate id t) := by
  unfold updateTask
  cases t.task <;> rfl

def deleteTask (id : ℕ) : ScheduleProgram Bool := do
  let deleted ← Program.ofExcept (← ask (.deleteTasks [id]))
  if deleted.isEmpty then .raise (.httpException 404 "Periodic task not found")
  else
    notifyScheduleChanged
    pure true

def triggerTaskManually (task : String) (args : List PyValue) (kwargs : List (String × PyValue)) :
    ScheduleProgram Unit := do
  validateTaskExists registered task
  Program.ofExcept (← ask (.sendTask ⟨task, .list args, .dict kwargs⟩))

end service
end PeriodicTaskService

/-! ## The admin view -/

namespace PeriodicTaskAdminView

/-- The data of a form; a value of a wrong type counts as missing where it is required. -/
structure FormData where
  name : Option String
  task : Option String
  scheduleType : Option ScheduleType
  cronMinute : Option String
  cronHour : Option String
  cronDayOfWeek : Option String
  cronDayOfMonth : Option String
  cronMonthOfYear : Option String
  intervalEvery : Option ℤ
  intervalPeriod : Option IntervalPeriod
  args : Option PyValue
  kwargs : Option PyValue
  enabled : Option Bool

def listField : Option PyValue → Option (Option (List PyValue))
  | none => some none
  | some .null => some none
  | some (.list items) => some (some items)
  | some _ => none

def dictField : Option PyValue → Option (Option (List (String × PyValue)))
  | none => some none
  | some .null => some none
  | some (.dict items) => some (some items)
  | some _ => none

/-- `data.get(key) or default`, where only the empty values are replaced. -/
def nonempty (value : Option PyValue) : Option PyValue := value.filter truthy

section view
variable (validCrontab : CronFields → Bool) (parseUuid : String → Option ℕ)

def formCreate (data : FormData) : Option PeriodicTaskCreate := do
  let name ← data.name
  let task ← data.task
  let scheduleType ← data.scheduleType
  let args ← listField (nonempty data.args)
  let kwargs ← dictField (nonempty data.kwargs)
  let t : PeriodicTaskCreate := {
    name := name
    task := task
    scheduleType := scheduleType
    cronMinute := some (textOr data.cronMinute "*")
    cronHour := some (textOr data.cronHour "*")
    cronDayOfWeek := some (textOr data.cronDayOfWeek "*")
    cronDayOfMonth := some (textOr data.cronDayOfMonth "*")
    cronMonthOfYear := some (textOr data.cronMonthOfYear "*")
    intervalEvery := data.intervalEvery
    intervalPeriod := data.intervalPeriod
    args := args.getD []
    kwargs := kwargs.getD []
    enabled := data.enabled.getD true }
  if t.valid validCrontab then some t else none

def formUpdate (data : FormData) : Option PeriodicTaskUpdate := do
  let args ← listField data.args
  let kwargs ← dictField data.kwargs
  let t : PeriodicTaskUpdate := {
    name := data.name
    task := data.task
    scheduleType := data.scheduleType
    cronMinute := data.cronMinute
    cronHour := data.cronHour
    cronDayOfWeek := data.cronDayOfWeek
    cronDayOfMonth := data.cronDayOfMonth
    cronMonthOfYear := data.cronMonthOfYear
    intervalEvery := data.intervalEvery
    intervalPeriod := data.intervalPeriod
    args := args
    kwargs := kwargs
    enabled := data.enabled }
  if t.valid validCrontab then some t else none

def create (data : FormData) : ScheduleProgram PeriodicTaskRow := do
  let t ← orRaise .validation (formCreate validCrontab data)
  Program.ofExcept (← ask (.insertTask t))

def uuidOf (pk : String) : ScheduleProgram ℕ :=
  orRaise (.valueError "badly formed hexadecimal UUID string") (parseUuid pk)

def edit (pk : String) (data : FormData) : ScheduleProgram PeriodicTaskRow := do
  let id ← uuidOf parseUuid pk
  let t ← orRaise .validation (formUpdate validCrontab data)
  let row ← Program.ofExcept (← ask (.updateTask id t))
  orRaise (.valueError ("Periodic task with ID " ++ pk ++ " not found")) row

def delete (pks : List String) : ScheduleProgram ℕ :=
  if pks.isEmpty then pure 0
  else do
    let ids ← orRaise (.valueError "badly formed hexadecimal UUID string") (pks.mapM parseUuid)
    let deleted ← Program.ofExcept (← ask (.deleteTasks ids))
    pure deleted.length

def findTask (id : ℕ) : ScheduleProgram PeriodicTaskRow := do
  let row ← Program.ofExcept (← ask (.selectById id))
  orRaise (.valueError "Periodic task not found") row

/-- The arguments are sent as the pool decodes them. -/
def triggerNowAction (pk : String) : ScheduleProgram Unit := do
  let id ← uuidOf parseUuid pk
  let row ← findTask id
  let args ← orRaise .jsonDecode (jsonColumn row.args .null)
  let kwargs ← orRaise .jsonDecode (jsonColumn row.kwargs .null)
  Program.ofExcept (← ask (.sendTask ⟨row.task, args, kwargs⟩))

def setEnabled (id : ℕ) (enabled : Bool) : ScheduleProgram Unit := do
  let _ ← Program.ofExcept (← ask (.updateTask id (.ofEnabled enabled)))
  pure ()

def toggleEnabledAction (pk : String) : ScheduleProgram Unit := do
  let id ← uuidOf parseUuid pk
  let row ← findTask id
  setEnabled id (!row.enabled.getD false)

/-- The loop of the two batch actions. -/
def setEnabledSelected (enabled : Bool) : List String → ScheduleProgram ℕ
  | [] => pure 0
  | pk :: pks => do
    let id ← uuidOf parseUuid pk
    setEnabled id enabled
    let count ← setEnabledSelected enabled pks
    pure (count + 1)

def enableSelectedAction (pks : List String) : ScheduleProgram ℕ :=
  setEnabledSelected parseUuid true pks

def disableSelectedAction (pks : List String) : ScheduleProgram ℕ :=
  setEnabledSelected parseUuid false pks

end view
end PeriodicTaskAdminView

end FastapiTemplate.Periodic
