import FastapiTemplate.CallProgram
import FastapiTemplate.JsonColumns
import Mathlib.Algebra.Group.Nat.Defs

/-!
# Dead letter tasks

The table `dead_letter_tasks`, the failure hook of Celery that fills it, the statements of
`DeadLetterTaskDAO`, and what `DLQTaskResponse` gives for a row. Ids come from the server and
are numbers here, as are times.
-/

namespace FastapiTemplate.DeadLetter

open PyValue

structure DeadLetterRow where
  id : ℕ
  taskId : String
  taskName : String
  queue : String
  args : Jsonb
  kwargs : Jsonb
  headers : Jsonb
  exceptionType : String
  exceptionMessage : String
  traceback : String
  retryCount : ℕ
  failedAt : ℕ
  createdAt : ℕ
  updatedAt : ℕ

structure DeadLetterTable where
  rows : List DeadLetterRow
  idsApart : (rows.map (·.id)).Nodup

namespace DeadLetterTable

def empty : DeadLetterTable := ⟨[], List.nodup_nil⟩

def insert (table : DeadLetterTable) (row : DeadLetterRow) : DeadLetterTable :=
  if h : row.id ∈ table.rows.map (·.id) then table
  else ⟨table.rows ++ [row], by
    rw [List.map_append]
    exact List.Nodup.append table.idsApart (List.nodup_singleton _) (by simpa using h)⟩

def filter (table : DeadLetterTable) (keep : DeadLetterRow → Bool) : DeadLetterTable :=
  ⟨table.rows.filter keep, table.idsApart.sublist (List.filter_sublist.map _)⟩

def map (table : DeadLetterTable) (f : DeadLetterRow → DeadLetterRow) (hid : ∀ r, (f r).id = r.id) :
    DeadLetterTable :=
  ⟨table.rows.map f, by
    have hids : (table.rows.map f).map (·.id) = table.rows.map (·.id) := by
      rw [List.map_map]
      exact List.map_congr_left (fun r _ => hid r)
    rw [hids]
    exact table.idsApart⟩

end DeadLetterTable

/-! ## The failure hook -/

def excludedTasks : List String :=
  ["celery.ping", "celery.backend_cleanup", "celery.chain", "celery.group", "celery.chord",
    "dlq_tasks.clean_old_dlq_tasks"]

mutual

/-- Sets become lists, and values of other types their `str()`. -/
def jsonSerializeSafe : PyValue → PyValue
  | .list items => .list (jsonSerializeSafeElements items)
  | .set items => .list (jsonSerializeSafeElements items)
  | .dict items => .dict (jsonSerializeSafeItems items)
  | .other text => .str text
  | v => v

def jsonSerializeSafeElements : List PyValue → List PyValue
  | [] => []
  | v :: vs => jsonSerializeSafe v :: jsonSerializeSafeElements vs

def jsonSerializeSafeItems : List (String × PyValue) → List (String × PyValue)
  | [] => []
  | (k, v) :: items => (k, jsonSerializeSafe v) :: jsonSerializeSafeItems items

end

structure TaskException where
  typeName : String
  message : String
  formatted : String

structure Sender where
  name : String
  queue : Option String
  headers : Option (List (String × PyValue))
  retries : ℕ

structure TaskFailure where
  sender : Option Sender
  taskId : Option String
  exception : Option TaskException
  args : Option (List PyValue)
  kwargs : Option (List (String × PyValue))
  traceback : Option String
  einfo : Option String

structure FailurePayload where
  taskId : String
  taskName : String
  queue : String
  args : List PyValue
  kwargs : List (String × PyValue)
  headers : List (String × PyValue)
  exceptionType : String
  exceptionMessage : String
  traceback : String
  retryCount : ℕ

def formatTaskTraceback (exception : Option TaskException) (traceback einfo : Option String) :
    String :=
  match einfo, traceback, exception with
  | some text, _, _ => text
  | none, some text, _ => text
  | none, none, some e => e.formatted
  | none, none, none => ""

def failurePayload (f : TaskFailure) : Option FailurePayload := do
  let sender ← f.sender
  let taskId ← f.taskId
  if taskId = "" ∨ sender.name ∈ excludedTasks then none
  else some {
    taskId := taskId
    taskName := sender.name
    queue := textOr sender.queue "default"
    args := f.args.getD []
    kwargs := f.kwargs.getD []
    headers := sender.headers.getD []
    exceptionType := (f.exception.map (·.typeName)).getD "UnknownException"
    exceptionMessage := (f.exception.map (·.message)).getD "Task failed without exception message"
    traceback := formatTaskTraceback f.exception f.traceback f.einfo
    retryCount := sender.retries }

def FailurePayload.fits (payload : FailurePayload) : Bool :=
  fitsVarchar 255 payload.taskId && fitsVarchar 255 payload.taskName && fitsVarchar 255 payload.queue &&
    fitsVarchar 255 payload.exceptionType && noNulIn payload.exceptionMessage &&
    noNulIn payload.traceback && payload.retryCount < 2 ^ 31

def rowOf (payload : FailurePayload) (id now : ℕ) : Option DeadLetterRow := do
  let args ← Jsonb.textParam (jsonSerializeSafe (.list payload.args))
  let kwargs ← Jsonb.textParam (jsonSerializeSafe (.dict payload.kwargs))
  let headers ← Jsonb.textParam (jsonSerializeSafe (.dict payload.headers))
  if payload.fits then
    some {
      id := id
      taskId := payload.taskId
      taskName := payload.taskName
      queue := payload.queue
      args := args
      kwargs := kwargs
      headers := headers
      exceptionType := payload.exceptionType
      exceptionMessage := payload.exceptionMessage
      traceback := payload.traceback
      retryCount := payload.retryCount
      failedAt := now
      createdAt := now
      updatedAt := now }
  else none

/-- An error is only logged. -/
def saveDeadLetterTask (payload : FailurePayload) (id now : ℕ) (table : DeadLetterTable) :
    DeadLetterTable :=
  match rowOf payload id now with
  | some row => table.insert row
  | none => table

def handleTaskFailure (dbInstance : Bool) (f : TaskFailure) (id now : ℕ) (table : DeadLetterTable) :
    DeadLetterTable :=
  match failurePayload f with
  | some payload => if dbInstance then saveDeadLetterTask payload id now table else table
  | none => table

/-! ## Reading a row -/

/-- A row as `model_construct` takes it over, without validation. -/
structure DLQTaskResponse where
  id : ℕ
  taskName : String
  queue : String
  rawArgs : PyValue
  rawTaskKwargs : PyValue

namespace DLQTaskResponse

def ofRow (row : DeadLetterRow) : Option DLQTaskResponse := do
  let args ← row.args.decode
  let kwargs ← row.kwargs.decode
  pure ⟨row.id, row.taskName, row.queue, args, kwargs⟩

/-- `__getattribute__`: a string is parsed on access. -/
def parsedOnAccess (default : PyValue) (v : PyValue) : PyValue :=
  match v with
  | .str s => (loads s).getD default
  | v => v

def args (t : DLQTaskResponse) : PyValue := parsedOnAccess (.list []) t.rawArgs

def kwargs (t : DLQTaskResponse) : PyValue := parsedOnAccess (.dict []) t.rawTaskKwargs

end DLQTaskResponse

/-! ## Statements -/

/-- The ids decide, else the name; without either, every row is selected. -/
def selects (taskIds : Option (List ℕ)) (taskName : Option String) (row : DeadLetterRow) : Bool :=
  if taskIds.getD [] ≠ [] then row.id ∈ taskIds.getD []
  else if taskName.getD "" ≠ "" then row.taskName = taskName.getD ""
  else true

def fetchAndDeleteTasks (taskIds : Option (List ℕ)) (taskName : Option String)
    (table : DeadLetterTable) : List DeadLetterRow × DeadLetterTable :=
  (table.rows.filter (selects taskIds taskName),
    table.filter (fun row => !selects taskIds taskName row))

structure DLQUpdatePayload where
  taskIds : Option (List ℕ)
  taskName : Option String
  args : Option (List PyValue)
  kwargs : Option (List (String × PyValue))
  queue : Option String
  mergeKwargs : Bool

def updatedRow (args kwargs : Option Jsonb) (merge : Bool) (queue : Option String) (now : ℕ)
    (row : DeadLetterRow) : DeadLetterRow :=
  { row with
    args := args.getD row.args
    kwargs := match kwargs with
      | some new => if merge then row.kwargs.concat new else new
      | none => row.kwargs
    queue := queue.getD row.queue
    updatedAt := now }

/-- The table after the update and the number of updated rows, unless a value is refused. -/
def updateTaskPayload (payload : DLQUpdatePayload) (taskId : Option ℕ) (now : ℕ)
    (table : DeadLetterTable) : Option (DeadLetterTable × ℕ) := do
  let args ← Jsonb.optionalParam (fun vs => Jsonb.textParam (.list vs)) payload.args
  let kwargs ← Jsonb.optionalParam (fun items => Jsonb.textParam (.dict items)) payload.kwargs
  let ids := match taskId with
    | some id => some [id]
    | none => payload.taskIds
  let selected := selects ids payload.taskName
  let merge := payload.mergeKwargs && taskId.isNone
  if payload.queue.all (fun q => noNulIn q && (q.length ≤ 255 || !table.rows.any selected)) then
    let after := table.map
      (fun row => if selected row then updatedRow args kwargs merge payload.queue now row else row)
      (fun row => by split <;> rfl)
    pure (after, table.rows.countP selected)
  else none

/-! ## Payloads are read back -/

mutual

theorem jsonSerializeSafe_eq : ∀ v : PyValue, v.jsonable = true → jsonSerializeSafe v = v
  | .null, _ => rfl
  | .bool _, _ => rfl
  | .int _, _ => rfl
  | .float _, _ => rfl
  | .str _, _ => rfl
  | .list items, hv => by
    rw [jsonSerializeSafe, jsonSerializeSafeElements_eq items hv]
  | .dict items, hv => by
    rw [jsonSerializeSafe, jsonSerializeSafeItems_eq items hv]
  | .set _, hv => by cases hv
  | .other _, hv => by cases hv

theorem jsonSerializeSafeElements_eq :
    ∀ vs : List PyValue, jsonableElements vs = true → jsonSerializeSafeElements vs = vs
  | [], _ => rfl
  | v :: vs, hv => by
    rw [jsonableElements, Bool.and_eq_true] at hv
    rw [jsonSerializeSafeElements, jsonSerializeSafe_eq v hv.1, jsonSerializeSafeElements_eq vs hv.2]

theorem jsonSerializeSafeItems_eq : ∀ items : List (String × PyValue),
    jsonableItems items = true → jsonSerializeSafeItems items = items
  | [], _ => rfl
  | (k, v) :: items, hv => by
    rw [jsonableItems, Bool.and_eq_true] at hv
    rw [jsonSerializeSafeItems, jsonSerializeSafe_eq v hv.1, jsonSerializeSafeItems_eq items hv.2]

end

theorem parsedOnAccess_textParam {v : PyValue} {j : Jsonb} (hv : v.IsJson)
    (h : Jsonb.textParam v = some j) (default : PyValue) :
    DLQTaskResponse.parsedOnAccess default j.value = v := by
  obtain ⟨text, hparam, hloads⟩ := Jsonb.textParam_eq hv
  rw [hparam] at h
  cases h
  change (loads text).getD default = v
  rw [hloads]
  rfl

/-- The response for a row, whose columns can always be decoded. -/
def responseOf (row : DeadLetterRow) : DLQTaskResponse :=
  ⟨row.id, row.taskName, row.queue, row.args.value, row.kwargs.value⟩

theorem ofRow_eq (row : DeadLetterRow) : DLQTaskResponse.ofRow row = some (responseOf row) := by
  simp only [DLQTaskResponse.ofRow, Jsonb.decode_eq, Option.bind_eq_bind, Option.bind_some]
  rfl

theorem rowOf_response {payload : FailurePayload} {id now : ℕ} {row : DeadLetterRow}
    (h : rowOf payload id now = some row) (hargs : (PyValue.list payload.args).IsJson)
    (hkwargs : (PyValue.dict payload.kwargs).IsJson) :
    row.taskName = payload.taskName ∧ (responseOf row).args = .list payload.args ∧
      (responseOf row).kwargs = .dict payload.kwargs := by
  unfold rowOf at h
  rw [jsonSerializeSafe_eq _ hargs.1, jsonSerializeSafe_eq _ hkwargs.1] at h
  obtain ⟨args, ha, h⟩ := Option.bind_eq_some_iff.mp h
  obtain ⟨kwargs, hk, h⟩ := Option.bind_eq_some_iff.mp h
  obtain ⟨headers, _, h⟩ := Option.bind_eq_some_iff.mp h
  split_ifs at h
  cases h
  exact ⟨rfl, parsedOnAccess_textParam hargs ha _, parsedOnAccess_textParam hkwargs hk _⟩

/-- A payload of JSON values that fits the columns is saved. -/
theorem exists_rowOf {payload : FailurePayload} (hargs : (PyValue.list payload.args).IsJson)
    (hkwargs : (PyValue.dict payload.kwargs).IsJson)
    (hheaders : (PyValue.dict payload.headers).IsJson) (hfits : payload.fits = true) (id now : ℕ) :
    ∃ row, rowOf payload id now = some row ∧ row.id = id := by
  obtain ⟨args, ha, -⟩ := Jsonb.textParam_eq hargs
  obtain ⟨kwargs, hk, -⟩ := Jsonb.textParam_eq hkwargs
  obtain ⟨headers, hh, -⟩ := Jsonb.textParam_eq hheaders
  unfold rowOf
  rw [jsonSerializeSafe_eq _ hargs.1, jsonSerializeSafe_eq _ hkwargs.1,
    jsonSerializeSafe_eq _ hheaders.1, ha, hk, hh]
  simp only [Option.bind_eq_bind, Option.bind_some, if_pos hfits]
  exact ⟨_, rfl, rfl⟩

theorem mem_insert {table : DeadLetterTable} {row new : DeadLetterRow}
    (h : row ∈ (table.insert new).rows) : row ∈ table.rows ∨ row = new := by
  unfold DeadLetterTable.insert at h
  split at h
  · exact .inl h
  · simpa using h

/-- A row that the hook adds is the record of the failure. -/
theorem mem_handleTaskFailure {dbInstance : Bool} {f : TaskFailure} {id now : ℕ}
    {table : DeadLetterTable} {row : DeadLetterRow}
    (h : row ∈ (handleTaskFailure dbInstance f id now table).rows) (hnew : row ∉ table.rows) :
    ∃ payload, failurePayload f = some payload ∧ rowOf payload id now = some row := by
  unfold handleTaskFailure at h
  split at h
  · next payload hpayload =>
    split_ifs at h
    · unfold saveDeadLetterTask at h
      split at h
      · next new hrow =>
        rcases mem_insert h with h | rfl
        · exact absurd h hnew
        · exact ⟨payload, hpayload, hrow⟩
      · exact absurd h hnew
    · exact absurd h hnew
  · exact absurd h hnew

theorem failurePayload_spec {f : TaskFailure} {payload : FailurePayload}
    (h : failurePayload f = some payload) : ∃ sender, f.sender = some sender ∧
      payload.taskName = sender.name ∧ payload.args = f.args.getD [] ∧
      payload.kwargs = f.kwargs.getD [] := by
  unfold failurePayload at h
  obtain ⟨sender, hsender, h⟩ := Option.bind_eq_some_iff.mp h
  obtain ⟨taskId, _, h⟩ := Option.bind_eq_some_iff.mp h
  split_ifs at h
  cases h
  exact ⟨sender, hsender, rfl, rfl, rfl⟩

end FastapiTemplate.DeadLetter
