import FastapiTemplate.CsvFormat
import FastapiTemplate.CursorPagination
import FastapiTemplate.IndentedJson

/-!
# The export of dead letter tasks

`export_tasks` writes at most 5000 matching tasks into a CSV file or a JSON file, in descending
order of their ids, which are random. Either file is read back as the rows and fields that were
written.
-/

namespace FastapiTemplate.DeadLetterExport

open DeadLetter Pagination

inductive ExportFormat
  | csv
  | json
  deriving DecidableEq, Repr

structure StreamingResponse where
  content : ByteArray
  mediaType : String
  contentDisposition : String

/-- `isoformat` and what pydantic writes of a time. -/
structure TimeTexts where
  isoformat : ℕ → String
  jsonText : ℕ → String

variable (times : TimeTexts)

/-! ## The rows -/

def header : List String :=
  ["ID", "Celery Task ID", "Task Name", "Queue", "Exception Type", "Exception Message",
    "Retry Count", "Failed At"]

def csvFields (t : DeadLetterRow) : List String :=
  [uuidText t.id, t.taskId, t.taskName, t.queue, t.exceptionType, t.exceptionMessage,
    toString t.retryCount, times.isoformat t.failedAt]

/-- `model_dump(mode="json")` of a response that was constructed without validation: the columns of
type `jsonb` are as they have been read. -/
def modelDump (t : DeadLetterRow) : Option PyValue := do
  let args ← t.args.decode
  let kwargs ← t.kwargs.decode
  let headers ← t.headers.decode
  pure (.dict [("task_name", .str t.taskName), ("queue", .str t.queue), ("args", args),
    ("task_kwargs", kwargs), ("headers", headers), ("id", .str (uuidText t.id)),
    ("task_id", .str t.taskId), ("exception_type", .str t.exceptionType),
    ("exception_message", .str t.exceptionMessage), ("traceback", .str t.traceback),
    ("retry_count", .int t.retryCount), ("failed_at", .str (times.jsonText t.failedAt)),
    ("created_at", .str (times.jsonText t.createdAt)),
    ("updated_at", .str (times.jsonText t.updatedAt))])

/-! ## The export -/

def csvText (rows : List (List String)) : String :=
  String.ofList (Csv.rowsText (rows.map (·.map String.toList)))

def csvFile (tasks : List DeadLetterRow) : StreamingResponse :=
  ⟨(csvText (header :: tasks.map (csvFields times))).toUTF8, "text/csv",
    "attachment; filename=dlq_export.csv"⟩

def jsonFile (jsonContent : String) : StreamingResponse :=
  ⟨jsonContent.toUTF8, "application/json", "attachment; filename=dlq_export.json"⟩

variable (ilike : String → String → Bool) (parse : String → Option ℕ)

/-- `none`: an exception that is not one of the database. -/
def exportTasks (table : DeadLetterTable) (filters : DLQTaskFilter) (exportFormat : ExportFormat) :
    Except Sql.DbError (Option StreamingResponse) := do
  let tasks ← DeadLetterTaskDAO.listTasks ilike parse table filters (some 5000) none 0
  match exportFormat with
  | .csv => pure (some (csvFile times tasks))
  | .json =>
    pure (do
      let dumped ← tasks.mapM (modelDump times)
      let jsonContent ← PyValue.dumpsIndented 2 (.list dumped)
      pure (jsonFile jsonContent))

/-! ## Reading the files -/

def readCsv (file : StreamingResponse) : Option (List (List String)) :=
  (String.fromUTF8? file.content).map fun text => (Csv.rowsOf text.toList).map (·.map String.ofList)

def readJson (file : StreamingResponse) : Option PyValue :=
  (String.fromUTF8? file.content).bind PyValue.loads

theorem fromUTF8?_toUTF8 (s : String) : String.fromUTF8? s.toUTF8 = some s :=
  dif_pos s.isValidUTF8

theorem rowsOf_csvText (rows : List (List String)) :
    (Csv.rowsOf (csvText rows).toList).map (·.map String.ofList) = rows := by
  have hback (row : List String) : (row.map String.toList).map String.ofList = row := by
    rw [List.map_map]
    exact List.map_id'' (fun _ => String.ofList_toList) row
  rw [csvText, String.toList_ofList, Csv.rowsOf_rowsText, List.map_map]
  exact List.map_id'' hback rows

/-- What pydantic has dumped of a row is a JSON value. -/
theorem isJson_modelDump {t : DeadLetterRow} {v : PyValue} (h : modelDump times t = some v) :
    v.IsJson := by
  simp only [modelDump, Jsonb.decode_eq, Option.bind_eq_bind, Option.bind_some] at h
  cases h
  have hkeys : ["task_name", "queue", "args", "task_kwargs", "headers", "id", "task_id",
      "exception_type", "exception_message", "traceback", "retry_count", "failed_at", "created_at",
      "updated_at"].Nodup := by decide
  refine Jsonb.isJson_dict_iff.mpr ⟨hkeys, ?_⟩
  intro kv hkv
  simp only [List.mem_cons, List.not_mem_nil, or_false] at hkv
  rcases hkv with rfl | rfl | rfl | rfl | rfl | rfl | rfl | rfl | rfl | rfl | rfl | rfl | rfl | rfl
  case inr.inr.inl => exact t.args.isJson
  case inr.inr.inr.inl => exact t.kwargs.isJson
  case inr.inr.inr.inr.inl => exact t.headers.isJson
  all_goals exact ⟨rfl, rfl⟩

/-! ## What the files hold -/

/-- The rows that meet the condition with the highest ids, in descending order: all of them, or as
many as the limit allows. -/
def HighestIds (table : DeadLetterTable) (condition : DeadLetterRow → Bool) (limit : ℕ)
    (tasks : List DeadLetterRow) : Prop :=
  ∃ matching, matching.Perm (table.rows.filter condition) ∧
    Keyset.Descending DeadLetterRow.id matching ∧ tasks = matching.take limit

variable (table : DeadLetterTable) (filters : DLQTaskFilter)

theorem listTasks_highestIds : ∃ tasks, HighestIds table (filters.condition ilike) 5000 tasks ∧
    DeadLetterTaskDAO.listTasks ilike parse table filters (some 5000) none 0 = .ok tasks := by
  have hids : ((table.rows.filter (filters.condition ilike)).map (·.id)).Nodup :=
    table.idsApart.sublist (List.filter_sublist.map _)
  refine ⟨_, ⟨_, Keyset.sortDescending_perm _, Keyset.sortDescending_descending hids, rfl⟩, ?_⟩
  unfold DeadLetterTaskDAO.listTasks
  simp [castCursor]

/-- The CSV file holds the header and a row for each of the tasks that meet the filters, or for those
with the highest ids. -/
theorem export_csv_reads_back : ∃ tasks file, HighestIds table (filters.condition ilike) 5000 tasks ∧
    exportTasks times ilike parse table filters .csv = .ok (some file) ∧
    readCsv file = some (header :: tasks.map (csvFields times)) := by
  obtain ⟨tasks, hhighest, hlist⟩ := listTasks_highestIds ilike parse table filters
  refine ⟨tasks, csvFile times tasks, hhighest, ?_, ?_⟩
  · rw [exportTasks, hlist]
    rfl
  · rw [readCsv, csvFile, fromUTF8?_toUTF8, Option.map_some, rowsOf_csvText]

theorem exists_modelDump (t : DeadLetterRow) : ∃ v, modelDump times t = some v := by
  simp only [modelDump, Jsonb.decode_eq, Option.bind_eq_bind, Option.bind_some]
  exact ⟨_, rfl⟩

theorem exists_dumped (tasks : List DeadLetterRow) : ∃ dumped,
    tasks.mapM (modelDump times) = some dumped ∧ tasks.map (modelDump times) = dumped.map some ∧
      (PyValue.list dumped).IsJson := by
  induction tasks with
  | nil => exact ⟨[], rfl, rfl, rfl, rfl⟩
  | cons t tasks ih =>
    obtain ⟨v, hv⟩ := exists_modelDump times t
    obtain ⟨dumped, hmapM, hmap, hjsonable, hkeys⟩ := ih
    obtain ⟨hv₁, hv₂⟩ := isJson_modelDump times hv
    refine ⟨v :: dumped, ?_, ?_, ?_, ?_⟩
    · rw [List.mapM_cons, hv, hmapM]
      rfl
    · rw [List.map_cons, List.map_cons, hv, hmap]
    · simp only [PyValue.jsonable, PyValue.jsonableElements, Bool.and_eq_true] at hjsonable ⊢
      exact ⟨hv₁, hjsonable⟩
    · simp only [PyValue.keysApart, PyValue.keysApartElements, Bool.and_eq_true] at hkeys ⊢
      exact ⟨hv₂, hkeys⟩

/-- The JSON file holds what the model dumps of each of these tasks. -/
theorem export_json_reads_back : ∃ tasks file dumped,
    HighestIds table (filters.condition ilike) 5000 tasks ∧
    exportTasks times ilike parse table filters .json = .ok (some file) ∧
    tasks.map (modelDump times) = dumped.map some ∧ readJson file = some (.list dumped) := by
  obtain ⟨tasks, hhighest, hlist⟩ := listTasks_highestIds ilike parse table filters
  obtain ⟨dumped, hmapM, hmap, hjson⟩ := exists_dumped times tasks
  obtain ⟨text, hdumps, hloads⟩ := @PyValue.loads_of_dumpsIndented 2 _ hjson
  refine ⟨tasks, jsonFile text, dumped, hhighest, ?_, hmap, ?_⟩
  · rw [exportTasks, hlist]
    change Except.ok (do
      let dumped ← tasks.mapM (modelDump times)
      let jsonContent ← PyValue.dumpsIndented 2 (.list dumped)
      pure (jsonFile jsonContent)) = _
    rw [hmapM, Option.bind_eq_bind, Option.bind_some, hdumps]
    rfl
  · rw [readJson, jsonFile, fromUTF8?_toUTF8, Option.bind_some, hloads]

end FastapiTemplate.DeadLetterExport
