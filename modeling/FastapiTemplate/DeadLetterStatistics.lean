import FastapiTemplate.DeadLetterTasks
import FastapiTemplate.Dictionaries
import FastapiTemplate.TopGroups

/-!
# The statistics of dead letter tasks

`get_statistics` makes three queries one after the other, so that each may find another table. The
server forms the groups, and keeps twenty of them; dictionaries are made of what it returns.
-/

namespace FastapiTemplate.DeadLetter

open TopGroups

structure DLQStatsResponse where
  totalCount : ℕ
  byTaskName : List (String × ℕ)
  byExceptionType : List (String × ℕ)
  deriving DecidableEq, Repr

namespace DeadLetterTable

def taskNames (table : DeadLetterTable) : List String := table.rows.map (·.taskName)

/-- The column may be null, but the failure hook always fills it. -/
def exceptionTypes (table : DeadLetterTable) : List (Option String) :=
  table.rows.map (fun row => some row.exceptionType)

end DeadLetterTable

structure StatisticsRecords where
  counts : Option ℕ
  taskRows : List (String × ℕ)
  excRows : List (String × ℕ)

/-- The records when the tables are these at the three queries. Groups are formed by the column, and
a group without a type is shown as `Unknown`. -/
structure StatisticsRecords.ReadFrom (records : StatisticsRecords)
    (table₁ table₂ table₃ : DeadLetterTable) : Prop where
  counts : records.counts = some table₁.rows.length
  taskRows : IsTop 20 table₂.taskNames records.taskRows
  excRows : ∃ groups, IsTop 20 table₃.exceptionTypes groups ∧
    records.excRows = groups.map (fun group => (group.1.getD "Unknown", group.2))

/-- The records where groups of equal number stay in the order in which they are formed. -/
def queryRecords (table₁ table₂ table₃ : DeadLetterTable) : StatisticsRecords where
  counts := some table₁.rows.length
  taskRows := top 20 table₂.taskNames
  excRows := (top 20 table₃.exceptionTypes).map (fun group => (group.1.getD "Unknown", group.2))

theorem readFrom_queryRecords (table₁ table₂ table₃ : DeadLetterTable) :
    (queryRecords table₁ table₂ table₃).ReadFrom table₁ table₂ table₃ :=
  ⟨rfl, isTop_top _ 20, _, isTop_top _ 20, rfl⟩

def getStatistics (records : StatisticsRecords) : DLQStatsResponse where
  totalCount := records.counts.getD 0
  byTaskName := dictOf records.taskRows
  byExceptionType := dictOf records.excRows

/-! ## What the statistics say -/

/-- The dictionary holds the numbers of at most twenty names, and no name that is left out is more
frequent than one that is there. -/
structure Summarises (names : List String) (shown : List (String × ℕ)) : Prop where
  nodup : (shown.map (·.1)).Nodup
  exact : ∀ name n, (name, n) ∈ shown → n = names.count name ∧ 0 < n
  sorted : shown.Pairwise (fun a b => b.2 ≤ a.2)
  length_eq : shown.length = min 20 names.dedup.length
  largest : ∀ name ∈ names, name ∉ shown.map (·.1) → ∀ x ∈ shown, names.count name ≤ x.2
  sum_le : (shown.map (·.2)).sum ≤ names.length
  sum_eq_iff : (shown.map (·.2)).sum = names.length ↔ names.dedup.length ≤ 20

theorem summarises_of_isTop {names : List String} {rows : List (String × ℕ)}
    (h : IsTop 20 names rows) : Summarises names (dictOf rows) := by
  rw [dictOf_of_nodup h.nodup]
  exact ⟨h.nodup, fun name n hmem => h.count_eq hmem, h.sorted, h.length_eq,
    fun name hname hout x hx => h.count_le_of_not_mem hname hout hx, h.sum_le, h.sum_eq_iff⟩

/-- Whatever the three queries find, and however the server orders groups of equal number. -/
theorem statistics_summarise {table₁ table₂ table₃ : DeadLetterTable} {records : StatisticsRecords}
    (h : records.ReadFrom table₁ table₂ table₃) :
    (getStatistics records).totalCount = table₁.rows.length ∧
      Summarises table₂.taskNames (getStatistics records).byTaskName ∧
      Summarises (table₃.rows.map (·.exceptionType)) (getStatistics records).byExceptionType := by
  refine ⟨?_, summarises_of_isTop h.taskRows, ?_⟩
  · rw [getStatistics, h.counts, Option.getD_some]
  · obtain ⟨groups, htop, hrows⟩ := h.excRows
    have htypes : table₃.exceptionTypes = (table₃.rows.map (·.exceptionType)).map some := by
      rw [List.map_map]
      rfl
    rw [htypes] at htop
    have hnamed := IsTop.of_map (fun type => type.getD "Unknown") (fun _ => rfl) htop
    rw [← hrows] at hnamed
    exact summarises_of_isTop hnamed

/-- Three tasks have failed several times, and those of twenty-one tenants once. -/
def failures : List (String × String) :=
  List.replicate 3 ("reports.build", "TimeoutError") ++
    List.replicate 2 ("mails.send", "ConnectionError") ++
    List.replicate 2 ("images.resize", "TimeoutError") ++
    "abcdefghijklmnopqrstu".toList.map (fun c => (c.toString ++ ".sync", "ValueError"))

def failedTask (failure : String × String) (id : ℕ) : DeadLetterRow :=
  ⟨id, "", failure.1, "default", .ofStr "[]", .ofStr "{}", .ofStr "{}", failure.2, "", "", 0, id, id,
    id⟩

def failedTasks : DeadLetterTable :=
  ⟨failures.zipWith failedTask (List.range 28), by decide⟩

/-- Of the tasks that have failed once, the server puts the later tenants first. -/
def failedGroups : List (String × ℕ) :=
  [("reports.build", 3), ("images.resize", 2), ("mails.send", 2)] ++
    "utsrqponmlkjihgfedcba".toList.map (fun c => (c.toString ++ ".sync", 1))

def failedTypes : List (Option String × ℕ) :=
  [(some "ValueError", 21), (some "TimeoutError", 5), (some "ConnectionError", 2)]

def failedRecords : StatisticsRecords where
  counts := some 26
  taskRows := failedGroups.take 20
  excRows := failedTypes.map (fun group => (group.1.getD "Unknown", group.2))

/-- Between the first query and the others the last two tasks have failed. -/
theorem failedRecords_readFrom :
    failedRecords.ReadFrom (failedTasks.filter (·.id < 26)) failedTasks failedTasks where
  counts := by decide
  taskRows := ⟨failedGroups, by decide +kernel, by decide, rfl⟩
  excRows := ⟨failedTypes, ⟨failedTypes, by decide +kernel, by decide, rfl⟩, rfl⟩

/-- Twenty of the twenty-four names are listed, and all three types. -/
theorem statistics_summarise_failedRecords :
    let response := getStatistics failedRecords
    (response.totalCount = 26 ∧ Summarises failedTasks.taskNames response.byTaskName ∧
      Summarises (failedTasks.rows.map (·.exceptionType)) response.byExceptionType) ∧
      response.byTaskName.map (·.2) = [3, 2, 2] ++ List.replicate 17 1 ∧
      "a.sync" ∈ failedTasks.taskNames ∧ "a.sync" ∉ response.byTaskName.map (·.1) ∧
      response.byExceptionType.map (·.2) = [21, 5, 2] :=
  ⟨statistics_summarise failedRecords_readFrom, by decide +kernel, by decide, by decide +kernel,
    by decide +kernel⟩

end FastapiTemplate.DeadLetter
