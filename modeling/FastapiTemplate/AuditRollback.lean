import FastapiTemplate.AuditSchema

/-!
# Audited writes after rollbacks

`009_user_impersonation.sql` replaces the function of `006_audit_logs.sql` and adds the column that
the new body writes. Its way back drops the column and leaves the function, so that afterwards no
audited table can be written, until 009 is applied again or 006 is rolled back as well.
-/

namespace FastapiTemplate.Migrations

open Sql (Arg Change Row Table nullIf)

/-! ## When audited writes succeed -/

/-- A row with the columns of its table and a value in those that must have one. -/
structure RowOf (columns : List Column) (row : Row) : Prop where
  names : row.map Prod.fst = columns.map (·.name)
  notNull : ∀ column ∈ columns, column.notNull = true → row.column column.name ≠ some .null

structure Admissible (s : Schema) (c : Change) : Prop where
  table : (s.columns? c.table.name).isSome
  op : c.op ≠ .select
  old : c.old.isSome ↔ c.op ≠ .insert
  new : c.new.isSome ↔ c.op ≠ .delete
  rows : ∀ columns ∈ s.columns? c.table.name,
    (∀ row ∈ c.old, RowOf columns row) ∧ ∀ row ∈ c.new, RowOf columns row

/-- The settings are empty or UUIDs. -/
def Castable (settings : Sql.Settings) : Prop :=
  (castUuid settings.actorId).isOk ∧ (castUuid settings.impersonatorId).isOk

def AuditedWritesSucceed (s : Schema) : Prop :=
  ∀ settings, Castable settings → ∀ c, Admissible s c → s.fire settings c = .ok ()

def RefersToColumns (s : Schema) : Prop :=
  ∀ f ∈ s.logAuditTrail, ∃ columns ∈ s.columns? "audit_logs",
    ∀ name ∈ f.columns, name ∈ columns.map (·.name)

def keyColumn (table : String) : String := if table = "app_versions" then "platform" else "id"

/-- The columns that the function never leaves empty. -/
def neverNull : List String := ["actor_id", "action", "resource", "resource_id", "details"]

def Consistent (s : Schema) : Prop :=
  RefersToColumns s ∧ (s.logAuditTrail = none → s.triggers = []) ∧
    (∀ f ∈ s.logAuditTrail, ∀ columns ∈ s.columns? "audit_logs", ∀ column ∈ columns,
      column.notNull = true →
        if column.name ∈ f.columns then column.name ∈ neverNull else column.hasDefault = true) ∧
    ∀ table ∈ s.triggers, ∀ columns ∈ s.columns? table, keyColumn table ∈ columns.map (·.name)

instance (s : Schema) : Decidable (RefersToColumns s) := inferInstanceAs (Decidable (∀ _ ∈ _, _))

instance (s : Schema) : Decidable (Consistent s) := inferInstanceAs (Decidable (_ ∧ _))

section fire
variable {s : Schema} {settings : Sql.Settings} {c : Change}

theorem column_isSome {row : Row} {name : String} (h : name ∈ row.map Prod.fst) :
    ∃ value, row.column name = some value := by
  obtain ⟨entry, hentry, rfl⟩ := List.mem_map.mp h
  unfold Row.column
  cases hfind : row.find? (·.1 = entry.1) with
  | none =>
    have hnone := List.find?_eq_none.mp hfind entry hentry
    exact absurd (decide_eq_true rfl) hnone
  | some found => exact ⟨found.2, rfl⟩

theorem resourceField_ok (h : Admissible s c)
    (hkey : ∀ columns ∈ s.columns? c.table.name, keyColumn c.table.name ∈ columns.map (·.name)) :
    ∃ value, resourceField c = .ok value := by
  obtain ⟨columns, hcolumns⟩ := Option.isSome_iff_exists.mp h.table
  obtain ⟨hold, hnew⟩ := h.rows columns hcolumns
  have hname : (if c.table = .appVersions then "platform" else "id") = keyColumn c.table.name := by
    cases c.table <;> rfl
  -- the row that the function looks at is there
  obtain ⟨row, hrow, hrowOf⟩ : ∃ row, (if c.op = .delete then c.old else c.new) = some row ∧
      RowOf columns row := by
    by_cases hdelete : c.op = .delete
    · have hsome : c.old.isSome := h.old.mpr (by rw [hdelete]; decide)
      obtain ⟨row, hrow⟩ := Option.isSome_iff_exists.mp hsome
      exact ⟨row, by rw [if_pos hdelete, hrow], hold row hrow⟩
    · obtain ⟨row, hrow⟩ := Option.isSome_iff_exists.mp (h.new.mpr hdelete)
      exact ⟨row, by rw [if_neg hdelete, hrow], hnew row hrow⟩
  obtain ⟨value, hvalue⟩ := column_isSome (hrowOf.names ▸ hkey columns hcolumns)
  refine ⟨value, ?_⟩
  unfold resourceField
  simp only [hrow, hname, Option.bind_some, hvalue]

theorem lookup_map {β : Type} (g : String → β) (names : List String) (name : String) :
    (names.map (fun n => (n, g n))).lookup name = if name ∈ names then some (g name) else none := by
  induction names with
  | nil => rfl
  | cons head rest ih =>
    rw [List.map_cons, List.lookup_cons]
    by_cases h : name = head
    · subst h
      simp
    · rw [show (name == head) = false from by simpa using h, ih]
      simp [h]

theorem call_ok {f : TriggerFunction} (hsettings : Castable settings) {value : Arg}
    (hfield : resourceField c = .ok value) :
    f.call settings c = .ok (f.columns.map (fun column =>
      (column, auditValue (Sql.logAuditTrail settings c) column))) := by
  obtain ⟨hactor, himpersonator⟩ := hsettings
  unfold TriggerFunction.call
  rw [hfield]
  cases ha : castUuid settings.actorId with
  | error e =>
    rw [ha] at hactor
    cases hactor
  | ok actor =>
    cases hi : castUuid settings.impersonatorId with
    | error e =>
      rw [hi] at himpersonator
      cases himpersonator
    | ok impersonator =>
      by_cases himp : "impersonator_id" ∈ f.columns
      · simp only [if_pos himp]
        rfl
      · simp only [if_neg himp]
        rfl

theorem auditValue_ne_null {log : Sql.AuditLog} {name : String} (h : name ∈ neverNull) :
    auditValue log name ≠ .null := by
  simp only [neverNull, List.mem_cons, List.not_mem_nil, or_false] at h
  rcases h with rfl | rfl | rfl | rfl | rfl <;> rintro ⟨⟩

theorem insertInto_ok {columns : List Column} {names : List String} {g : String → AuditValue}
    (hknown : ∀ name ∈ names, name ∈ columns.map (·.name))
    (hfilled : ∀ column ∈ columns, column.notNull = true →
      if column.name ∈ names then g column.name ≠ .null else column.hasDefault = true) :
    insertInto columns (names.map (fun name => (name, g name))) = .ok () := by
  have hunknown : (names.map (fun name => (name, g name))).find?
      (fun value => value.1 ∉ columns.map (·.name)) = none := by
    rw [List.find?_eq_none]
    intro value hvalue
    obtain ⟨name, hname, rfl⟩ := List.mem_map.mp hvalue
    simpa using hknown name hname
  have hempty : columns.find? (leftEmpty (names.map (fun name => (name, g name)))) = none := by
    rw [List.find?_eq_none]
    intro column hcolumn
    unfold leftEmpty
    rw [lookup_map]
    cases hnotNull : column.notNull with
    | false => simp
    | true =>
      have hcase := hfilled column hcolumn hnotNull
      split_ifs at hcase ⊢ with hmem
      · cases hvalue : g column.name with
        | null => exact absurd hvalue hcase
        | text t => simp
        | details images => simp
      · simp [hcase]
  unfold insertInto
  rw [hunknown]
  dsimp only
  rw [hempty]

/-- Where everything fits together, the trigger refuses no change. -/
theorem Consistent.writesSucceed (h : Consistent s) : AuditedWritesSucceed s := by
  intro settings hsettings c hc
  obtain ⟨hrefers, hquiet, hfilled, hkeyed⟩ := h
  unfold Schema.fire
  split_ifs with htrigger
  · cases hf : s.logAuditTrail with
    | none =>
      rw [hquiet hf] at htrigger
      exact absurd htrigger List.not_mem_nil
    | some f =>
      obtain ⟨columns, hcolumns, hknown⟩ := hrefers f hf
      obtain ⟨value, hvalue⟩ := resourceField_ok hc (hkeyed _ htrigger)
      have hcolumns' : s.columns? "audit_logs" = some columns := hcolumns
      have hinsert : insertInto columns (f.columns.map (fun column =>
          (column, auditValue (Sql.logAuditTrail settings c) column))) = .ok () := by
        apply insertInto_ok hknown
        intro column hcolumn hnotNull
        have hcase := hfilled f hf columns hcolumns column hcolumn hnotNull
        split_ifs at hcase ⊢ with hmem
        · exact auditValue_ne_null hcase
        · exact hcase
      simp only [call_ok hsettings hvalue, hcolumns']
      exact hinsert
  · rfl

end fire

/-! ## The schema at each version -/

/-- The schema with the first `n` files applied, if 009 was rolled back since 006 was applied, or
not. -/
def atVersion (n : ℕ) (rolledBack : Bool) : Schema :=
  let schema := ((repositoryFiles.take n).foldlM (fun s file => runScript s file.up) .empty).getD .empty
  if rolledBack then { schema with logAuditTrail := some logAuditTrail009 } else schema

def Between (n : ℕ) : Prop := 6 ≤ n ∧ n ≤ 8

instance (n : ℕ) : Decidable (Between n) := inferInstanceAs (Decidable (_ ∧ _))

def RollsBack009 (entry : LogEntry) : Prop :=
  entry.direction = "down" ∧ entry.version = "009_user_impersonation.sql"

instance (entry : LogEntry) : Decidable (RollsBack009 entry) := inferInstanceAs (Decidable (_ ∧ _))

theorem atVersion_consistent : ∀ n < 12, Consistent (atVersion n false) := by decide +kernel

theorem run_up : ∀ n < 11, ∀ rolledBack, (rolledBack = true → Between n) →
    ∀ file ∈ repositoryFiles[n]?, runScript (atVersion n rolledBack) file.up =
      some (atVersion (n + 1) (rolledBack && n ≠ 8)) := by decide +kernel

theorem run_down : ∀ n < 11, ∀ rolledBack, (rolledBack = true → Between (n + 1)) →
    ∀ file ∈ repositoryFiles[n]?, runScript (atVersion (n + 1) rolledBack) file.down =
      some (atVersion n ((rolledBack && n ≠ 5) || n = 8)) := by decide +kernel

theorem find_version : ∀ n < 11, ∀ file ∈ repositoryFiles[n]?,
    repositoryFiles.find? (·.version = file.version) = some file := by decide +kernel

theorem version_009 : ∀ n < 11, ∀ file ∈ repositoryFiles[n]?,
    file.version = "009_user_impersonation.sql" ↔ n = 8 := by decide +kernel

theorem sorted_repository (content : String → String) :
    getSortedMigrationFiles (repository content) = repositoryFiles.map (·.version) := by
  unfold getSortedMigrationFiles repository
  rw [List.map_map]
  change ((repositoryFiles.map (·.version)).filter _).insertionSort KeyLe = _
  decide

section versions
variable {log : List LogEntry} {n : ℕ}

/-- The file of the entry that a walk reaches. -/
theorem file_of_version {v : String} (h : (repositoryFiles.map (·.version))[n]? = some v) :
    n < 11 ∧ ∃ file ∈ repositoryFiles[n]?, file.version = v ∧
      repositoryFiles.find? (·.version = v) = some file := by
  rw [List.getElem?_map, Option.map_eq_some_iff] at h
  obtain ⟨file, hfile, rfl⟩ := h
  have hn : n < 11 := (List.getElem?_eq_some_iff.mp hfile).1
  exact ⟨hn, file, hfile, rfl, find_version n hn file hfile⟩

/-- Along a walk the schema is that of its version, up to the body that a rollback of 009 leaves. -/
theorem schemaAfter_walk (h : Walk (repositoryFiles.map (·.version)) log n) :
    ∃ rolledBack, schemaAfter log = some (atVersion n rolledBack) ∧
      (rolledBack = true → Between n ∧ ∃ entry ∈ log, RollsBack009 entry) := by
  induction h with
  | nil => exact ⟨false, rfl, fun h => absurd h (by decide)⟩
  | @up log n entry h hup hfile ih =>
    obtain ⟨rolledBack, hschema, hrolled⟩ := ih
    obtain ⟨hn, file, hmem, hversion, hfind⟩ := file_of_version hfile
    refine ⟨rolledBack && n ≠ 8, ?_, fun hlater => ?_⟩
    · have hrun := run_up n hn rolledBack (fun h => (hrolled h).1) file hmem
      rw [schemaAfter, List.foldlM_append, ← schemaAfter, hschema]
      simpa [runEntry, hfind, MigrationFile.script, hup] using hrun
    · rw [Bool.and_eq_true, decide_eq_true_eq] at hlater
      obtain ⟨hbetween, entry', hentry', hback⟩ := hrolled hlater.1
      refine ⟨?_, entry', List.mem_append_left _ hentry', hback⟩
      unfold Between at *
      omega
  | @down log n entry h hdown hfile ih =>
    obtain ⟨rolledBack, hschema, hrolled⟩ := ih
    obtain ⟨hn, file, hmem, hversion, hfind⟩ := file_of_version hfile
    refine ⟨(rolledBack && n ≠ 5) || n = 8, ?_, fun hlater => ?_⟩
    · have hrun := run_down n hn rolledBack (fun h => (hrolled h).1) file hmem
      rw [schemaAfter, List.foldlM_append, ← schemaAfter, hschema]
      simpa [runEntry, hfind, MigrationFile.script, hdown] using hrun
    · rw [Bool.or_eq_true, Bool.and_eq_true, decide_eq_true_eq, decide_eq_true_eq] at hlater
      rcases hlater with ⟨hbefore, hne⟩ | rfl
      · obtain ⟨hbetween, entry', hentry', hback⟩ := hrolled hbefore
        refine ⟨?_, entry', List.mem_append_left _ hentry', hback⟩
        unfold Between at *
        omega
      · refine ⟨⟨by decide, by decide⟩, entry, List.mem_append_right _ List.mem_cons_self, hdown, ?_⟩
        rw [← hversion]
        exact (version_009 8 hn file hmem).mpr rfl

/-- Right after 009 has been rolled back, the new body is there and its column is not. -/
theorem schemaAfter_rollback {entry : LogEntry} (hback : RollsBack009 entry)
    (h : Walk (repositoryFiles.map (·.version)) (log ++ [entry]) n) :
    schemaAfter (log ++ [entry]) = some (atVersion 8 true) := by
  obtain ⟨hdown, hversion⟩ := hback
  rcases h.last with ⟨m, -, -, hup, -⟩ | ⟨hbefore, -, hfile⟩
  · rw [hdown] at hup
    exact absurd hup (by decide)
  · obtain ⟨hn, file, hmem, hfileVersion, hfind⟩ := file_of_version hfile
    have hn8 : n = 8 := (version_009 n hn file hmem).mp (hfileVersion.trans hversion)
    subst hn8
    obtain ⟨rolledBack, hschema, hrolled⟩ := schemaAfter_walk hbefore
    have hfalse : rolledBack = false := by
      cases rolledBack with
      | false => rfl
      | true => exact absurd (hrolled rfl).1 (by decide)
    rw [hfalse] at hschema
    have hrun := run_down 8 (by decide) false (by decide) file hmem
    rw [schemaAfter, List.foldlM_append, ← schemaAfter, hschema]
    simpa [runEntry, hfind, MigrationFile.script, hdown] using hrun

end versions

def newRole : Change where
  table := .roles
  op := .insert
  old := none
  new := some [("id", .text "0190163d-8694-739b-aea5-966c26f8ad91"), ("name", .text "auditor"),
    ("description", .null), ("created_at", .text "2026-01-01 00:00:00+00"),
    ("updated_at", .text "2026-01-01 00:00:00+00")]

theorem newRole_admissible : Admissible (atVersion 8 true) newRole where
  table := by decide +kernel
  op := by decide
  old := by decide
  new := by decide
  rows := by
    have hcolumns : (atVersion 8 true).columns? newRole.table.name = some roles := by decide +kernel
    intro columns hmem
    rw [hcolumns, Option.mem_some_iff] at hmem
    subst hmem
    refine ⟨nofun, fun row hrow => ?_⟩
    cases hrow
    exact ⟨by decide, by decide⟩

theorem rollback_inconsistent : ¬ RefersToColumns (atVersion 8 true) := by decide +kernel

/-- Over all runs of `apply_migrations` up and down over the files of the repository, wherever they
stop: at every version on the way the function refers only to columns that `audit_logs` has, and
every admissible write of an audited table succeeds, if and only if 009 is never rolled back. -/
theorem audited_writes_succeed_iff (computeChecksum content : String → String)
    (runs : List Invocation) :
    let log := (afterRuns computeChecksum .empty
      (runs.map (fun inv => (repository content, inv)))).log
    (∀ before after, log = before ++ after → ∃ s, schemaAfter before = some s ∧ RefersToColumns s ∧
      AuditedWritesSucceed s) ↔ ∀ entry ∈ log, ¬ RollsBack009 entry := by
  intro log
  have hwalk := walks_afterRuns computeChecksum (repository content) runs
  unfold Walks at hwalk
  rw [sorted_repository] at hwalk
  constructor
  · intro h entry hentry hback
    obtain ⟨before, after, hlog⟩ := List.append_of_mem hentry
    have hsplit : log = (before ++ [entry]) ++ after := by
      rw [hlog, List.append_assoc]
      rfl
    rw [show (afterRuns computeChecksum .empty _).log = _ from hsplit] at hwalk
    obtain ⟨n, hfront⟩ := hwalk.front
    obtain ⟨s, hs, hrefers, -⟩ := h _ _ hsplit
    rw [schemaAfter_rollback hback hfront] at hs
    cases hs
    exact rollback_inconsistent hrefers
  · intro h before after hsplit
    rw [show (afterRuns computeChecksum .empty _).log = _ from hsplit] at hwalk
    obtain ⟨n, hfront⟩ := hwalk.front
    obtain ⟨rolledBack, hschema, hrolled⟩ := schemaAfter_walk hfront
    cases rolledBack with
    | true =>
      obtain ⟨-, entry, hentry, hback⟩ := hrolled rfl
      exact absurd hback (h entry (by rw [hsplit]; exact List.mem_append_left _ hentry))
    | false =>
      have hn : n < 12 := Nat.lt_succ_of_le hfront.le_length
      have hconsistent := atVersion_consistent n hn
      exact ⟨_, hschema, hconsistent.1, hconsistent.writesSucceed⟩

/-- The first nine files are applied, and the last of them is rolled back. -/
def rolledBackRuns : List Invocation :=
  [⟨"up", some 9, false, none, [], 30⟩, ⟨"down", none, false, none, [], 5⟩]

/-- After the rollback no role can be added any more. -/
theorem rollback_breaks_writes :
    ∃ s, schemaAfter (afterRuns id .empty (rolledBackRuns.map (fun inv =>
        (repository (fun _ => "--down\n;"), inv)))).log = some s ∧
      ¬ RefersToColumns s ∧ Castable .empty ∧ Admissible s newRole ∧
      s.fire .empty newRole = .error (.undefinedColumn "impersonator_id") := by
  refine ⟨atVersion 8 true, ?_, rollback_inconsistent, ⟨rfl, rfl⟩, newRole_admissible, ?_⟩
  · decide +kernel
  · decide +kernel

end FastapiTemplate.Migrations
