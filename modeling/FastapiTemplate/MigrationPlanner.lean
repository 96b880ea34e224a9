import FastapiTemplate.MigrationFiles
import FastapiTemplate.ProgramCrashes

/-!
# The migration planner

`apply_migrations` validates, selects the files to run from the applied versions, the target and
the number of steps, and runs them one after the other. `run_migration` changes the schema and
records the version in one transaction. Any statement may fail, also after it has been executed.
-/

namespace FastapiTemplate.Migrations

/-! ## Selecting -/

/-- `xs[:steps]` -/
def sliceTo (steps : Option ℤ) (xs : List String) : List String :=
  match steps with
  | none => xs
  | some n => xs.take (if 0 ≤ n then n.toNat else (xs.length + n).toNat)

/-- `xs[: xs.index(target) + 1]` -/
def sliceThrough (target : String) (xs : List String) : List String := xs.take (xs.idxOf target + 1)

/-- The files to apply; none at all if the target has been applied. -/
def selectUpMigrations (files applied : List String) (target : Option String) (steps : Option ℤ) :
    Except MigrateError (Option (List String)) :=
  let pending := files.filter (· ∉ applied)
  match target.filter (· ≠ "") with
  | none => .ok (some (sliceTo steps pending))
  | some name =>
    if name ∈ pending then .ok (some (sliceTo steps (sliceThrough name pending)))
    else if name ∈ applied then .ok none
    else .error (.value ("Target migration '" ++ name ++ "' not found in available migrations."))

def selectDownMigrations (files applied : List String) (target : Option String) (steps : Option ℤ) :
    Except MigrateError (List String) :=
  let steps := if steps = none ∧ target = none then some 1 else steps
  let appliedInOrder := files.reverse.filter (· ∈ applied)
  match target.filter (· ≠ "") with
  | none => .ok (sliceTo steps appliedInOrder)
  | some name =>
    if name ∈ appliedInOrder then .ok (sliceTo steps (sliceThrough name appliedInOrder))
    else .error (.value ("Target migration '" ++ name ++ "' is not applied and cannot be rolled back."))

/-! ## The program -/

inductive MigrateCall
  | getAppliedMigrations
  | getAppliedMigrationRecords
  | runMigration (filename direction : String)
  | recordMigration (version : String) (checksum : Option String) (executionTimeMs : Option ℤ)
  | removeMigrationRecord (version : String)

@[reducible] def MigrateCall.Result : MigrateCall → Type
  | .getAppliedMigrations => List String
  | .getAppliedMigrationRecords => List MigrationRecord
  | _ => Unit

abbrev MigrateCall.Answer (c : MigrateCall) : Type := Except MigrateError c.Result

abbrev MigrateProgram (α : Type) := Program MigrateCall MigrateCall.Answer MigrateError α

def ask (c : MigrateCall) : MigrateProgram c.Result :=
  Program.perform c >>= fun answer => Program.ofExcept answer

section program
variable (computeChecksum : String → String) (dir : MigrationsDir)

/-- Run one file; the record that the transaction has made is made, or removed, once more. -/
def processMigration (direction filename : String) : MigrateProgram Unit := do
  ask (.runMigration filename direction)
  if direction = "up" then
    ask (.recordMigration filename ((dir.content? filename).map computeChecksum) none)
  else if direction = "down" then ask (.removeMigrationRecord filename)

def processMigrations (direction : String) (dryRun : Bool) : List String → MigrateProgram (List String)
  | [] => pure []
  | filename :: rest => do
    if dryRun then pure () else processMigration computeChecksum dir direction filename
    let processed ← processMigrations direction dryRun rest
    pure (filename :: processed)

def applyMigrations (direction : String) (steps : Option ℤ) (dryRun : Bool)
    (target : Option String) : MigrateProgram (List String) := do
  let files := getSortedMigrationFiles dir
  let applied ← ask .getAppliedMigrations
  let records ← ask .getAppliedMigrationRecords
  Program.ofExcept (validateMigrationSequence computeChecksum dir files applied records)
  if direction = "up" then
    match ← Program.ofExcept (selectUpMigrations files applied target steps) with
    | none => pure []
    | some selected => processMigrations computeChecksum dir direction dryRun selected
  else if direction = "down" then
    let selected ← Program.ofExcept (selectDownMigrations files applied target steps)
    processMigrations computeChecksum dir direction dryRun selected
  else Program.raise (.value "Invalid direction: choose 'up' or 'down'.")

end program

/-! ## The database -/

/-- A script that was run, with the versions that were applied and the files that there were. -/
structure LogEntry where
  direction : String
  version : String
  applied : List String
  files : List String

/-- The table `schema_migrations`, whose primary key is `version`, and the scripts that have been
run, in order. -/
structure Database where
  records : List MigrationRecord
  versionsApart : (records.map (·.version)).Nodup
  log : List LogEntry

namespace Database

def empty : Database := ⟨[], List.nodup_nil, []⟩

def versions (db : Database) : List String := db.records.map (·.version)

/-- `INSERT … ON CONFLICT (version) DO UPDATE` -/
def upsert (db : Database) (version : String) (checksum : Option String) : Database where
  records := db.records.filter (·.version ≠ version) ++ [⟨version, checksum⟩]
  versionsApart := by
    rw [List.map_append]
    apply List.Nodup.append (db.versionsApart.sublist (List.filter_sublist.map _))
      (List.nodup_singleton _)
    simp
  log := db.log

def delete (db : Database) (version : String) : Database where
  records := db.records.filter (·.version ≠ version)
  versionsApart := db.versionsApart.sublist (List.filter_sublist.map _)
  log := db.log

def ran (db : Database) (direction version : String) (files : List String) : Database :=
  { db with log := db.log ++ [⟨direction, version, db.versions, files⟩] }

end Database

inductive Fate
  | done
  | failed
  | replyLost
  deriving DecidableEq, Repr

/-- The database with the fates of the next calls; later ones are done. -/
structure Session where
  database : Database
  fates : List Fate

section server
variable (computeChecksum : String → String) (dir : MigrationsDir)

def sqlToExecute (filename direction : String) : Except MigrateError String :=
  match dir.content? filename with
  | none => .error (.fileNotFound ("Migration script api/migrations/" ++ filename ++ " not found."))
  | some content => do
    let sql ← parseMigrationSql content direction
    if direction = "down" ∧ sql = "" then
      .error (.value ("Migration " ++ filename ++ " has no '-- down' rollback section defined."))
    else .ok sql

def result (db : Database) : (c : MigrateCall) → c.Answer
  | .getAppliedMigrations => .ok (db.versions.insertionSort (· ≤ ·))
  | .getAppliedMigrationRecords => .ok (db.records.insertionSort (fun r r' => r.version ≤ r'.version))
  | .runMigration filename direction => (sqlToExecute dir filename direction).map (fun _ => ())
  | .recordMigration .. => .ok ()
  | .removeMigrationRecord _ => .ok ()

def effect (db : Database) : MigrateCall → Database
  | .getAppliedMigrations => db
  | .getAppliedMigrationRecords => db
  | .runMigration filename direction =>
    if (sqlToExecute dir filename direction).isOk then
      let ran := db.ran direction filename (getSortedMigrationFiles dir)
      if direction = "up" then
        ran.upsert filename ((dir.content? filename).map computeChecksum)
      else if direction = "down" then ran.delete filename
      else ran
    else db
  | .recordMigration version checksum _ => db.upsert version checksum
  | .removeMigrationRecord version => db.delete version

def handler (c : MigrateCall) (s : Session) : c.Answer × Session :=
  match s.fates with
  | [] => (result dir s.database c, ⟨effect computeChecksum dir s.database c, []⟩)
  | .done :: fates => (result dir s.database c, ⟨effect computeChecksum dir s.database c, fates⟩)
  | .failed :: fates => (.error .database, ⟨s.database, fates⟩)
  | .replyLost :: fates => (.error .database, ⟨effect computeChecksum dir s.database c, fates⟩)

/-- A call of `apply_migrations`, which the process leaves after so many calls at the latest. -/
structure Invocation where
  direction : String
  steps : Option ℤ
  dryRun : Bool
  target : Option String
  fates : List Fate
  calls : ℕ

def afterRun (inv : Invocation) (db : Database) : Database :=
  (Program.executeFor (handler computeChecksum dir) inv.calls
    (applyMigrations computeChecksum dir inv.direction inv.steps inv.dryRun inv.target)
    ⟨db, inv.fates⟩).database

end server

/-- The database after invocations one after the other, each with the files of its time. -/
def afterRuns (computeChecksum : String → String) (db : Database) :
    List (MigrationsDir × Invocation) → Database
  | [] => db
  | (dir, inv) :: runs => afterRuns computeChecksum (afterRun computeChecksum dir inv db) runs

/-! ## What a call does -/

section calls
variable {computeChecksum : String → String} {dir : MigrationsDir}

theorem handler_database (c : MigrateCall) (s : Session) :
    (handler computeChecksum dir c s).2.database = s.database ∨
      (handler computeChecksum dir c s).2.database = effect computeChecksum dir s.database c := by
  unfold handler
  split
  · exact .inr rfl
  · exact .inr rfl
  · exact .inl rfl
  · exact .inr rfl

theorem handler_ok {c : MigrateCall} {s : Session} {a : c.Result}
    (h : (handler computeChecksum dir c s).1 = .ok a) :
    result dir s.database c = .ok a ∧
      (handler computeChecksum dir c s).2.database = effect computeChecksum dir s.database c := by
  unfold handler at h ⊢
  split at h
  · exact ⟨h, rfl⟩
  · exact ⟨h, rfl⟩
  · cases h
  · cases h

/-- A call that leaves the invariant, from a state whose statement would. -/
theorem throughout_ask {Inv : Database → Prop} {c : MigrateCall} {s : Session}
    {Post : c.Result → Session → Prop} (hs : Inv s.database)
    (heffect : Inv (effect computeChecksum dir s.database c))
    (h : ∀ a t, result dir s.database c = .ok a →
      t.database = effect computeChecksum dir s.database c → Post a t) :
    Program.Throughout (handler computeChecksum dir) (fun t => Inv t.database) (ask c) s Post := by
  have hcall : Inv (handler computeChecksum dir c s).2.database := by
    rcases @handler_database computeChecksum dir c s with hsame | hdone
    · rw [hsame]
      exact hs
    · rw [hdone]
      exact heffect
  apply Program.Throughout.call
  · exact hs
  · apply Program.Throughout.ofExcept
    · exact hcall
    · intro a ha
      obtain ⟨hresult, hdatabase⟩ := handler_ok ha
      exact h a _ hresult hdatabase

end calls

/-! ## What an invocation does -/

namespace Database

theorem mem_upsert_versions {db : Database} {version v : String} {checksum : Option String} :
    v ∈ (db.upsert version checksum).versions ↔ v = version ∨ v ∈ db.versions := by
  by_cases hv : v = version
  · simp [versions, upsert, hv]
  · simp only [versions, upsert, List.map_append, List.mem_append, List.mem_map, List.mem_filter,
      List.map_cons, List.map_nil, List.mem_singleton, hv, or_false, false_or]
    constructor
    · rintro ⟨record, ⟨hrecord, -⟩, rfl⟩
      exact ⟨record, hrecord, rfl⟩
    · rintro ⟨record, hrecord, rfl⟩
      exact ⟨record, ⟨hrecord, by simpa using hv⟩, rfl⟩

theorem mem_delete_versions {db : Database} {version v : String} :
    v ∈ (db.delete version).versions ↔ v ≠ version ∧ v ∈ db.versions := by
  simp only [versions, delete, List.mem_map, List.mem_filter, decide_eq_true_eq]
  constructor
  · rintro ⟨record, ⟨hrecord, hne⟩, rfl⟩
    exact ⟨hne, record, hrecord, rfl⟩
  · rintro ⟨hne, record, hrecord, rfl⟩
    exact ⟨record, ⟨hrecord, hne⟩, rfl⟩

theorem upsert_upsert (db : Database) (version : String) (checksum : Option String) :
    (db.upsert version checksum).upsert version checksum = db.upsert version checksum := by
  simp [upsert, List.filter_append]

theorem delete_delete (db : Database) (version : String) :
    (db.delete version).delete version = db.delete version := by
  simp [delete]

end Database

section invocations
variable {computeChecksum : String → String} {dir : MigrationsDir} {direction : String}
  {Inv : Database → Prop}

/-- A call that changes nothing. -/
theorem throughout_read {c : MigrateCall} {s : Session} (hs : Inv s.database)
    (hc : effect computeChecksum dir s.database c = s.database) :
    Program.Throughout (handler computeChecksum dir) (fun t => Inv t.database) (ask c) s
      (fun a t => result dir s.database c = .ok a ∧ t.database = s.database) := by
  apply throughout_ask hs
  · rw [hc]
    exact hs
  · intro a t ha ht
    exact ⟨ha, ht.trans hc⟩

/-- After the transaction, making or removing the record once more changes nothing. -/
theorem processMigration_throughout {filename : String} {s : Session} {Post : Unit → Session → Prop}
    (hs : Inv s.database)
    (hrun : Inv (effect computeChecksum dir s.database (.runMigration filename direction)))
    (h : (sqlToExecute dir filename direction).isOk = true → ∀ t,
      t.database = effect computeChecksum dir s.database (.runMigration filename direction) →
      Post () t) :
    Program.Throughout (handler computeChecksum dir) (fun t => Inv t.database)
      (processMigration computeChecksum dir direction filename) s Post := by
  let Ran := fun (_ : Unit) (t : Session) => (sqlToExecute dir filename direction).isOk = true ∧
    t.database = effect computeChecksum dir s.database (.runMigration filename direction)
  have hfirst : Program.Throughout (handler computeChecksum dir) (fun t => Inv t.database)
      (ask (.runMigration filename direction)) s Ran := by
    apply throughout_ask hs hrun
    intro u t hresult ht
    refine ⟨?_, ht⟩
    cases hsql : sqlToExecute dir filename direction with
    | ok sql => rfl
    | error e =>
      rw [result, hsql] at hresult
      cases hresult
  apply hfirst.bind
  rintro u t ⟨hok, ht⟩
  have hafter : Inv t.database := ht ▸ hrun
  have hpost (v : Session) (hv : v.database = t.database) : Post () v := h hok v (hv.trans ht)
  rw [effect, if_pos hok] at ht
  split_ifs with hup hdown
  · apply (throughout_read hafter _).mono (fun _ v hv => hpost v hv.2)
    rw [if_pos hup] at ht
    rw [ht]
    exact Database.upsert_upsert _ _ _
  · apply (throughout_read hafter _).mono (fun _ v hv => hpost v hv.2)
    rw [if_neg hup, if_pos hdown] at ht
    rw [ht]
    exact Database.delete_delete _ _
  · exact Program.Throughout.pure hafter (hpost t rfl)

/-- `J` holds of the files that are still to be run, and each script passes it on. -/
theorem processMigrations_throughout {J : List String → Database → Prop}
    (hInv : ∀ rest db, J rest db → Inv db)
    (hstep : ∀ f rest db, J (f :: rest) db → (sqlToExecute dir f direction).isOk = true →
      J rest (effect computeChecksum dir db (.runMigration f direction)))
    (selected : List String) (s : Session) (hs : J selected s.database) :
    Program.Throughout (handler computeChecksum dir) (fun t => Inv t.database)
      (processMigrations computeChecksum dir direction false selected) s
      (fun _ t => J [] t.database) := by
  induction selected generalizing s with
  | nil => exact Program.Throughout.pure (hInv [] _ hs) hs
  | cons f rest ih =>
    have hbefore := hInv _ _ hs
    have hrun : Inv (effect computeChecksum dir s.database (.runMigration f direction)) := by
      by_cases hok : (sqlToExecute dir f direction).isOk = true
      · exact hInv _ _ (hstep f rest _ hs hok)
      · rw [effect, if_neg hok]
        exact hbefore
    have hone : Program.Throughout (handler computeChecksum dir) (fun t => Inv t.database)
        (processMigration computeChecksum dir direction f) s (fun _ t => J rest t.database) :=
      processMigration_throughout hbefore hrun (fun hok t ht => ht ▸ hstep f rest _ hs hok)
    apply hone.bind
    intro u t ht
    apply (ih t ht).bind
    intro processed v hv
    exact Program.Throughout.pure (hInv [] _ hv) hv

theorem processMigrations_dryRun (selected : List String) (s : Session) (hs : Inv s.database) :
    Program.Throughout (handler computeChecksum dir) (fun t => Inv t.database)
      (processMigrations computeChecksum dir direction true selected) s
      (fun _ t => t.database = s.database) := by
  induction selected with
  | nil => exact Program.Throughout.pure hs rfl
  | cons f rest ih =>
    apply ih.bind
    intro processed v hv
    apply Program.Throughout.pure
    · rw [hv]
      exact hs
    · exact hv

structure Validated (computeChecksum : String → String) (dir : MigrationsDir) (db : Database)
    (applied : List String) : Prop where
  applied_iff : ∀ v, v ∈ applied ↔ v ∈ db.versions
  valid : ∃ records, (∀ record, record ∈ records ↔ record ∈ db.records) ∧
    validateMigrationSequence computeChecksum dir (getSortedMigrationFiles dir) applied records = .ok ()

def Plans (dir : MigrationsDir) (applied : List String) (direction : String) (steps : Option ℤ)
    (target : Option String) (selected : List String) : Prop :=
  direction = "up" ∧
      selectUpMigrations (getSortedMigrationFiles dir) applied target steps = .ok (some selected) ∨
    direction = "down" ∧
      selectDownMigrations (getSortedMigrationFiles dir) applied target steps = .ok selected

/-- An invocation reads, validates and selects before it changes anything. -/
theorem applyMigrations_throughout {steps : Option ℤ} {dryRun : Bool} {target : Option String}
    {s : Session} {Post : List String → Session → Prop} (hs : Inv s.database)
    (hnone : ∀ applied, Validated computeChecksum dir s.database applied → direction = "up" →
      selectUpMigrations (getSortedMigrationFiles dir) applied target steps = .ok none →
      ∀ t, t.database = s.database → Post [] t)
    (hplan : ∀ applied selected, Validated computeChecksum dir s.database applied →
      Plans dir applied direction steps target selected → ∀ t, t.database = s.database →
      Program.Throughout (handler computeChecksum dir) (fun t => Inv t.database)
        (processMigrations computeChecksum dir direction dryRun selected) t Post) :
    Program.Throughout (handler computeChecksum dir) (fun t => Inv t.database)
      (applyMigrations computeChecksum dir direction steps dryRun target) s Post := by
  apply (throughout_read hs rfl).bind
  rintro applied t ⟨happlied, ht⟩
  apply (throughout_read (ht ▸ hs) rfl).bind
  rintro records u ⟨hrecords, hu⟩
  rw [ht] at hrecords hu
  have hmem : ∀ v, v ∈ applied ↔ v ∈ s.database.versions := by
    cases happlied
    exact fun v => List.mem_insertionSort _
  have hmemRecords : ∀ record, record ∈ records ↔ record ∈ s.database.records := by
    cases hrecords
    exact fun record => List.mem_insertionSort _
  have hu' : Inv u.database := hu ▸ hs
  have hvalidated : Program.Throughout (handler computeChecksum dir) (fun t => Inv t.database)
      (Program.ofExcept (validateMigrationSequence computeChecksum dir
        (getSortedMigrationFiles dir) applied records)) u
      (fun _ v => Validated computeChecksum dir s.database applied ∧ v.database = s.database) :=
    Program.Throughout.ofExcept hu' (fun _ hok => ⟨⟨hmem, records, hmemRecords, hok⟩, hu⟩)
  apply hvalidated.bind
  rintro _ v ⟨hvalid, hv⟩
  have hv' : Inv v.database := hv ▸ hs
  split_ifs with hup hdown
  · have hselect : Program.Throughout (handler computeChecksum dir) (fun t => Inv t.database)
        (Program.ofExcept (selectUpMigrations (getSortedMigrationFiles dir) applied target steps)) v
        (fun a w => selectUpMigrations (getSortedMigrationFiles dir) applied target steps = .ok a ∧
          w.database = s.database) := Program.Throughout.ofExcept hv' (fun a ha => ⟨ha, hv⟩)
    apply hselect.bind
    rintro selected w ⟨hselected, hw⟩
    cases selected with
    | none => exact Program.Throughout.pure (hw ▸ hs) (hnone _ hvalid hup hselected w hw)
    | some selected => exact hplan _ selected hvalid (.inl ⟨hup, hselected⟩) w hw
  · subst hdown
    have hselect : Program.Throughout (handler computeChecksum dir) (fun t => Inv t.database)
        (Program.ofExcept (selectDownMigrations (getSortedMigrationFiles dir) applied target steps)) v
        (fun a w => selectDownMigrations (getSortedMigrationFiles dir) applied target steps = .ok a ∧
          w.database = s.database) := Program.Throughout.ofExcept hv' (fun a ha => ⟨ha, hv⟩)
    apply hselect.bind
    rintro selected w ⟨hselected, hw⟩
    exact hplan _ selected hvalid (.inr ⟨rfl, hselected⟩) w hw
  · exact Program.Throughout.raise hv'

/-- What the loop over the selected files keeps, an invocation keeps, wherever it stops. -/
theorem afterRun_invariant {inv : Invocation} {db : Database} (h : Inv db)
    (hloop : ∀ applied selected, Validated computeChecksum dir db applied →
      Plans dir applied inv.direction inv.steps inv.target selected →
      ∃ J : List String → Database → Prop, J selected db ∧ (∀ rest db, J rest db → Inv db) ∧
        ∀ f rest db, J (f :: rest) db → (sqlToExecute dir f inv.direction).isOk = true →
          J rest (effect computeChecksum dir db (.runMigration f inv.direction))) :
    Inv (afterRun computeChecksum dir inv db) := by
  have hthroughout : Program.Throughout (handler computeChecksum dir) (fun t => Inv t.database)
      (applyMigrations computeChecksum dir inv.direction inv.steps inv.dryRun inv.target)
      ⟨db, inv.fates⟩ (fun _ _ => True) := by
    apply applyMigrations_throughout h
    · exact fun _ _ _ _ _ _ => trivial
    · rintro applied selected hvalid hplan t rfl
      cases inv.dryRun with
      | true => exact (processMigrations_dryRun selected t h).mono (fun _ _ _ => trivial)
      | false =>
        obtain ⟨J, hstart, hInv, hstep⟩ := hloop applied selected hvalid hplan
        have hprocess := processMigrations_throughout hInv hstep selected t hstart
        exact hprocess.mono (fun _ _ _ => trivial)
  exact hthroughout.1 inv.calls

end invocations
end FastapiTemplate.Migrations
