import FastapiTemplate.MigrationUndo

/-!
# The execution times of the records

`run_migration` records the time that its script took. Its callers record the version once more,
without a time, and the upsert of `record_migration` puts this in its place. The programs are the
same; the table has the column `execution_time_ms` in addition.
-/

namespace FastapiTemplate.Migrations

/-- The table with the column `execution_time_ms` of the row of each version, and the scripts that
have been run up with the milliseconds that were measured, in order. -/
structure TimedDatabase where
  database : Database
  executionTimeMs : String → Option ℤ
  measured : List (String × ℤ)

namespace TimedDatabase

def setTime (db : TimedDatabase) (version : String) (time : Option ℤ) : TimedDatabase :=
  { db with executionTimeMs := Function.update db.executionTimeMs version time }

def measure (db : TimedDatabase) (version : String) (ms : ℤ) : TimedDatabase :=
  { db with measured := db.measured ++ [(version, ms)] }

end TimedDatabase

structure TimedSession where
  table : TimedDatabase
  fates : List Fate

def TimedSession.untimed (s : TimedSession) : Session := ⟨s.table.database, s.fates⟩

section server
variable (computeChecksum : String → String) (elapsedMs : ℕ → ℤ) (dir : MigrationsDir)

/-- The table when the statement is done; `elapsedMs` are the times of the scripts in order. -/
def timedEffect (db : TimedDatabase) (c : MigrateCall) : TimedDatabase :=
  let after : TimedDatabase := { db with database := effect computeChecksum dir db.database c }
  match c with
  | .runMigration filename direction =>
    if (sqlToExecute dir filename direction).isOk ∧ direction = "up" then
      let ms := elapsedMs db.measured.length
      (after.setTime filename (some ms)).measure filename ms
    else after
  | .recordMigration version _ executionTimeMs => after.setTime version executionTimeMs
  | _ => after

def timedHandler (c : MigrateCall) (s : TimedSession) : c.Answer × TimedSession :=
  match s.fates with
  | [] => (result dir s.table.database c, ⟨timedEffect computeChecksum elapsedMs dir s.table c, []⟩)
  | .done :: fates =>
    (result dir s.table.database c, ⟨timedEffect computeChecksum elapsedMs dir s.table c, fates⟩)
  | .failed :: fates => (.error .database, ⟨s.table, fates⟩)
  | .replyLost :: fates =>
    (.error .database, ⟨timedEffect computeChecksum elapsedMs dir s.table c, fates⟩)

end server

section commands
variable {computeChecksum : String → String} {elapsedMs : ℕ → ℤ} {dir : MigrationsDir}

theorem timedEffect_database (db : TimedDatabase) (c : MigrateCall) :
    (timedEffect computeChecksum elapsedMs dir db c).database =
      effect computeChecksum dir db.database c := by
  cases c with
  | runMigration filename direction =>
    unfold timedEffect
    dsimp only
    split_ifs <;> rfl
  | _ => rfl

/-- Without its times the table behaves as before. -/
theorem timedHandler_untimed (c : MigrateCall) (s : TimedSession) :
    (timedHandler computeChecksum elapsedMs dir c s).1 = (handler computeChecksum dir c s.untimed).1 ∧
      (timedHandler computeChecksum elapsedMs dir c s).2.untimed =
        (handler computeChecksum dir c s.untimed).2 := by
  obtain ⟨table, fates⟩ := s
  have hdatabase := @timedEffect_database computeChecksum elapsedMs dir table c
  cases fates with
  | nil => exact ⟨rfl, congrArg (Session.mk · []) hdatabase⟩
  | cons fate fates =>
    cases fate with
    | done => exact ⟨rfl, congrArg (Session.mk · fates) hdatabase⟩
    | failed => exact ⟨rfl, rfl⟩
    | replyLost => exact ⟨rfl, congrArg (Session.mk · fates) hdatabase⟩

theorem execute_untimed {α : Type} (p : MigrateProgram α) (s : TimedSession) :
    (p.execute (timedHandler computeChecksum elapsedMs dir) s).1 =
        (p.execute (handler computeChecksum dir) s.untimed).1 ∧
      (p.execute (timedHandler computeChecksum elapsedMs dir) s).2.untimed =
        (p.execute (handler computeChecksum dir) s.untimed).2 := by
  induction p generalizing s with
  | pure a => exact ⟨rfl, rfl⟩
  | raise e => exact ⟨rfl, rfl⟩
  | call c next ih =>
    obtain ⟨hanswer, hsession⟩ := @timedHandler_untimed computeChecksum elapsedMs dir c s
    have hnext := ih (timedHandler computeChecksum elapsedMs dir c s).1
      (timedHandler computeChecksum elapsedMs dir c s).2
    rw [hanswer, hsession] at hnext
    rw [Program.execute_call, hanswer]
    exact hnext

/-- A call that returns has been done. -/
theorem execute_ask_ok {c : MigrateCall} {a : c.Result} {s t : TimedSession}
    (h : (ask c).execute (timedHandler computeChecksum elapsedMs dir) s = (.ok a, t)) :
    result dir s.table.database c = .ok a ∧
      t.table = timedEffect computeChecksum elapsedMs dir s.table c := by
  obtain ⟨answer, u, hcall, hanswer⟩ := (Program.execute_bind_ok _).mp h
  rw [Program.execute_perform] at hcall
  obtain ⟨hok, rfl⟩ := Prod.mk.inj hcall
  cases answer with
  | error e => cases hanswer
  | ok r =>
    cases hanswer
    have hdone : (timedHandler computeChecksum elapsedMs dir c s).1 = .ok a := Except.ok.inj hok
    obtain ⟨table, fates⟩ := s
    cases fates with
    | nil => exact ⟨hdone, rfl⟩
    | cons fate fates =>
      cases fate with
      | done => exact ⟨hdone, rfl⟩
      | failed => cases hdone
      | replyLost => cases hdone

/-- The row of a file that was run: its checksum, and no time. -/
structure Overwritten (computeChecksum : String → String) (dir : MigrationsDir) (f : String)
    (db : TimedDatabase) : Prop where
  checksum : ∃ record ∈ db.database.records, record.version = f ∧
    record.checksum = (dir.content? f).map computeChecksum
  noTime : db.executionTimeMs f = none
  measured : ∃ ms, (f, ms) ∈ db.measured

theorem isOk_of_result {f direction : String} {db : Database} {u : Unit}
    (h : result dir db (.runMigration f direction) = .ok u) :
    (sqlToExecute dir f direction).isOk = true := by
  cases hsql : sqlToExecute dir f direction with
  | ok sql => rfl
  | error e =>
    rw [result, hsql] at h
    cases h

theorem timedEffect_runMigration {f : String} (hok : (sqlToExecute dir f "up").isOk = true)
    (db : TimedDatabase) :
    timedEffect computeChecksum elapsedMs dir db (.runMigration f "up") =
      ⟨effect computeChecksum dir db.database (.runMigration f "up"),
        Function.update db.executionTimeMs f (some (elapsedMs db.measured.length)),
        db.measured ++ [(f, elapsedMs db.measured.length)]⟩ := by
  unfold timedEffect
  exact if_pos ⟨hok, rfl⟩

/-- A version is recorded with its checksum, and another record stays. -/
theorem exists_record_upsert {db : Database} {f g : String} {checksum : Option String}
    (h : f = g ∨ ∃ record ∈ db.records, record.version = g ∧
      record.checksum = (dir.content? g).map computeChecksum)
    (hchecksum : checksum = (dir.content? f).map computeChecksum) :
    ∃ record ∈ (db.upsert f checksum).records, record.version = g ∧
      record.checksum = (dir.content? g).map computeChecksum := by
  subst hchecksum
  by_cases hfg : f = g
  · subst hfg
    exact ⟨_, List.mem_append_right _ (List.mem_singleton.mpr rfl), rfl, rfl⟩
  · obtain ⟨record, hrecord, rfl, hsum⟩ := h.resolve_left hfg
    have hkeep : record ∈ db.records.filter (·.version ≠ f) :=
      List.mem_filter.mpr ⟨hrecord, decide_eq_true (Ne.symm hfg)⟩
    exact ⟨record, List.mem_append_left _ hkeep, rfl, hsum⟩

/-- What an `up` leaves of one file: the script and its time, then a record without time. -/
theorem processMigration_up_ok {f : String} {s t : TimedSession} {u : Unit}
    (h : (processMigration computeChecksum dir "up" f).execute
      (timedHandler computeChecksum elapsedMs dir) s = (.ok u, t)) :
    t.table.database = (s.table.database.ran "up" f (getSortedMigrationFiles dir)).upsert f
        ((dir.content? f).map computeChecksum) ∧
      t.table.executionTimeMs = Function.update (Function.update s.table.executionTimeMs f
        (some (elapsedMs s.table.measured.length))) f none ∧
      t.table.measured = s.table.measured ++ [(f, elapsedMs s.table.measured.length)] := by
  obtain ⟨v, mid, hrun, hrecord⟩ := (Program.execute_bind_ok _).mp h
  obtain ⟨hresult, hmid⟩ := execute_ask_ok hrun
  have hok := isOk_of_result hresult
  rw [timedEffect_runMigration hok] at hmid
  rw [if_pos rfl] at hrecord
  obtain ⟨-, ht⟩ := execute_ask_ok hrecord
  rw [hmid] at ht
  rw [ht]
  refine ⟨?_, rfl, rfl⟩
  change (effect computeChecksum dir s.table.database (.runMigration f "up")).upsert f _ = _
  rw [effect, if_pos hok]
  exact Database.upsert_upsert _ _ _

theorem processMigration_overwrites {f g : String} {s t : TimedSession} {u : Unit}
    (h : (processMigration computeChecksum dir "up" f).execute
      (timedHandler computeChecksum elapsedMs dir) s = (.ok u, t))
    (hg : f = g ∨ Overwritten computeChecksum dir g s.table) :
    Overwritten computeChecksum dir g t.table := by
  obtain ⟨hlast, htimes, hmeasured⟩ := processMigration_up_ok h
  constructor
  · rw [hlast]
    exact exists_record_upsert (hg.imp_right (·.checksum)) rfl
  · rw [htimes]
    rcases hg with rfl | hg
    · exact Function.update_self ..
    · by_cases hfg : g = f
      · rw [hfg]
        exact Function.update_self ..
      · rw [Function.update_of_ne hfg, Function.update_of_ne hfg]
        exact hg.noTime
  · rw [hmeasured]
    rcases hg with rfl | hg
    · exact ⟨_, List.mem_append_right _ (List.mem_singleton.mpr rfl)⟩
    · obtain ⟨ms, hms⟩ := hg.measured
      exact ⟨ms, List.mem_append_left _ hms⟩

theorem processMigrations_overwrites {selected processed : List String} {s t : TimedSession}
    (h : (processMigrations computeChecksum dir "up" false selected).execute
      (timedHandler computeChecksum elapsedMs dir) s = (.ok processed, t)) {g : String}
    (hg : g ∈ selected ∨ Overwritten computeChecksum dir g s.table) :
    Overwritten computeChecksum dir g t.table := by
  induction selected generalizing s processed with
  | nil =>
    cases h
    exact hg.resolve_left List.not_mem_nil
  | cons f rest ih =>
    obtain ⟨u, mid, hone, hrest⟩ := (Program.execute_bind_ok _).mp h
    obtain ⟨others, last, hothers, hlast⟩ := (Program.execute_bind_ok _).mp hrest
    cases hlast
    apply ih hothers
    rcases hg with hg | hg
    · rcases List.mem_cons.mp hg with rfl | hg
      · exact .inr (processMigration_overwrites hone (.inl rfl))
      · exact .inl hg
    · exact .inr (processMigration_overwrites hone (.inr hg))

theorem execute_ofExcept_ok {α : Type} {r : Except MigrateError α} {a : α} {s t : TimedSession}
    (h : (Program.ofExcept r : MigrateProgram α).execute
      (timedHandler computeChecksum elapsedMs dir) s = (.ok a, t)) : r = .ok a := by
  cases r with
  | error e => cases h
  | ok r =>
    cases h
    rfl

theorem applyMigrations_overwrites {steps : Option ℤ} {target : Option String}
    {processed : List String} {s t : TimedSession}
    (h : (applyMigrations computeChecksum dir "up" steps false target).execute
      (timedHandler computeChecksum elapsedMs dir) s = (.ok processed, t)) :
    ∀ f ∈ (Command.migrate "up" steps false target).scripts dir s.table.database.versions,
      Overwritten computeChecksum dir f t.table := by
  obtain ⟨applied, s₁, happlied, hafter₁⟩ := (Program.execute_bind_ok _).mp h
  obtain ⟨records, s₂, -, hafter₂⟩ := (Program.execute_bind_ok _).mp hafter₁
  obtain ⟨u, s₃, -, hafter₃⟩ := (Program.execute_bind_ok _).mp hafter₂
  rw [if_pos rfl] at hafter₃
  obtain ⟨selection, s₄, hselection, hprocess⟩ := (Program.execute_bind_ok _).mp hafter₃
  have hselect := execute_ofExcept_ok hselection
  cases (execute_ask_ok happlied).1
  have hmem : ∀ v, v ∈ s.table.database.versions.insertionSort (· ≤ ·) ↔
      v ∈ s.table.database.versions := fun v => List.mem_insertionSort _
  rw [selectUpMigrations_congr hmem] at hselect
  have hscripts : (Command.migrate "up" steps false target).scripts dir
      s.table.database.versions = selection.getD [] := by
    cases selection <;> simp [Command.scripts, hselect]
  rw [hscripts]
  cases selection with
  | none => exact fun f hf => absurd hf List.not_mem_nil
  | some selected => exact fun f hf => processMigrations_overwrites hprocess (.inl hf)

theorem runSpecificMigration_overwrites {migrationName : String} {s t : TimedSession} {u : Unit}
    (h : (runSpecificMigration computeChecksum dir migrationName "up" false).execute
      (timedHandler computeChecksum elapsedMs dir) s = (.ok u, t)) :
    ∀ f ∈ (Command.specific migrationName "up" false).scripts dir s.table.database.versions,
      Overwritten computeChecksum dir f t.table := by
  unfold runSpecificMigration at h
  by_cases hmissing : dir.content? migrationName = none
  · rw [if_pos hmissing] at h
    cases h
  · rw [if_neg hmissing] at h
    obtain ⟨applied, s₁, happlied, hrun⟩ := (Program.execute_bind_ok _).mp h
    cases (execute_ask_ok happlied).1
    have hmem : migrationName ∈ s.table.database.versions.insertionSort (· ≤ ·) ↔
        migrationName ∈ s.table.database.versions := List.mem_insertionSort _
    by_cases hin : migrationName ∈ s.table.database.versions
    · intro f hf
      have hnil : (Command.specific migrationName "up" false).scripts dir
          s.table.database.versions = [] := by simp [Command.scripts, hin]
      rw [hnil] at hf
      exact absurd hf List.not_mem_nil
    · rw [if_pos rfl, if_neg (fun h => hin (hmem.mp h)), if_neg (by simp)] at hrun
      intro f hf
      have hone : (Command.specific migrationName "up" false).scripts dir
          s.table.database.versions = [migrationName] := by simp [Command.scripts, hin]
      rw [hone] at hf
      exact processMigration_overwrites hrun (.inl (List.mem_singleton.mp hf).symm)

/-- Of every script that an `up` has run, the time is lost. -/
theorem Command.overwrites {cmd : Command} (hup : cmd.direction = "up") {s t : TimedSession}
    {u : Unit} (h : (cmd.program computeChecksum dir).execute
      (timedHandler computeChecksum elapsedMs dir) s = (.ok u, t)) :
    ∀ f ∈ cmd.scripts dir s.table.database.versions, Overwritten computeChecksum dir f t.table := by
  cases cmd with
  | migrate direction steps dryRun target =>
    obtain rfl : direction = "up" := hup
    cases dryRun with
    | true => exact fun f hf => absurd hf List.not_mem_nil
    | false =>
      obtain ⟨processed, v, hrun, hlast⟩ := (Program.execute_bind_ok _).mp h
      cases hlast
      exact applyMigrations_overwrites hrun
  | specific migrationName direction dryRun =>
    obtain rfl : direction = "up" := hup
    cases dryRun with
    | true => exact fun f hf => absurd hf List.not_mem_nil
    | false => exact runSpecificMigration_overwrites h

/-- The row of a file has its checksum and the time that was measured when its script ran. -/
def FaithfulRow (computeChecksum : String → String) (dir : MigrationsDir) (f : String)
    (before after : TimedDatabase) : Prop :=
  (∃ record ∈ after.database.records, record.version = f ∧
    record.checksum = (dir.content? f).map computeChecksum) ∧
  ∃ ms, (f, ms) ∈ after.measured.drop before.measured.length ∧ after.executionTimeMs f = some ms

/-- The rows of what an `up` has run are faithful exactly if it has run nothing. -/
theorem records_faithful_iff {cmd : Command} (hup : cmd.direction = "up") {s t : TimedSession}
    {u : Unit} (h : (cmd.program computeChecksum dir).execute
      (timedHandler computeChecksum elapsedMs dir) s = (.ok u, t)) :
    (∀ f ∈ cmd.scripts dir s.table.database.versions,
        FaithfulRow computeChecksum dir f s.table t.table) ↔
      cmd.scripts dir s.table.database.versions = [] := by
  have hlost := Command.overwrites hup h
  constructor
  · intro hfaithful
    apply List.eq_nil_iff_forall_not_mem.mpr
    intro f hf
    obtain ⟨-, ms, -, hms⟩ := hfaithful f hf
    rw [(hlost f hf).noTime] at hms
    cases hms
  · intro hnil f hf
    rw [hnil] at hf
    exact absurd hf List.not_mem_nil

end commands

def tableMigration : MigrationsDir where
  files := [("001_t.sql", tableFile)]
  namesApart := List.nodup_singleton _

/-- The only file is applied to an empty database. -/
theorem tableMigration_up : Program.execute (handler id tableMigration)
    (applyMigrations id tableMigration "up" none false none) ⟨.empty, []⟩ =
    (.ok ["001_t.sql"], ⟨afterScripts id tableMigration "up" .empty ["001_t.sql"], []⟩) := by
  have hstart : AppliedPrefix tableMigration [] ["001_t.sql"] .empty :=
    ⟨by decide, fun _ => Iff.rfl⟩
  have hacceptable : Acceptable id tableMigration .empty := by
    refine ⟨?_, fun _ => ?_, fun record hrecord => absurd hrecord List.not_mem_nil⟩
    · exact (checkDuplicateSequenceNumbers_ok (sorted_nodup _)).mp (by decide)
    · exact missing_eq_nil_iff.mp (by decide)
  have hselect : selectUpMigrations (getSortedMigrationFiles tableMigration) Database.empty.versions
      none none = .ok (some ["001_t.sql"]) := by
    rw [hstart.files]
    rfl
  exact execute_applyMigrations_up hstart hacceptable hselect
    (readable_up_of_tableFile (by decide))

def firstRun : Except MigrateError Unit × TimedSession :=
  ((Command.migrate "up" none false none).program id tableMigration).execute
    (timedHandler id (fun _ => 7) tableMigration) ⟨⟨.empty, fun _ => none, []⟩, []⟩

theorem firstRun_ok : firstRun = (.ok (), firstRun.2) := by
  have hrun := @execute_untimed id (fun _ => 7) tableMigration _
    ((Command.migrate "up" none false none).program id tableMigration)
    ⟨⟨.empty, fun _ => none, []⟩, []⟩
  refine Prod.ext (hrun.1.trans ?_) rfl
  unfold Command.program TimedSession.untimed
  rw [Program.execute_bind, tableMigration_up]
  rfl

theorem firstRun_scripts : (Command.migrate "up" none false none).scripts tableMigration
    Database.empty.versions = ["001_t.sql"] := by
  have hfiles : getSortedMigrationFiles tableMigration = ["001_t.sql"] := by decide
  unfold Command.scripts
  rw [hfiles]
  rfl

theorem records_faithful_firstRun :
    firstRun = (.ok (), firstRun.2) ∧
      ((∀ f ∈ (Command.migrate "up" none false none).scripts tableMigration
          Database.empty.versions,
          FaithfulRow id tableMigration f ⟨.empty, fun _ => none, []⟩ firstRun.2.table) ↔
        (Command.migrate "up" none false none).scripts tableMigration Database.empty.versions = []) :=
  ⟨firstRun_ok, records_faithful_iff rfl firstRun_ok⟩

theorem firstRun_time_lost :
    firstRun = (.ok (), firstRun.2) ∧
      "001_t.sql" ∈ (Command.migrate "up" none false none).scripts tableMigration
        Database.empty.versions ∧
      firstRun.2.table.executionTimeMs "001_t.sql" = none ∧
      ¬ FaithfulRow id tableMigration "001_t.sql" ⟨.empty, fun _ => none, []⟩ firstRun.2.table := by
  have hmem : "001_t.sql" ∈ (Command.migrate "up" none false none).scripts tableMigration
      Database.empty.versions := by
    rw [firstRun_scripts]
    exact List.mem_singleton.mpr rfl
  have hlost := (Command.overwrites rfl firstRun_ok _ hmem).noTime
  refine ⟨firstRun_ok, hmem, hlost, ?_⟩
  rintro ⟨-, ms, -, hms⟩
  rw [hlost] at hms
  cases hms

end FastapiTemplate.Migrations
