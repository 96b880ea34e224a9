import FastapiTemplate.MigrationRuns

/-!
# Commands that run one migration file

`run_specific_migration` reads which versions are applied, and runs its file without the checks
that `apply_migrations` makes. After which commands does the validator accept the applied versions?
-/

namespace FastapiTemplate.Migrations

section program
variable (computeChecksum : String → String) (dir : MigrationsDir)

/-- The file is one of the directory; it need not be one that is listed. -/
def runSpecificMigration (migrationName direction : String) (dryRun : Bool) : MigrateProgram Unit :=
  if dir.content? migrationName = none then
    Program.raise (.fileNotFound ("Migration " ++ migrationName ++ " does not exist."))
  else do
    let applied ← ask .getAppliedMigrations
    if direction = "up" then
      if migrationName ∈ applied then pure ()
      else if dryRun then pure ()
      else processMigration computeChecksum dir "up" migrationName
    else if direction = "down" then
      if migrationName ∉ applied then pure ()
      else if dryRun then pure ()
      else processMigration computeChecksum dir "down" migrationName
    else pure ()

inductive Command
  | migrate (direction : String) (steps : Option ℤ) (dryRun : Bool) (target : Option String)
  | specific (migrationName direction : String) (dryRun : Bool)

def Command.program : Command → MigrateProgram Unit
  | .migrate direction steps dryRun target =>
    applyMigrations computeChecksum dir direction steps dryRun target >>= fun _ => pure ()
  | .specific migrationName direction dryRun =>
    runSpecificMigration computeChecksum dir migrationName direction dryRun

def Command.leaves? (cmd : Command) (fates : List Fate) (db : Database) : Option Database :=
  match Program.execute (handler computeChecksum dir) (cmd.program computeChecksum dir) ⟨db, fates⟩ with
  | (.ok _, s) => some s.database
  | (.error _, _) => none

def runCommands (db : Database) : List (Command × List Fate) → Option Database
  | [] => some db
  | (cmd, fates) :: rest =>
    (cmd.leaves? computeChecksum dir fates db).bind (fun next => runCommands next rest)

def Accepted (db : Database) : Prop :=
  validateMigrationSequence computeChecksum dir (getSortedMigrationFiles dir) db.versions db.records =
    .ok ()

instance (db : Database) : Decidable (Accepted computeChecksum dir db) :=
  inferInstanceAs (Decidable (_ = _))

end program

/-! ## Which scripts a command runs -/

def Command.direction : Command → String
  | .migrate direction _ _ _ => direction
  | .specific _ direction _ => direction

def Command.scripts (dir : MigrationsDir) (versions : List String) : Command → List String
  | .migrate direction steps dryRun target =>
    if dryRun then []
    else if direction = "up" then
      match selectUpMigrations (getSortedMigrationFiles dir) versions target steps with
      | .ok (some selected) => selected
      | _ => []
    else if direction = "down" then
      match selectDownMigrations (getSortedMigrationFiles dir) versions target steps with
      | .ok selected => selected
      | _ => []
    else []
  | .specific migrationName direction dryRun =>
    if dryRun then []
    else if direction = "up" then [migrationName].filter (· ∉ versions)
    else if direction = "down" then [migrationName].filter (· ∈ versions)
    else []

def NumberLe (f g : String) : Prop :=
  ∀ a b, extractSequenceNumber f = some a → extractSequenceNumber g = some b → a ≤ b

/-- A specific file is applied when nothing pending comes before it, and rolled back when nothing
applied comes after it. `apply_migrations` does the same for the listed files by itself, but not for
a version without a listed file. -/
def Command.KeepsOrder (dir : MigrationsDir) (versions : List String) (cmd : Command) : Prop :=
  match cmd with
  | .migrate direction _ _ _ =>
    direction = "down" → ∀ f ∈ cmd.scripts dir versions, ∀ v ∈ versions,
      v ∉ getSortedMigrationFiles dir → NumberLe v f
  | .specific _ direction _ =>
    (direction = "up" → ∀ script ∈ cmd.scripts dir versions, ∀ f ∈ getSortedMigrationFiles dir,
      f ∉ versions → f ≠ script → NumberLe script f) ∧
    (direction = "down" → ∀ script ∈ cmd.scripts dir versions,
      script ∈ getSortedMigrationFiles dir → ∀ v ∈ versions, v ≠ script → NumberLe v script)

section selection
variable {files versions applied : List String} {target : Option String} {steps : Option ℤ}

theorem selectUpMigrations_congr (h : ∀ v, v ∈ applied ↔ v ∈ versions) :
    selectUpMigrations files applied target steps = selectUpMigrations files versions target steps := by
  simp only [selectUpMigrations, h]

theorem selectDownMigrations_congr (h : ∀ v, v ∈ applied ↔ v ∈ versions) :
    selectDownMigrations files applied target steps =
      selectDownMigrations files versions target steps := by
  simp only [selectDownMigrations, h]

end selection

/-! ## What a completed command does -/

section commands
variable {computeChecksum : String → String} {dir : MigrationsDir} {before db : Database}

def Recorded (computeChecksum : String → String) (dir : MigrationsDir) (db : Database) : Prop :=
  ∀ record ∈ db.records, record.checksum = (dir.content? record.version).map computeChecksum

structure Processed (computeChecksum : String → String) (dir : MigrationsDir) (direction : String)
    (run : List String) (before after : Database) : Prop where
  recorded : Recorded computeChecksum dir after
  none : run = [] → after = before
  up : direction = "up" → ∀ v, v ∈ after.versions ↔ v ∈ run ∨ v ∈ before.versions
  down : direction = "down" → ∀ v, v ∈ after.versions ↔ v ∉ run ∧ v ∈ before.versions

theorem Recorded.processed_nil (h : Recorded computeChecksum dir db) (direction : String) :
    Processed computeChecksum dir direction [] db db where
  recorded := h
  none := fun _ => rfl
  up := by simp
  down := by simp

theorem Recorded.upsert (h : Recorded computeChecksum dir db) (version : String) :
    Recorded computeChecksum dir
      (db.upsert version ((dir.content? version).map computeChecksum)) := by
  intro record hrecord
  rcases List.mem_append.mp hrecord with hrecord | hrecord
  · exact h record (List.mem_filter.mp hrecord).1
  · rw [List.mem_singleton.mp hrecord]

theorem Recorded.delete (h : Recorded computeChecksum dir db) (version : String) :
    Recorded computeChecksum dir (db.delete version) :=
  fun record hrecord => h record (List.mem_filter.mp hrecord).1

theorem Processed.step {direction f : String} {run : List String}
    (h : Processed computeChecksum dir direction run before db)
    (hok : (sqlToExecute dir f direction).isOk = true) :
    Processed computeChecksum dir direction (run ++ [f]) before
      (effect computeChecksum dir db (.runMigration f direction)) := by
  have hran : Recorded computeChecksum dir (db.ran direction f (getSortedMigrationFiles dir)) :=
    h.recorded
  rw [effect, if_pos hok]
  split_ifs with hup hdown
  · constructor
    · exact hran.upsert f
    · intro hnil
      exact absurd hnil (by simp)
    · intro _ v
      have hmem := h.up hup v
      rw [Database.mem_upsert_versions, List.mem_append, List.mem_singleton]
      change v = f ∨ v ∈ db.versions ↔ _
      tauto
    · intro hdown
      exact absurd (hup.symm.trans hdown) (by decide)
  · constructor
    · exact hran.delete f
    · intro hnil
      exact absurd hnil (by simp)
    · exact fun hup' => absurd hup' hup
    · intro _ v
      have hmem := h.down hdown v
      rw [Database.mem_delete_versions, List.mem_append, List.mem_singleton]
      change v ≠ f ∧ v ∈ db.versions ↔ _
      tauto
  · exact ⟨hran, fun hnil => absurd hnil (by simp), fun h => absurd h hup, fun h => absurd h hdown⟩

theorem Recorded.effect (h : Recorded computeChecksum dir db) (f direction : String) :
    Recorded computeChecksum dir
      (effect computeChecksum dir db (.runMigration f direction)) := by
  by_cases hok : (sqlToExecute dir f direction).isOk = true
  · exact ((h.processed_nil direction).step hok).recorded
  · rw [Migrations.effect, if_neg hok]
    exact h

theorem processMigrations_processed {direction : String} (h : Recorded computeChecksum dir before)
    (selected : List String) (s : Session) (hs : s.database = before) :
    Program.Throughout (handler computeChecksum dir) (fun t => Recorded computeChecksum dir t.database)
      (processMigrations computeChecksum dir direction false selected) s
      (fun _ t => Processed computeChecksum dir direction selected before t.database) := by
  let J := fun (rest : List String) (db : Database) => ∃ run, selected = run ++ rest ∧
    Processed computeChecksum dir direction run before db
  have hstart : J selected s.database := ⟨[], rfl, hs ▸ h.processed_nil direction⟩
  have hstep (f : String) (rest : List String) (db : Database) (hdb : J (f :: rest) db)
      (hok : (sqlToExecute dir f direction).isOk = true) :
      J rest (effect computeChecksum dir db (.runMigration f direction)) := by
    obtain ⟨run, hrun, hdb⟩ := hdb
    refine ⟨run ++ [f], ?_, hdb.step hok⟩
    rw [hrun, List.append_assoc]
    rfl
  have hloop := processMigrations_throughout
    (fun rest db (hrest : J rest db) => hrest.choose_spec.2.recorded) hstep selected s hstart
  apply hloop.mono
  rintro _ t ⟨run, hrun, ht⟩
  rw [List.append_nil] at hrun
  exact hrun ▸ ht

theorem processMigration_processed {direction f : String} (h : Recorded computeChecksum dir before)
    (s : Session) (hs : s.database = before) :
    Program.Throughout (handler computeChecksum dir) (fun t => Recorded computeChecksum dir t.database)
      (processMigration computeChecksum dir direction f) s
      (fun _ t => Processed computeChecksum dir direction [f] before t.database) := by
  subst hs
  apply processMigration_throughout h (h.effect f direction)
  rintro hok t ht
  rw [ht]
  exact (h.processed_nil direction).step hok

theorem applyMigrations_processed (h : Recorded computeChecksum dir before) (direction : String)
    (steps : Option ℤ) (dryRun : Bool) (target : Option String) (fates : List Fate) :
    Program.Throughout (handler computeChecksum dir) (fun t => Recorded computeChecksum dir t.database)
      (applyMigrations computeChecksum dir direction steps dryRun target) ⟨before, fates⟩
      (fun _ t => Processed computeChecksum dir direction
        ((Command.migrate direction steps dryRun target).scripts dir before.versions)
        before t.database) := by
  apply applyMigrations_throughout h
  · intro applied hvalid hup hselected t ht
    rw [selectUpMigrations_congr hvalid.applied_iff] at hselected
    have hscripts : (Command.migrate direction steps dryRun target).scripts dir before.versions = [] := by
      simp [Command.scripts, hup, hselected]
    rw [hscripts, ht]
    exact h.processed_nil direction
  · intro applied selected hvalid hplan t ht
    have hscripts : (Command.migrate direction steps false target).scripts dir before.versions =
        selected := by
      rcases hplan with ⟨hup, hselected⟩ | ⟨hdown, hselected⟩
      · rw [selectUpMigrations_congr hvalid.applied_iff] at hselected
        simp [Command.scripts, hup, hselected]
      · rw [selectDownMigrations_congr hvalid.applied_iff] at hselected
        simp [Command.scripts, hdown, hselected]
    cases dryRun with
    | true =>
      apply (processMigrations_dryRun selected t (ht ▸ h)).mono
      intro _ u hu
      rw [hu, ht]
      exact h.processed_nil direction
    | false =>
      rw [hscripts]
      exact processMigrations_processed h selected t ht

theorem runSpecificMigration_processed (h : Recorded computeChecksum dir before)
    (migrationName direction : String) (dryRun : Bool) (fates : List Fate) :
    Program.Throughout (handler computeChecksum dir) (fun t => Recorded computeChecksum dir t.database)
      (runSpecificMigration computeChecksum dir migrationName direction dryRun) ⟨before, fates⟩
      (fun _ t => Processed computeChecksum dir direction
        ((Command.specific migrationName direction dryRun).scripts dir before.versions)
        before t.database) := by
  unfold runSpecificMigration
  by_cases hmissing : dir.content? migrationName = none
  · rw [if_pos hmissing]
    exact Program.Throughout.raise h
  rw [if_neg hmissing]
  apply (throughout_read h rfl).bind
  rintro applied t ⟨happlied, ht⟩
  have hmem : migrationName ∈ applied ↔ migrationName ∈ before.versions := by
    cases happlied
    exact List.mem_insertionSort _
  have ht' : Recorded computeChecksum dir t.database := ht ▸ h
  have hnothing (hscripts : (Command.specific migrationName direction dryRun).scripts dir
      before.versions = []) : Processed computeChecksum dir direction
        ((Command.specific migrationName direction dryRun).scripts dir before.versions) before
        t.database := by
    rw [hscripts, ht]
    exact h.processed_nil direction
  split_ifs with hup hin hdry hdown hin hdry
  · exact Program.Throughout.pure ht' (hnothing (by simp [Command.scripts, hup, ← hmem, hin]))
  · exact Program.Throughout.pure ht' (hnothing (by simp [Command.scripts, hdry]))
  · have hscripts : (Command.specific migrationName direction dryRun).scripts dir before.versions =
        [migrationName] := by simp [Command.scripts, hup, ← hmem, hin, hdry]
    rw [hscripts, hup]
    exact processMigration_processed h t ht
  · exact Program.Throughout.pure ht' (hnothing (by simp [Command.scripts, hdry]))
  · have hscripts : (Command.specific migrationName direction dryRun).scripts dir before.versions =
        [migrationName] := by simp [Command.scripts, hdown, ← hmem, hin, hdry]
    rw [hscripts, hdown]
    exact processMigration_processed h t ht
  · exact Program.Throughout.pure ht' (hnothing (by simp [Command.scripts, hdown, ← hmem, hin]))
  · exact Program.Throughout.pure ht' (hnothing (by simp [Command.scripts, hup, hdown]))

theorem Command.program_processed (h : Recorded computeChecksum dir before) (cmd : Command)
    (fates : List Fate) :
    Program.Throughout (handler computeChecksum dir) (fun t => Recorded computeChecksum dir t.database)
      (cmd.program computeChecksum dir) ⟨before, fates⟩
      (fun _ t => Processed computeChecksum dir cmd.direction (cmd.scripts dir before.versions) before
        t.database) := by
  cases cmd with
  | migrate direction steps dryRun target =>
    apply (applyMigrations_processed h direction steps dryRun target fates).bind
    intro processed t ht
    exact Program.Throughout.pure ht.recorded ht
  | specific migrationName direction dryRun =>
    exact runSpecificMigration_processed h migrationName direction dryRun fates

theorem Command.leaves?_processed {cmd : Command} {fates : List Fate}
    (h : Recorded computeChecksum dir before)
    (hleaves : cmd.leaves? computeChecksum dir fates before = some db) :
    Processed computeChecksum dir cmd.direction (cmd.scripts dir before.versions) before db := by
  have hprogram := (cmd.program_processed h fates).2
  unfold Command.leaves? at hleaves
  split at hleaves
  · next u s heq =>
    cases hleaves
    exact hprogram u s heq
  · cases hleaves

theorem recorded_runCommands {cmds : List (Command × List Fate)}
    (h : Recorded computeChecksum dir before)
    (hrun : runCommands computeChecksum dir before cmds = some db) :
    Recorded computeChecksum dir db := by
  induction cmds generalizing before with
  | nil =>
    cases hrun
    exact h
  | cons head rest ih =>
    obtain ⟨next, hnext, hrest⟩ := Option.bind_eq_some_iff.mp hrun
    exact ih (Command.leaves?_processed h hnext).recorded hrest

end commands

/-! ## What the validator accepts -/

section order
variable {files versions after run : List String}

theorem noneBefore_applied_iff (hnone : NoneBefore files versions)
    (hafter : ∀ v, v ∈ after ↔ v ∈ run ∨ v ∈ versions) :
    NoneBefore files after ↔
      ∀ v ∈ run, ∀ f ∈ files, f ∉ versions → f ∉ run → NumberLe v f := by
  constructor
  · intro h v hv f hf hpending hnot a b ha hb
    have hfafter : f ∉ after := fun hmem => ((hafter f).mp hmem).elim hnot hpending
    exact h f hf hfafter v ((hafter v).mpr (.inl hv)) b a hb ha
  · intro h f hf hnot v hv a b ha hb
    have hpending : f ∉ versions := fun hmem => hnot ((hafter f).mpr (.inr hmem))
    have hfrun : f ∉ run := fun hmem => hnot ((hafter f).mpr (.inl hmem))
    rcases (hafter v).mp hv with hv | hv
    · exact h v hv f hf hpending hfrun b a hb ha
    · exact hnone f hf hpending v hv a b ha hb

theorem noneBefore_rolledBack_iff (hnone : NoneBefore files versions)
    (hafter : ∀ v, v ∈ after ↔ v ∉ run ∧ v ∈ versions) :
    NoneBefore files after ↔
      ∀ f ∈ run, f ∈ files → ∀ v ∈ versions, v ∉ run → NumberLe v f := by
  constructor
  · intro h f hf hfile v hv hkept a b ha hb
    have hfafter : f ∉ after := fun hmem => ((hafter f).mp hmem).1 hf
    exact h f hfile hfafter v ((hafter v).mpr ⟨hkept, hv⟩) b a hb ha
  · intro h f hf hnot v hv a b ha hb
    obtain ⟨hkept, hv⟩ := (hafter v).mp hv
    by_cases hmem : f ∈ versions
    · have hfrun : f ∈ run := by
        by_contra hfrun
        exact hnot ((hafter f).mpr ⟨hfrun, hmem⟩)
      exact h f hfrun hf v hv hkept b a hb ha
    · exact hnone f hf hmem v hv a b ha hb

variable {dir : MigrationsDir} {selected : List String} {target : Option String} {steps : Option ℤ}

/-- What stays pending comes after what is applied. -/
theorem selectUp_number_le
    (h : selectUpMigrations (getSortedMigrationFiles dir) versions target steps = .ok (some selected)) :
    ∀ v ∈ selected, ∀ f ∈ getSortedMigrationFiles dir, f ∉ versions → f ∉ selected →
      NumberLe v f := by
  intro v hv f hf hpending hnot a b ha hb
  obtain ⟨more, hmore⟩ := selectUpMigrations_first h
  have hsorted : (selected ++ more).Pairwise KeyLe := hmore ▸ (sorted_pairwise dir).filter _
  have hfmore : f ∈ selected ++ more := by
    rw [hmore, List.mem_filter]
    exact ⟨hf, by simpa using hpending⟩
  have hlater : f ∈ more := (List.mem_append.mp hfmore).resolve_left hnot
  exact ((List.pairwise_append.mp hsorted).2.2 v hv f hlater).number_le ha hb

/-- What stays applied of the listed files comes before what is rolled back. -/
theorem selectDown_number_le
    (h : selectDownMigrations (getSortedMigrationFiles dir) versions target steps = .ok selected) :
    ∀ f ∈ selected, ∀ v ∈ versions, v ∈ getSortedMigrationFiles dir → v ∉ selected →
      NumberLe v f := by
  intro f hf v hv hfile hnot a b ha hb
  obtain ⟨more, hmore⟩ := selectDownMigrations_first h
  have hsorted : (selected ++ more).Pairwise (fun g g' => KeyLe g' g) := by
    rw [hmore]
    exact (List.pairwise_reverse.mpr (sorted_pairwise dir)).filter _
  have hvmore : v ∈ selected ++ more := by
    rw [hmore, List.mem_filter, List.mem_reverse]
    exact ⟨hfile, by simpa using hv⟩
  have hlater : v ∈ more := (List.mem_append.mp hvmore).resolve_left hnot
  exact ((List.pairwise_append.mp hsorted).2.2 f hf v hlater).number_le ha hb

end order

section accepted
variable {computeChecksum : String → String} {dir : MigrationsDir} {db next : Database}

theorem Recorded.accepted_iff (hvalid : Accepted computeChecksum dir .empty)
    (h : Recorded computeChecksum dir db) :
    Accepted computeChecksum dir db ↔ NoneBefore (getSortedMigrationFiles dir) db.versions := by
  have hok {applied : List String} {records : List MigrationRecord} :=
    @validateMigrationSequence_ok computeChecksum dir _ applied records (sorted_nodup dir)
  obtain ⟨hapart, hcomplete, -, -⟩ := hok.mp hvalid
  have hkept : ∀ record ∈ db.records, ChecksumKept computeChecksum dir record := by
    intro record hrecord content expected hcontent hexpected _
    have hchecksum := h record hrecord
    rw [hcontent, hexpected] at hchecksum
    exact (Option.some.inj hchecksum).symm
  constructor
  · intro haccepted
    exact (hok.mp haccepted).2.2.1
  · intro hnone
    exact hok.mpr ⟨hapart, hcomplete, hnone, hkept⟩

theorem scripts_specific (migrationName direction : String) (dryRun : Bool) (versions : List String) :
    (Command.specific migrationName direction dryRun).scripts dir versions = [] ∨
      (Command.specific migrationName direction dryRun).scripts dir versions = [migrationName] := by
  rw [Command.scripts]
  split_ifs
  · exact .inl rfl
  · by_cases h : migrationName ∈ versions <;> simp [h]
  · by_cases h : migrationName ∈ versions <;> simp [h]
  · exact .inl rfl

theorem scripts_migrate_up (steps : Option ℤ) (dryRun : Bool) (target : Option String)
    (versions : List String) :
    (Command.migrate "up" steps dryRun target).scripts dir versions = [] ∨
      selectUpMigrations (getSortedMigrationFiles dir) versions target steps =
        .ok (some ((Command.migrate "up" steps dryRun target).scripts dir versions)) := by
  cases dryRun with
  | true => exact .inl rfl
  | false =>
    cases h : selectUpMigrations (getSortedMigrationFiles dir) versions target steps with
    | error e => simp [Command.scripts, h]
    | ok selected => cases selected <;> simp [Command.scripts, h]

theorem scripts_migrate_down (steps : Option ℤ) (dryRun : Bool) (target : Option String)
    (versions : List String) :
    (Command.migrate "down" steps dryRun target).scripts dir versions = [] ∨
      selectDownMigrations (getSortedMigrationFiles dir) versions target steps =
        .ok ((Command.migrate "down" steps dryRun target).scripts dir versions) := by
  cases dryRun with
  | true => exact .inl rfl
  | false =>
    cases h : selectDownMigrations (getSortedMigrationFiles dir) versions target steps with
    | error e => simp [Command.scripts, h]
    | ok selected => simp [Command.scripts, h]

theorem Command.keepsOrder_up (cmd : Command) (hup : cmd.direction = "up") (versions : List String) :
    (∀ v ∈ cmd.scripts dir versions, ∀ f ∈ getSortedMigrationFiles dir, f ∉ versions →
      f ∉ cmd.scripts dir versions → NumberLe v f) ↔ cmd.KeepsOrder dir versions := by
  cases cmd with
  | migrate direction steps dryRun target =>
    change direction = "up" at hup
    subst hup
    apply iff_of_true
    · rcases @scripts_migrate_up dir steps dryRun target versions with hnone | hselected
      · rw [hnone]
        exact fun v hv => absurd hv List.not_mem_nil
      · exact selectUp_number_le hselected
    · intro hdown
      exact absurd hdown (by decide)
  | specific migrationName direction dryRun =>
    change direction = "up" at hup
    subst hup
    unfold Command.KeepsOrder
    rcases @scripts_specific dir migrationName "up" dryRun versions with hnone | hone
    · simp [hnone]
    · simp [hone]

theorem Command.keepsOrder_down (cmd : Command) (hdown : cmd.direction = "down")
    (versions : List String) :
    (∀ f ∈ cmd.scripts dir versions, f ∈ getSortedMigrationFiles dir → ∀ v ∈ versions,
      v ∉ cmd.scripts dir versions → NumberLe v f) ↔ cmd.KeepsOrder dir versions := by
  cases cmd with
  | migrate direction steps dryRun target =>
    change direction = "down" at hdown
    subst hdown
    unfold Command.KeepsOrder
    rcases @scripts_migrate_down dir steps dryRun target versions with hnone | hselected
    · simp [hnone]
    · have hlisted := (selectDownMigrations_first hselected).subset
      constructor
      · intro h _ f hf v hv hunlisted
        have hfile (g : String) (hg : g ∈ (migrate "down" steps dryRun target).scripts dir versions) :
            g ∈ getSortedMigrationFiles dir := List.mem_reverse.mp (List.mem_of_mem_filter (hlisted hg))
        exact h f hf (hfile f hf) v hv (fun hmem => hunlisted (hfile v hmem))
      · intro h f hf _ v hv hkept
        by_cases hv' : v ∈ getSortedMigrationFiles dir
        · exact selectDown_number_le hselected f hf v hv hv' hkept
        · exact h rfl f hf v hv hv'
  | specific migrationName direction dryRun =>
    change direction = "down" at hdown
    subst hdown
    unfold Command.KeepsOrder
    rcases @scripts_specific dir migrationName "down" dryRun versions with hnone | hone
    · simp [hnone]
    · simp [hone]

theorem Command.scripts_other (dir : MigrationsDir) (cmd : Command) (versions : List String)
    (hup : cmd.direction ≠ "up") (hdown : cmd.direction ≠ "down") :
    cmd.scripts dir versions = [] := by
  cases cmd with
  | migrate direction steps dryRun target =>
    simp only [Command.direction] at hup hdown
    simp [Command.scripts, hup, hdown]
  | specific migrationName direction dryRun =>
    simp only [Command.direction] at hup hdown
    simp [Command.scripts, hup, hdown]

theorem Command.keepsOrder_other (cmd : Command) {versions : List String}
    (hup : cmd.direction ≠ "up") (hdown : cmd.direction ≠ "down") : cmd.KeepsOrder dir versions := by
  cases cmd with
  | migrate direction steps dryRun target => exact fun h => absurd h hdown
  | specific migrationName direction dryRun =>
    exact ⟨fun h => absurd h hup, fun h => absurd h hdown⟩

/-- A completed command, from versions that the validator accepts. -/
theorem Command.accepted_iff (hvalid : Accepted computeChecksum dir .empty) {cmd : Command}
    {fates : List Fate} (hrecorded : Recorded computeChecksum dir db)
    (haccepted : Accepted computeChecksum dir db)
    (hleaves : cmd.leaves? computeChecksum dir fates db = some next) :
    Accepted computeChecksum dir next ↔ cmd.KeepsOrder dir db.versions := by
  have hprocessed := Command.leaves?_processed hrecorded hleaves
  have hnone := (hrecorded.accepted_iff hvalid).mp haccepted
  by_cases hup : cmd.direction = "up"
  · rw [hprocessed.recorded.accepted_iff hvalid, noneBefore_applied_iff hnone (hprocessed.up hup),
      cmd.keepsOrder_up hup]
  by_cases hdown : cmd.direction = "down"
  · rw [hprocessed.recorded.accepted_iff hvalid,
      noneBefore_rolledBack_iff hnone (hprocessed.down hdown), cmd.keepsOrder_down hdown]
  · have hscripts := cmd.scripts_other dir db.versions hup hdown
    rw [hprocessed.none hscripts]
    exact iff_of_true haccepted (cmd.keepsOrder_other hup hdown)

/-- If a run of completed commands keeps the order, the validator accepts what each of them leaves. -/
theorem accepted_of_keepsOrder (hvalid : Accepted computeChecksum dir .empty)
    {cmds : List (Command × List Fate)} (hrecorded : Recorded computeChecksum dir db)
    (haccepted : Accepted computeChecksum dir db)
    (hrun : runCommands computeChecksum dir db cmds = some next)
    (horder : ∀ before cmd fates after mid, cmds = before ++ (cmd, fates) :: after →
      runCommands computeChecksum dir db before = some mid →
      (cmd.leaves? computeChecksum dir fates mid).isSome → cmd.KeepsOrder dir mid.versions) :
    Accepted computeChecksum dir next := by
  induction cmds generalizing db with
  | nil =>
    cases hrun
    exact haccepted
  | cons head rest ih =>
    obtain ⟨cmd, fates⟩ := head
    obtain ⟨mid, hmid, hrest⟩ := Option.bind_eq_some_iff.mp hrun
    have hfirst := horder [] cmd fates rest db rfl rfl (by rw [hmid]; rfl)
    apply ih (Command.leaves?_processed hrecorded hmid).recorded
    · exact (Command.accepted_iff hvalid hrecorded haccepted hmid).mpr hfirst
    · exact hrest
    · intro before cmd' fates' after db' hsplit hbefore hleaves
      apply horder ((cmd, fates) :: before) cmd' fates' after db'
      · rw [hsplit]
        rfl
      · rw [runCommands, hmid]
        exact hbefore
      · exact hleaves

theorem runCommands_concat (cmds : List (Command × List Fate)) (cmd : Command) (fates : List Fate) :
    runCommands computeChecksum dir db (cmds ++ [(cmd, fates)]) =
      (runCommands computeChecksum dir db cmds).bind (cmd.leaves? computeChecksum dir fates) := by
  induction cmds generalizing db with
  | nil =>
    simp only [List.nil_append, runCommands, Option.bind_some]
    exact Option.bind_fun_some _
  | cons head rest ih =>
    rw [List.cons_append, runCommands, runCommands, Option.bind_assoc]
    congr 1
    funext mid
    exact ih

end accepted

/-- Completed commands from the empty table on, with a file set that is valid: the validator accepts
every state between them if and only if each command keeps the order. -/
theorem accepted_iff_commands_keep_order (computeChecksum : String → String) (dir : MigrationsDir)
    (hvalid : Accepted computeChecksum dir .empty) (cmds : List (Command × List Fate)) :
    (∀ before after db, cmds = before ++ after →
      runCommands computeChecksum dir .empty before = some db → Accepted computeChecksum dir db) ↔
    ∀ before cmd fates after db, cmds = before ++ (cmd, fates) :: after →
      runCommands computeChecksum dir .empty before = some db →
      (cmd.leaves? computeChecksum dir fates db).isSome → cmd.KeepsOrder dir db.versions := by
  have hempty : Recorded computeChecksum dir .empty := fun _ h => absurd h List.not_mem_nil
  constructor
  · intro h before cmd fates after db hsplit hbefore hleaves
    obtain ⟨next, hnext⟩ := Option.isSome_iff_exists.mp hleaves
    have haccepted := h before _ db hsplit hbefore
    have hlater : Accepted computeChecksum dir next := by
      apply h (before ++ [(cmd, fates)]) after next
      · rw [hsplit, List.append_assoc]
        rfl
      · rw [runCommands_concat, hbefore]
        exact hnext
    exact (Command.accepted_iff hvalid (recorded_runCommands hempty hbefore) haccepted hnext).mp hlater
  · rintro horder before after db rfl hrun
    apply accepted_of_keepsOrder hvalid hempty hvalid hrun
    intro start cmd fates rest mid hsplit hstart hleaves
    apply horder start cmd fates (rest ++ after) mid
    · rw [hsplit, List.append_assoc]
      rfl
    · exact hstart
    · exact hleaves

/-- The first file is applied first. -/
theorem first_specific_accepted :
    ∃ db, runCommands id twoMigrations .empty [(.specific "001_users.sql" "up" false, [])] = some db ∧
      Accepted id twoMigrations db := by
  have hcompletes : (runCommands id twoMigrations .empty
      [(.specific "001_users.sql" "up" false, [])]).isSome := by decide +kernel
  obtain ⟨db, hrun⟩ := Option.isSome_iff_exists.mp hcompletes
  refine ⟨db, hrun, (accepted_iff_commands_keep_order id twoMigrations (by decide)
    [(.specific "001_users.sql" "up" false, [])]).mpr ?_ _ [] db (List.append_nil _).symm hrun⟩
  intro before cmd fates after db hsplit _ _
  obtain ⟨-, hcmd, -⟩ : before = [] ∧ (Command.specific "001_users.sql" "up" false, []) =
      (cmd, fates) ∧ after = [] := by
    cases before <;> simp_all
  cases hcmd
  refine ⟨fun _ script hscript f hf _ _ a b ha hb => ?_, fun hdown => absurd hdown (by decide)⟩
  have hscript' := List.mem_of_mem_filter hscript
  rw [List.mem_singleton.mp hscript', show extractSequenceNumber "001_users.sql" = some 1 by decide]
    at ha
  have hnumbers : ∀ f ∈ getSortedMigrationFiles twoMigrations,
      1 ≤ (extractSequenceNumber f).getD 1 := by decide
  have hle := hnumbers f hf
  rw [hb] at hle
  exact Option.some.inj ha ▸ hle

/-- The second file is applied before the first one, and `apply_migrations` then refuses. -/
theorem specific_migration_blocks :
    Accepted id twoMigrations .empty ∧
    ∃ db, runCommands id twoMigrations .empty [(.specific "002_posts.sql" "up" false, [])] = some db ∧
      ¬ Accepted id twoMigrations db ∧
      (Program.execute (handler id twoMigrations)
        (applyMigrations id twoMigrations "up" none false none) ⟨db, []⟩).1 =
        .error (.value ("Out-of-order migration detected: '001_users.sql' (seq 1) is unapplied " ++
          "but precedes applied migration (max seq 2)")) := by
  have hcompletes : (runCommands id twoMigrations .empty
      [(.specific "002_posts.sql" "up" false, [])]).isSome := by decide +kernel
  constructor
  · decide
  · apply Exists.intro _
    apply And.intro (Option.some_get hcompletes).symm
    decide +kernel +revert

end FastapiTemplate.Migrations
