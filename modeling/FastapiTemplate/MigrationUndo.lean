import FastapiTemplate.MigrationSections
import FastapiTemplate.SpecificMigrations

/-!
# Taking back what an `up` has applied

`_select_up_migrations` filters, cuts at the target and then to the number of steps; for `down`
other code does the same on the reversed files. Over an applied prefix the two are mirror images.
-/

namespace FastapiTemplate.Migrations

section scripts
variable (computeChecksum : String → String) (dir : MigrationsDir)

def afterScripts (direction : String) (db : Database) (selected : List String) : Database :=
  selected.foldl (fun db f => effect computeChecksum dir db (.runMigration f direction)) db

variable {computeChecksum dir} {direction : String} {db : Database} {selected : List String}

def Readable (dir : MigrationsDir) (direction : String) (files : List String) : Prop :=
  ∀ f ∈ files, (sqlToExecute dir f direction).isOk = true

theorem Readable.head {f : String} {files : List String} (h : Readable dir direction (f :: files)) :
    (sqlToExecute dir f direction).isOk = true := h f List.mem_cons_self

theorem Readable.tail {f : String} {files : List String} (h : Readable dir direction (f :: files)) :
    Readable dir direction files := fun g hg => h g (List.mem_cons_of_mem _ hg)

theorem mem_versions_up {f v : String} (hok : (sqlToExecute dir f "up").isOk = true) :
    v ∈ (effect computeChecksum dir db (.runMigration f "up")).versions ↔
      v = f ∨ v ∈ db.versions := by
  rw [effect, if_pos hok, if_pos rfl]
  exact Database.mem_upsert_versions

theorem mem_versions_down {f v : String} (hok : (sqlToExecute dir f "down").isOk = true) :
    v ∈ (effect computeChecksum dir db (.runMigration f "down")).versions ↔
      v ≠ f ∧ v ∈ db.versions := by
  rw [effect, if_pos hok, if_neg (by decide), if_pos rfl]
  exact Database.mem_delete_versions

theorem mem_afterScripts_up (hok : Readable dir "up" selected) {v : String} :
    v ∈ (afterScripts computeChecksum dir "up" db selected).versions ↔
      v ∈ selected ∨ v ∈ db.versions := by
  induction selected generalizing db with
  | nil => simp [afterScripts]
  | cons f rest ih =>
    refine (ih hok.tail).trans ?_
    rw [mem_versions_up hok.head, List.mem_cons]
    tauto

theorem mem_afterScripts_down (hok : Readable dir "down" selected) {v : String} :
    v ∈ (afterScripts computeChecksum dir "down" db selected).versions ↔
      v ∉ selected ∧ v ∈ db.versions := by
  induction selected generalizing db with
  | nil => simp [afterScripts]
  | cons f rest ih =>
    refine (ih hok.tail).trans ?_
    rw [mem_versions_down hok.head, List.mem_cons]
    tauto

def ChecksumsKept (computeChecksum : String → String) (dir : MigrationsDir) (db : Database) : Prop :=
  ∀ record ∈ db.records, ChecksumKept computeChecksum dir record

theorem checksumKept_of_file (version : String) : ChecksumKept computeChecksum dir
    ⟨version, (dir.content? version).map computeChecksum⟩ := by
  intro content expected hcontent hexpected _
  rw [hcontent] at hexpected
  exact Option.some.inj hexpected

theorem ChecksumsKept.effect (h : ChecksumsKept computeChecksum dir db) (f direction : String) :
    ChecksumsKept computeChecksum dir
      (effect computeChecksum dir db (.runMigration f direction)) := by
  unfold Migrations.effect
  dsimp only
  split_ifs
  · intro record hrecord
    rcases List.mem_append.mp hrecord with hrecord | hrecord
    · exact h record (List.mem_filter.mp hrecord).1
    · rw [List.mem_singleton.mp hrecord]
      exact checksumKept_of_file f
  · exact fun record hrecord => h record (List.mem_filter.mp hrecord).1
  · exact h
  · exact h

theorem ChecksumsKept.afterScripts (h : ChecksumsKept computeChecksum dir db) :
    ChecksumsKept computeChecksum dir (afterScripts computeChecksum dir direction db selected) := by
  induction selected generalizing db with
  | nil => exact h
  | cons f rest ih => exact ih (h.effect f direction)

/-! ## Runs that return -/

theorem processMigration_returns (f : String) (s : Session) :
    Program.Throughout (handler computeChecksum dir) (fun _ => True)
      (processMigration computeChecksum dir direction f) s
      (fun _ t => (sqlToExecute dir f direction).isOk = true ∧
        t.database = effect computeChecksum dir s.database (.runMigration f direction)) :=
  @processMigration_throughout _ _ _ (fun _ => True) f s _ trivial trivial
    (fun hok _ ht => ⟨hok, ht⟩)

/-- A loop that returns has run all its scripts. -/
theorem processMigrations_returns (selected : List String) (s : Session) :
    Program.Throughout (handler computeChecksum dir) (fun _ => True)
      (processMigrations computeChecksum dir direction false selected) s
      (fun processed t => processed = selected ∧ Readable dir direction selected ∧
        t.database = afterScripts computeChecksum dir direction s.database selected) := by
  induction selected generalizing s with
  | nil => exact Program.Throughout.pure trivial ⟨rfl, fun _ h => absurd h List.not_mem_nil, rfl⟩
  | cons f rest ih =>
    apply (processMigration_returns f s).bind
    rintro u t ⟨hok, ht⟩
    apply (ih t).bind
    rintro processed v ⟨rfl, hrest, hv⟩
    refine Program.Throughout.pure trivial ⟨rfl, List.forall_mem_cons.mpr ⟨hok, hrest⟩, ?_⟩
    rw [hv, ht]
    rfl

/-- A call whose statement is done goes on with its result. -/
theorem execute_ask {α : Type} {c : MigrateCall} {a : c.Result} (h : result dir db c = .ok a)
    (next : c.Result → MigrateProgram α) :
    Program.execute (handler computeChecksum dir) (ask c >>= next) ⟨db, []⟩ =
      Program.execute (handler computeChecksum dir) (next a)
        ⟨effect computeChecksum dir db c, []⟩ := by
  change Program.execute _ (Program.ofExcept (result dir db c) >>= next) _ = _
  rw [h]
  rfl

theorem execute_read {α : Type} {c : MigrateCall} {a : c.Result} (h : result dir db c = .ok a)
    (heffect : effect computeChecksum dir db c = db) (next : c.Result → MigrateProgram α) :
    Program.execute (handler computeChecksum dir) (ask c >>= next) ⟨db, []⟩ =
      Program.execute (handler computeChecksum dir) (next a) ⟨db, []⟩ := by
  rw [execute_ask h, heffect]

theorem result_runMigration {f : String} (hok : (sqlToExecute dir f direction).isOk = true) :
    result dir db (.runMigration f direction) = .ok () := by
  cases hsql : sqlToExecute dir f direction with
  | error e =>
    rw [hsql] at hok
    cases hok
  | ok sql =>
    rw [result, hsql]
    rfl

/-- The record is made, or removed, once more. -/
theorem execute_processMigration {α : Type} {f : String}
    (hok : (sqlToExecute dir f direction).isOk = true) (next : Unit → MigrateProgram α) :
    Program.execute (handler computeChecksum dir)
      (processMigration computeChecksum dir direction f >>= next) ⟨db, []⟩ =
      Program.execute (handler computeChecksum dir) (next ())
        ⟨effect computeChecksum dir db (.runMigration f direction), []⟩ := by
  unfold processMigration
  rw [Program.bind_assoc, execute_ask (result_runMigration hok)]
  split_ifs with hup hdown
  · rw [execute_ask rfl]
    congr 2
    rw [effect, if_pos hok, if_pos hup]
    exact Database.upsert_upsert _ _ _
  · rw [execute_ask rfl]
    congr 2
    rw [effect, if_pos hok, if_neg hup, if_pos hdown]
    exact Database.delete_delete _ _
  · rfl

theorem execute_processMigrations (hok : Readable dir direction selected) :
    Program.execute (handler computeChecksum dir)
      (processMigrations computeChecksum dir direction false selected) ⟨db, []⟩ =
      (.ok selected, ⟨afterScripts computeChecksum dir direction db selected, []⟩) := by
  induction selected generalizing db with
  | nil => rfl
  | cons f rest ih =>
    unfold processMigrations
    refine (execute_processMigration hok.head _).trans ?_
    rw [Program.execute_bind, ih hok.tail]
    rfl

/-! ## The applied prefix -/

/-- The sorted files are those that are applied and the rest. -/
structure AppliedPrefix (dir : MigrationsDir) (done todo : List String) (db : Database) : Prop where
  files : getSortedMigrationFiles dir = done ++ todo
  applied : ∀ v, v ∈ db.versions ↔ v ∈ done

/-- What the checks of `apply_migrations` accept. -/
structure Acceptable (computeChecksum : String → String) (dir : MigrationsDir) (db : Database) :
    Prop where
  numbersApart : NumbersApart (getSortedMigrationFiles dir)
  numbersComplete : (∀ f ∈ getSortedMigrationFiles dir, (extractSequenceNumber f).isSome) →
    NumbersComplete (getSortedMigrationFiles dir)
  checksums : ChecksumsKept computeChecksum dir db

section prefixes
variable {done todo : List String}

theorem AppliedPrefix.nodup (h : AppliedPrefix dir done todo db) : (done ++ todo).Nodup :=
  h.files ▸ sorted_nodup dir

theorem AppliedPrefix.noneBefore (h : AppliedPrefix dir done todo db) {applied : List String}
    (happlied : ∀ v, v ∈ applied ↔ v ∈ db.versions) :
    NoneBefore (getSortedMigrationFiles dir) applied := by
  intro f hf hnot v hv a b ha hb
  have hsorted := sorted_pairwise dir
  rw [h.files] at hsorted hf
  rw [happlied, h.applied] at hnot hv
  have hrest : f ∈ todo := (List.mem_append.mp hf).resolve_left hnot
  exact ((List.pairwise_append.mp hsorted).2.2 v hv f hrest).number_le hb ha

theorem Validated.acceptable {applied : List String}
    (h : Validated computeChecksum dir db applied) : Acceptable computeChecksum dir db := by
  obtain ⟨records, hrecords, hvalid⟩ := h.valid
  obtain ⟨hapart, hcomplete, -, hchecksums⟩ :=
    (validateMigrationSequence_ok computeChecksum (sorted_nodup dir)).mp hvalid
  exact ⟨hapart, hcomplete, fun record hrecord => hchecksums record ((hrecords record).mpr hrecord)⟩

/-- What is read of an applied prefix passes the checks. -/
theorem AppliedPrefix.validate (h : AppliedPrefix dir done todo db)
    (hacceptable : Acceptable computeChecksum dir db) :
    validateMigrationSequence computeChecksum dir (getSortedMigrationFiles dir)
      (db.versions.insertionSort (· ≤ ·))
      (db.records.insertionSort (fun r r' => r.version ≤ r'.version)) = .ok () := by
  rw [validateMigrationSequence_ok computeChecksum (sorted_nodup dir)]
  refine ⟨hacceptable.numbersApart, hacceptable.numbersComplete, ?_, ?_⟩
  · exact h.noneBefore (fun v => List.mem_insertionSort _)
  · intro record hrecord
    exact hacceptable.checksums record ((List.mem_insertionSort _).mp hrecord)

section undisturbed
variable {target : Option String} {steps : Option ℤ}

theorem execute_applyMigrations_up (h : AppliedPrefix dir done todo db)
    (hacceptable : Acceptable computeChecksum dir db) {selection : Option (List String)}
    (hselect : selectUpMigrations (getSortedMigrationFiles dir) db.versions target steps =
      .ok selection) (hok : Readable dir "up" (selection.getD [])) :
    Program.execute (handler computeChecksum dir)
      (applyMigrations computeChecksum dir "up" steps false target) ⟨db, []⟩ =
      (.ok (selection.getD []),
        ⟨afterScripts computeChecksum dir "up" db (selection.getD []), []⟩) := by
  have hmem : ∀ v, v ∈ db.versions.insertionSort (· ≤ ·) ↔ v ∈ db.versions :=
    fun v => List.mem_insertionSort _
  rw [← selectUpMigrations_congr hmem] at hselect
  unfold applyMigrations
  dsimp only
  rw [execute_read rfl rfl, execute_read rfl rfl, h.validate hacceptable, if_pos rfl, hselect]
  cases selection with
  | none => rfl
  | some selected => exact execute_processMigrations hok

theorem execute_applyMigrations_down (h : AppliedPrefix dir done todo db)
    (hacceptable : Acceptable computeChecksum dir db)
    (hselect : selectDownMigrations (getSortedMigrationFiles dir) db.versions target steps =
      .ok selected) (hok : Readable dir "down" selected) :
    Program.execute (handler computeChecksum dir)
      (applyMigrations computeChecksum dir "down" steps false target) ⟨db, []⟩ =
      (.ok selected, ⟨afterScripts computeChecksum dir "down" db selected, []⟩) := by
  have hmem : ∀ v, v ∈ db.versions.insertionSort (· ≤ ·) ↔ v ∈ db.versions :=
    fun v => List.mem_insertionSort _
  rw [← selectDownMigrations_congr hmem] at hselect
  unfold applyMigrations
  dsimp only
  rw [execute_read rfl rfl, execute_read rfl rfl, h.validate hacceptable, if_neg (by decide),
    if_pos rfl, hselect]
  exact execute_processMigrations hok

/-- An `up` that returns has run what it selected. -/
theorem applyMigrations_up_returns {fates : List Fate} {processed : List String} {t : Session}
    (hrun : Program.execute (handler computeChecksum dir)
      (applyMigrations computeChecksum dir "up" steps false target) ⟨db, fates⟩ =
      (.ok processed, t)) :
    Acceptable computeChecksum dir db ∧ Readable dir "up" processed ∧
      t.database = afterScripts computeChecksum dir "up" db processed ∧
      ∃ selection, selectUpMigrations (getSortedMigrationFiles dir) db.versions target steps =
        .ok selection ∧ processed = selection.getD [] := by
  have hthroughout : Program.Throughout (handler computeChecksum dir) (fun _ => True)
      (applyMigrations computeChecksum dir "up" steps false target) ⟨db, fates⟩
      (fun processed t => Acceptable computeChecksum dir db ∧ Readable dir "up" processed ∧
        t.database = afterScripts computeChecksum dir "up" db processed ∧
        ∃ selection, selectUpMigrations (getSortedMigrationFiles dir) db.versions target steps =
          .ok selection ∧ processed = selection.getD []) := by
    apply @applyMigrations_throughout _ _ _ (fun _ => True) steps false target _ _ trivial
    · intro applied hvalid _ hselect t ht
      rw [selectUpMigrations_congr hvalid.applied_iff] at hselect
      exact ⟨hvalid.acceptable, fun f hf => absurd hf List.not_mem_nil, ht, none, hselect, rfl⟩
    · rintro applied selected hvalid (⟨-, hselect⟩ | ⟨hdirection, -⟩) t ht
      · rw [selectUpMigrations_congr hvalid.applied_iff] at hselect
        apply (processMigrations_returns selected t).mono
        rintro processed u ⟨rfl, hok, hu⟩
        rw [ht] at hu
        exact ⟨hvalid.acceptable, hok, hu, some processed, hselect, rfl⟩
      · exact absurd hdirection (by decide)
  exact hthroughout.2 processed t hrun

end undisturbed

/-- What an `up` selects continues the prefix. -/
theorem AppliedPrefix.selection_first (h : AppliedPrefix dir done todo db)
    {target : Option String} {steps : Option ℤ} {selection : Option (List String)}
    (hselect : selectUpMigrations (getSortedMigrationFiles dir) db.versions target steps =
      .ok selection) : ∃ rest, selection.getD [] ++ rest = todo := by
  cases selection with
  | none => exact ⟨todo, rfl⟩
  | some selected =>
    have hfirst := selectUpMigrations_first hselect
    rwa [h.files, filter_pending h.nodup h.applied] at hfirst

/-- The last files of the prefix, as many as there are steps. -/
theorem selectDownMigrations_last {applied : List String} {files run : List String}
    (hfiles : files = done ++ (run ++ todo)) (hapart : files.Nodup)
    (happlied : ∀ v, v ∈ applied ↔ v ∈ done ++ run) :
    selectDownMigrations files applied none (some run.length) = .ok run.reverse := by
  have hfilter : files.reverse.filter (· ∈ applied) = (done ++ run).reverse := by
    rw [hfiles, ← List.append_assoc] at hapart ⊢
    exact filter_applied hapart happlied
  have htake : sliceTo (some run.length) (done ++ run).reverse = run.reverse := by
    unfold sliceTo
    dsimp only
    rw [if_pos (Int.natCast_nonneg _), Int.toNat_natCast, List.reverse_append,
      ← List.length_reverse, List.take_left]
  unfold selectDownMigrations
  dsimp only
  rw [if_neg (fun h => Option.some_ne_none _ h.1), hfilter]
  exact congrArg Except.ok htake

/-- The scripts of the next files extend the prefix. -/
theorem AppliedPrefix.afterUp {run : List String} (h : AppliedPrefix dir done (run ++ todo) db)
    (hup : Readable dir "up" run) :
    AppliedPrefix dir (done ++ run) todo (afterScripts computeChecksum dir "up" db run) := by
  constructor
  · rw [h.files, List.append_assoc]
  · intro v
    rw [mem_afterScripts_up hup, h.applied, List.mem_append, or_comm]

/-- The rollbacks of its last files shorten it. -/
theorem AppliedPrefix.afterDown {run : List String} (h : AppliedPrefix dir (done ++ run) todo db)
    (hdown : Readable dir "down" run.reverse) :
    AppliedPrefix dir done (run ++ todo)
      (afterScripts computeChecksum dir "down" db run.reverse) := by
  constructor
  · rw [h.files, List.append_assoc]
  · intro v
    rw [mem_afterScripts_down hdown, h.applied, List.mem_reverse, List.mem_append]
    have hdisjoint := List.disjoint_of_nodup_append h.nodup.of_append_left
    constructor
    · rintro ⟨hnot, hv⟩
      exact hv.resolve_right hnot
    · intro hv
      exact ⟨fun hrun => hdisjoint hv hrun, .inl hv⟩

/-- Over an applied prefix, a `down` of as many steps takes back what an `up` has processed, and
the `up` can be repeated. -/
theorem down_undoes_up (happlied : AppliedPrefix dir done todo db) {steps : Option ℤ}
    {target : Option String} {fates : List Fate} {processed : List String} {t : Session}
    (hrun : Program.execute (handler computeChecksum dir)
      (applyMigrations computeChecksum dir "up" steps false target) ⟨db, fates⟩ =
      (.ok processed, t))
    (hback : Readable dir "down" processed) :
    ∃ u, Program.execute (handler computeChecksum dir)
        (applyMigrations computeChecksum dir "down" (some processed.length) false none)
        ⟨t.database, []⟩ = (.ok processed.reverse, u) ∧
      (∀ v, v ∈ u.database.versions ↔ v ∈ db.versions) ∧
      ∃ w, Program.execute (handler computeChecksum dir)
        (applyMigrations computeChecksum dir "up" steps false target) ⟨u.database, []⟩ =
        (.ok processed, w) := by
  obtain ⟨hacceptable, hup, hdatabase, selection, hselect, rfl⟩ := applyMigrations_up_returns hrun
  obtain ⟨rest, rfl⟩ := happlied.selection_first hselect
  generalize hprocessed : selection.getD [] = processed at *
  have hafter : AppliedPrefix dir (done ++ processed) rest t.database :=
    hdatabase ▸ happlied.afterUp hup
  have hreadable : Readable dir "down" processed.reverse :=
    fun f hf => hback f (List.mem_reverse.mp hf)
  have hbefore : AppliedPrefix dir done (processed ++ rest)
      (afterScripts computeChecksum dir "down" t.database processed.reverse) :=
    hafter.afterDown hreadable
  have hlater : Acceptable computeChecksum dir t.database :=
    ⟨hacceptable.numbersApart, hacceptable.numbersComplete,
      hdatabase ▸ hacceptable.checksums.afterScripts⟩
  have hagain : Acceptable computeChecksum dir
      (afterScripts computeChecksum dir "down" t.database processed.reverse) :=
    ⟨hacceptable.numbersApart, hacceptable.numbersComplete, hlater.checksums.afterScripts⟩
  have hdown := selectDownMigrations_last happlied.files (sorted_nodup dir) hafter.applied
  have hversions (v : String) : v ∈ (afterScripts computeChecksum dir "down" t.database
      processed.reverse).versions ↔ v ∈ db.versions :=
    (hbefore.applied v).trans (happlied.applied v).symm
  refine ⟨_, execute_applyMigrations_down hafter hlater hdown hreadable, hversions, ?_⟩
  rw [← selectUpMigrations_congr hversions] at hselect
  subst hprocessed
  exact ⟨_, execute_applyMigrations_up hbefore hagain hselect hup⟩

end prefixes

end scripts

def tableFile : String := "-- up\nCREATE TABLE t ();\n-- down\nDROP TABLE t;"

theorem tableFile_keptDown : keptDown tableFile = ["DROP TABLE t;"] := by
  have hlines : splitLines [] tableFile.toList =
      ["-- up", "CREATE TABLE t ();", "-- down", "DROP TABLE t;"] := by decide
  have hcreate : isSql "CREATE TABLE t ();" = true := by decide
  have hdrop : isSql "DROP TABLE t;" = true := by decide
  have hstop : ¬ stays "-- down" = true := fun h => stays_iff.mp h isMarker_down.flips
  unfold keptDown
  rw [hlines, sections_true, List.dropWhile_cons_of_pos isMarker_up.stays,
    List.dropWhile_cons_of_pos (stays_of_isSql hcreate), List.dropWhile_cons_of_neg hstop,
    List.filter_cons_of_neg hstop, List.filter_cons_of_pos (stays_of_isSql hdrop)]
  rfl

theorem sqlToExecute_ok {dir : MigrationsDir} {f direction content sql : String}
    (hcontent : dir.content? f = some content) (hparse : parseMigrationSql content direction = .ok sql)
    (hsql : ¬ (direction = "down" ∧ sql = "")) : sqlToExecute dir f direction = .ok sql := by
  unfold sqlToExecute
  rw [hcontent]
  dsimp only
  rw [hparse]
  exact if_neg hsql

theorem readable_up_of_tableFile {dir : MigrationsDir} {files : List String}
    (hfiles : ∀ f ∈ files, dir.content? f = some tableFile) : Readable dir "up" files := by
  intro f hf
  rw [sqlToExecute_ok (hfiles f hf) (parseMigrationSql_up tableFile) (fun h => by simp at h)]
  rfl

theorem readable_down_of_tableFile {dir : MigrationsDir} {files : List String}
    (hfiles : ∀ f ∈ files, dir.content? f = some tableFile) : Readable dir "down" files := by
  have hdown : Sql.strip ("\n".intercalate (keptDown tableFile)) ≠ "" := by
    rw [tableFile_keptDown]
    decide
  intro f hf
  rw [sqlToExecute_ok (hfiles f hf) (parseMigrationSql_down tableFile) (fun h => hdown h.2)]
  rfl

/-- Five tables, whose files are listed in no order. -/
def fiveTables : MigrationsDir where
  files := [("003_c.sql", tableFile), ("001_a.sql", tableFile), ("005_e.sql", tableFile),
    ("002_b.sql", tableFile), ("004_d.sql", tableFile)]
  namesApart := by decide

def firstApplied : Database := afterScripts id fiveTables "up" .empty ["001_a.sql"]

theorem firstApplied_start : AppliedPrefix fiveTables ["001_a.sql"]
    ["002_b.sql", "003_c.sql", "004_d.sql", "005_e.sql"] firstApplied := by
  have hstart : AppliedPrefix fiveTables []
      (["001_a.sql"] ++ ["002_b.sql", "003_c.sql", "004_d.sql", "005_e.sql"]) .empty :=
    ⟨by decide, fun _ => Iff.rfl⟩
  exact hstart.afterUp (readable_up_of_tableFile (by decide))

theorem firstApplied_acceptable : Acceptable id fiveTables firstApplied where
  numbersApart := (checkDuplicateSequenceNumbers_ok (sorted_nodup _)).mp (by
    rw [firstApplied_start.files]
    decide)
  numbersComplete := fun _ => missing_eq_nil_iff.mp (by
    rw [firstApplied_start.files]
    decide)
  checksums := ChecksumsKept.afterScripts (fun _ hrecord => absurd hrecord List.not_mem_nil)

/-- The target leaves three of the four pending files, and the steps two of these. -/
theorem fiveTables_up : Program.execute (handler id fiveTables)
    (applyMigrations id fiveTables "up" (some 2) false (some "004_d.sql")) ⟨firstApplied, []⟩ =
    (.ok ["002_b.sql", "003_c.sql"],
      ⟨afterScripts id fiveTables "up" firstApplied ["002_b.sql", "003_c.sql"], []⟩) := by
  have hselect : selectUpMigrations (getSortedMigrationFiles fiveTables) firstApplied.versions
      (some "004_d.sql") (some 2) = .ok (some ["002_b.sql", "003_c.sql"]) := by
    rw [firstApplied_start.files, selectUpMigrations_congr firstApplied_start.applied]
    decide
  exact execute_applyMigrations_up firstApplied_start firstApplied_acceptable hselect
    (readable_up_of_tableFile (by decide))

/-- The two files are taken back in reverse order, the first one stays, and both can be applied
again. -/
theorem down_undoes_up_fiveTables :
    ∃ t, Program.execute (handler id fiveTables)
        (applyMigrations id fiveTables "up" (some 2) false (some "004_d.sql"))
        ⟨firstApplied, []⟩ = (.ok ["002_b.sql", "003_c.sql"], t) ∧
      ∃ u, Program.execute (handler id fiveTables)
          (applyMigrations id fiveTables "down" (some 2) false none) ⟨t.database, []⟩ =
          (.ok ["003_c.sql", "002_b.sql"], u) ∧
        (∀ v, v ∈ u.database.versions ↔ v ∈ firstApplied.versions) ∧
        ∃ w, Program.execute (handler id fiveTables)
          (applyMigrations id fiveTables "up" (some 2) false (some "004_d.sql"))
          ⟨u.database, []⟩ = (.ok ["002_b.sql", "003_c.sql"], w) := by
  obtain ⟨u, hdown, hback, hagain⟩ := down_undoes_up firstApplied_start fiveTables_up
    (readable_down_of_tableFile (by decide))
  exact ⟨_, fiveTables_up, u, hdown, hback, hagain⟩

end FastapiTemplate.Migrations
