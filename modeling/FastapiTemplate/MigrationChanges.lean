import FastapiTemplate.MigrationRuns

/-!
# Migration files that change between runs

What the validator guarantees for any files and any applied versions. Gaps are looked for only
if every file has a number, and checksums only where the file is still there.
-/

namespace FastapiTemplate.Migrations

/-- A file that is run up has no number below an applied one, and not the number of an applied file
that is still there; a file that is run down is the last of the applied ones that are there. -/
def EntryInOrder (entry : LogEntry) : Prop :=
  (entry.direction = "up" → entry.version ∉ entry.applied ∧
    ∀ v ∈ entry.applied, ∀ a b, extractSequenceNumber v = some a →
      extractSequenceNumber entry.version = some b → a ≤ b ∧ (v ∈ entry.files → a < b)) ∧
  (entry.direction = "down" →
    (entry.files.filter (· ∈ entry.applied)).getLast? = some entry.version)

def InOrder (db : Database) : Prop := ∀ entry ∈ db.log, EntryInOrder entry

section numbers
variable {files applied : List String}

/-- Distinct numbers make the comparison with an applied file strict while it is there. -/
theorem number_lt (hapart : NumbersApart files) {f v : String} (hf : f ∈ files) (hnot : f ∉ applied)
    (hv : v ∈ applied) (hvfiles : v ∈ files) {a b : ℕ} (ha : extractSequenceNumber v = some a)
    (hb : extractSequenceNumber f = some b) (hle : a ≤ b) : a < b := by
  apply Nat.lt_of_le_of_ne hle
  rintro rfl
  have heq := hapart v hvfiles f hf a ha hb
  exact hnot (heq ▸ hv)

end numbers

/-! ## Runs -/

/-- What is left of an invocation: files to apply that no applied number comes after, or applied
files from the last one on. -/
inductive Selected (dir : MigrationsDir) (direction : String) (rest : List String) (db : Database) :
    Prop
  | up (hlog : InOrder db) (hdirection : direction = "up")
      (hapart : NumbersApart (getSortedMigrationFiles dir))
      (hsublist : rest.Sublist (getSortedMigrationFiles dir)) (hpending : ∀ f ∈ rest, f ∉ db.versions)
      (hnone : NoneBefore rest db.versions)
  | down (hlog : InOrder db) (hdirection : direction = "down")
      (hrest : rest <+: (getSortedMigrationFiles dir).reverse.filter (· ∈ db.versions))

section runs
variable {computeChecksum : String → String} {dir : MigrationsDir} {direction : String}
  {rest : List String} {db : Database}

theorem Selected.inOrder (h : Selected dir direction rest db) : InOrder db := by
  cases h with
  | up hlog => exact hlog
  | down hlog => exact hlog

theorem InOrder.ran (h : InOrder db) {version : String}
    (hentry : EntryInOrder ⟨direction, version, db.versions, getSortedMigrationFiles dir⟩) :
    InOrder (db.ran direction version (getSortedMigrationFiles dir)) := by
  intro entry hmem
  rcases List.mem_append.mp hmem with hmem | hmem
  · exact h entry hmem
  · rw [List.mem_singleton.mp hmem]
    exact hentry

theorem Selected.stepUp {f : String} (hok : (sqlToExecute dir f "up").isOk = true) (hlog : InOrder db)
    (hapart : NumbersApart (getSortedMigrationFiles dir))
    (hsublist : (f :: rest).Sublist (getSortedMigrationFiles dir))
    (hpending : ∀ g ∈ f :: rest, g ∉ db.versions) (hnone : NoneBefore (f :: rest) db.versions) :
    Selected dir "up" rest (effect computeChecksum dir db (.runMigration f "up")) := by
  have hf : f ∈ f :: rest := List.mem_cons_self
  have hsorted := List.pairwise_cons.mp ((sorted_pairwise dir).sublist hsublist)
  have hnodup := List.nodup_cons.mp ((sorted_nodup dir).sublist hsublist)
  have hentry : EntryInOrder ⟨"up", f, db.versions, getSortedMigrationFiles dir⟩ := by
    refine ⟨fun _ => ⟨hpending f hf, fun v hv a b ha hb => ?_⟩, fun h => absurd h (by simp)⟩
    have hle := hnone f hf (hpending f hf) v hv b a hb ha
    exact ⟨hle, fun hvfiles => number_lt hapart (hsublist.subset hf) (hpending f hf) hv hvfiles ha hb hle⟩
  rw [effect, if_pos hok, if_pos rfl]
  apply Selected.up
  · exact hlog.ran hentry
  · rfl
  · exact hapart
  · exact (List.sublist_cons_self f rest).trans hsublist
  · intro g hg hmem
    rcases Database.mem_upsert_versions.mp hmem with rfl | hmem
    · exact hnodup.1 hg
    · exact hpending g (List.mem_cons_of_mem f hg) hmem
  · intro g hg _ v hv a b ha hb
    rcases Database.mem_upsert_versions.mp hv with rfl | hv
    · exact (hsorted.1 g hg).number_le hb ha
    · have hg' := List.mem_cons_of_mem f hg
      exact hnone g hg' (hpending g hg') v hv a b ha hb

theorem Selected.stepDown {f : String} (hok : (sqlToExecute dir f "down").isOk = true)
    (hlog : InOrder db)
    (hrest : f :: rest <+: (getSortedMigrationFiles dir).reverse.filter (· ∈ db.versions)) :
    Selected dir "down" rest (effect computeChecksum dir db (.runMigration f "down")) := by
  obtain ⟨more, hmore⟩ := hrest
  have hnodup : (f :: rest ++ more).Nodup := by
    rw [hmore]
    exact (List.nodup_reverse.mpr (sorted_nodup dir)).filter _
  have hentry : EntryInOrder ⟨"down", f, db.versions, getSortedMigrationFiles dir⟩ := by
    refine ⟨fun h => absurd h (by simp), fun _ => ?_⟩
    rw [List.filter_reverse] at hmore
    rw [← List.head?_reverse, ← hmore]
    rfl
  have hother : (f :: rest ++ more).filter (· ≠ f) = rest ++ more := by
    rw [List.cons_append, List.filter_cons_of_neg (by simp), List.filter_eq_self]
    intro v hv
    rw [decide_eq_true_eq]
    rintro rfl
    exact (List.nodup_cons.mp hnodup).1 hv
  rw [effect, if_pos hok, if_neg (by decide), if_pos rfl]
  apply Selected.down
  · exact hlog.ran hentry
  · rfl
  · refine ⟨more, ?_⟩
    rw [← hother, hmore, List.filter_filter]
    apply List.filter_congr
    intro v _
    rw [← Bool.decide_and, decide_eq_decide]
    exact Database.mem_delete_versions.symm

theorem Selected.step {f : String} (h : Selected dir direction (f :: rest) db)
    (hok : (sqlToExecute dir f direction).isOk = true) :
    Selected dir direction rest (effect computeChecksum dir db (.runMigration f direction)) := by
  cases h with
  | up hlog hdirection hapart hsublist hpending hnone =>
    subst hdirection
    exact Selected.stepUp hok hlog hapart hsublist hpending hnone
  | down hlog hdirection hrest =>
    subst hdirection
    exact Selected.stepDown hok hlog hrest

/-- What is selected after validation is in order. -/
theorem Plans.selected {applied selected : List String} {steps : Option ℤ} {target : Option String}
    (h : Plans dir applied direction steps target selected)
    (hvalid : Validated computeChecksum dir db applied) (hlog : InOrder db) :
    Selected dir direction selected db := by
  obtain ⟨records, -, hok⟩ := hvalid.valid
  obtain ⟨hapart, -, hnone, -⟩ :=
    (validateMigrationSequence_ok computeChecksum (sorted_nodup dir)).mp hok
  have hmem := hvalid.applied_iff
  rcases h with ⟨hup, hselected⟩ | ⟨hdown, hselected⟩
  · have hfirst := selectUpMigrations_first hselected
    have hpending (f : String) (hf : f ∈ selected) : f ∈ getSortedMigrationFiles dir ∧ f ∉ applied := by
      simpa using hfirst.subset hf
    apply Selected.up hlog hup hapart (hfirst.sublist.trans List.filter_sublist)
    · intro f hf
      rw [← hmem]
      exact (hpending f hf).2
    · intro f hf _ v hv
      exact hnone f (hpending f hf).1 (hpending f hf).2 v ((hmem v).mpr hv)
  · have hfirst := selectDownMigrations_first hselected
    apply Selected.down hlog hdown
    simpa only [hmem] using hfirst

theorem InOrder.afterRun (h : InOrder db) (inv : Invocation) :
    InOrder (afterRun computeChecksum dir inv db) := by
  apply afterRun_invariant h
  intro applied selected hvalid hplan
  refine ⟨Selected dir inv.direction, hplan.selected hvalid h, ?_, ?_⟩
  · exact fun rest db hrest => hrest.inOrder
  · exact fun f rest db hrest => hrest.step

end runs

theorem InOrder.afterRuns {computeChecksum : String → String} {db : Database} (h : InOrder db)
    (runs : List (MigrationsDir × Invocation)) : InOrder (afterRuns computeChecksum db runs) := by
  induction runs generalizing db with
  | nil => exact h
  | cons run runs ih => exact ih (h.afterRun run.2)

/-- What the validator guarantees, and what it means for invocations between which files are added,
renamed or removed, from any table on. -/
theorem validated_in_order (computeChecksum : String → String) :
    (∀ (dir : MigrationsDir) (records : List MigrationRecord),
      let files := getSortedMigrationFiles dir
      let applied := records.map (·.version)
      validateMigrationSequence computeChecksum dir files applied records = .ok () →
      NumbersApart files ∧
      ((∀ f ∈ files, (extractSequenceNumber f).isSome) → NumbersComplete files) ∧
      (∀ f ∈ files, f ∉ applied → ∀ v ∈ applied, ∀ a b, extractSequenceNumber v = some a →
        extractSequenceNumber f = some b → a ≤ b ∧ (v ∈ files → a < b)) ∧
      ∀ record ∈ records, ChecksumKept computeChecksum dir record) ∧
    ∀ (db : Database) (runs : List (MigrationsDir × Invocation)), db.log = [] →
      ∀ entry ∈ (afterRuns computeChecksum db runs).log, EntryInOrder entry := by
  constructor
  · intro dir records files applied hok
    obtain ⟨hapart, hcomplete, hnone, hchecksums⟩ :=
      (validateMigrationSequence_ok computeChecksum (sorted_nodup dir)).mp hok
    refine ⟨hapart, hcomplete, fun f hf hnot v hv a b ha hb => ?_, hchecksums⟩
    have hle := hnone f hf hnot v hv b a hb ha
    exact ⟨hle, fun hvfiles => number_lt hapart hf hnot hv hvfiles ha hb hle⟩
  · intro db runs hlog
    have hempty : InOrder db := by
      intro entry hentry
      rw [hlog] at hentry
      exact absurd hentry List.not_mem_nil
    exact hempty.afterRuns runs

def unchanged : MigrationsDir where
  files := [("001_users.sql", "CREATE TABLE users ();"), ("002_posts.sql", "CREATE TABLE posts ();")]
  namesApart := by decide

theorem unchanged_in_order : NoneBefore (getSortedMigrationFiles unchanged) ["001_users.sql"] := by
  have hvalid := (validated_in_order id).1 unchanged [⟨"001_users.sql", some "CREATE TABLE users ();"⟩]
    (by decide)
  intro f hf hnot v hv a b ha hb
  exact (hvalid.2.2.1 f hf hnot v hv b a hb ha).1

def withGap : MigrationsDir where
  files := [("001_users.sql", ""), ("003_posts.sql", ""), ("seed.sql", "")]
  namesApart := by decide

/-- Accepted are: a gap, when there is a file without a number; an applied version whose file has
been removed; and a pending file with the number of an applied version, when that one has been
renamed. -/
theorem accepts_changed_files :
    (validateMigrationSequence id withGap (getSortedMigrationFiles withGap) [] [] = .ok () ∧
      1 ∈ numbers (getSortedMigrationFiles withGap) ∧ 3 ∈ numbers (getSortedMigrationFiles withGap) ∧
      2 ∉ numbers (getSortedMigrationFiles withGap)) ∧
    (validateMigrationSequence id unchanged (getSortedMigrationFiles unchanged)
        ["001_users.sql", "002_posts.sql", "003_tags.sql"] [⟨"001_users.sql", none⟩,
        ⟨"002_posts.sql", none⟩, ⟨"003_tags.sql", some "CREATE TABLE tags ();"⟩] = .ok () ∧
      unchanged.content? "003_tags.sql" = none) ∧
    (validateMigrationSequence id unchanged (getSortedMigrationFiles unchanged)
        ["001_users.sql", "002_articles.sql"] [⟨"001_users.sql", none⟩, ⟨"002_articles.sql", none⟩] =
        .ok () ∧
      "002_posts.sql" ∈ getSortedMigrationFiles unchanged ∧
      extractSequenceNumber "002_posts.sql" = some 2 ∧
      extractSequenceNumber "002_articles.sql" = some 2) := by
  decide

end FastapiTemplate.Migrations
