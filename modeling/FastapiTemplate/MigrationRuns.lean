import FastapiTemplate.MigrationPlanner

/-!
# Runs over a fixed set of migration files

As long as the files stay the same, the applied versions are a prefix of the sorted files. An
invocation applies what follows the prefix in order, or takes its last files back in reverse, and
so it does not matter where it stops.
-/

namespace FastapiTemplate.Migrations

/-! ## The history of the scripts -/

def AppliedBy (log : List LogEntry) (v : String) : Prop :=
  ∃ before entry after, log = before ++ entry :: after ∧ entry.direction = "up" ∧ entry.version = v ∧
    ∀ later ∈ after, ¬ (later.direction = "down" ∧ later.version = v)

/-- A script is run up only while it is not applied, and down only while it is. -/
def Alternates (log : List LogEntry) : Prop :=
  ∀ before entry after, log = before ++ entry :: after →
    (entry.direction = "up" → ¬ AppliedBy before entry.version) ∧
      (entry.direction = "down" → AppliedBy before entry.version)

theorem appliedBy_concat {log : List LogEntry} {e : LogEntry} {v : String} :
    AppliedBy (log ++ [e]) v ↔ e.direction = "up" ∧ e.version = v ∨
      AppliedBy log v ∧ ¬ (e.direction = "down" ∧ e.version = v) := by
  constructor
  · rintro ⟨before, entry, after, hlog, hup, hv, hlater⟩
    rcases List.eq_nil_or_concat after with rfl | ⟨after, last, rfl⟩
    · obtain ⟨-, hentry⟩ := List.append_inj' hlog rfl
      cases hentry
      exact .inl ⟨hup, hv⟩
    · rw [List.concat_eq_append, ← List.cons_append, ← List.append_assoc] at hlog
      obtain ⟨hinit, hlast⟩ := List.append_inj' hlog rfl
      cases hlast
      refine .inr ⟨⟨before, entry, after, hinit, hup, hv, fun later hmem => ?_⟩, ?_⟩
      · exact hlater later (by simp [hmem])
      · exact hlater e (by simp)
  · rintro (⟨hup, hv⟩ | ⟨⟨before, entry, after, rfl, hup, hv, hlater⟩, he⟩)
    · exact ⟨log, e, [], rfl, hup, hv, fun _ hmem => absurd hmem List.not_mem_nil⟩
    · refine ⟨before, entry, after ++ [e], by simp, hup, hv, fun later hmem => ?_⟩
      rcases List.mem_append.mp hmem with hmem | hmem
      · exact hlater later hmem
      · rw [List.mem_singleton.mp hmem]
        exact he

theorem Alternates.concat {log : List LogEntry} {e : LogEntry} (h : Alternates log)
    (hup : e.direction = "up" → ¬ AppliedBy log e.version)
    (hdown : e.direction = "down" → AppliedBy log e.version) : Alternates (log ++ [e]) := by
  intro before entry after hlog
  rcases List.eq_nil_or_concat after with rfl | ⟨after, last, rfl⟩
  · obtain ⟨rfl, hentry⟩ := List.append_inj' hlog rfl
    cases hentry
    exact ⟨hup, hdown⟩
  · rw [List.concat_eq_append, ← List.cons_append, ← List.append_assoc] at hlog
    exact h before entry after (List.append_inj' hlog rfl).1

/-! ## The selection -/

theorem sliceTo_first (steps : Option ℤ) (xs : List String) : sliceTo steps xs <+: xs := by
  unfold sliceTo
  cases steps with
  | none => exact List.prefix_rfl
  | some n => exact List.take_prefix _ _

theorem sliceThrough_first (target : String) (xs : List String) : sliceThrough target xs <+: xs :=
  List.take_prefix _ _

theorem selectUpMigrations_first {files applied selected : List String} {target : Option String}
    {steps : Option ℤ} (h : selectUpMigrations files applied target steps = .ok (some selected)) :
    selected <+: files.filter (· ∉ applied) := by
  unfold selectUpMigrations at h
  cases hname : target.filter (· ≠ "") with
  | none =>
    simp only [hname] at h
    cases h
    exact sliceTo_first _ _
  | some name =>
    simp only [hname] at h
    split_ifs at h
    · cases h
      exact (sliceTo_first _ _).trans (sliceThrough_first _ _)
    · cases h

theorem selectDownMigrations_first {files applied selected : List String} {target : Option String}
    {steps : Option ℤ} (h : selectDownMigrations files applied target steps = .ok selected) :
    selected <+: files.reverse.filter (· ∈ applied) := by
  unfold selectDownMigrations at h
  cases hname : target.filter (· ≠ "") with
  | none =>
    simp only [hname] at h
    cases h
    exact sliceTo_first _ _
  | some name =>
    simp only [hname] at h
    by_cases hmem : name ∈ files.reverse.filter (· ∈ applied)
    · rw [if_pos hmem] at h
      cases h
      exact (sliceTo_first _ _).trans (sliceThrough_first _ _)
    · rw [if_neg hmem] at h
      cases h

section prefixes
variable {done todo applied : List String}

theorem filter_pending (hapart : (done ++ todo).Nodup) (h : ∀ v, v ∈ applied ↔ v ∈ done) :
    (done ++ todo).filter (· ∉ applied) = todo := by
  have hdisjoint := List.disjoint_of_nodup_append hapart
  rw [List.filter_append, List.filter_eq_nil_iff.mpr, List.filter_eq_self.mpr, List.nil_append]
  · intro v hv
    simpa [h] using fun hdone => hdisjoint hdone hv
  · intro v hv
    simpa [h] using hv

theorem filter_applied (hapart : (done ++ todo).Nodup) (h : ∀ v, v ∈ applied ↔ v ∈ done) :
    (done ++ todo).reverse.filter (· ∈ applied) = done.reverse := by
  have hdisjoint := List.disjoint_of_nodup_append hapart
  rw [List.reverse_append, List.filter_append, List.filter_eq_nil_iff.mpr, List.filter_eq_self.mpr,
    List.nil_append]
  · intro v hv
    simpa [h] using hv
  · intro v hv hv'
    exact hdisjoint ((h v).mp (by simpa using hv')) (List.mem_reverse.mp hv)

end prefixes

/-! ## The invariant -/

/-- The sorted files are those that are applied, with the checksums they have, and the rest. -/
structure PrefixApplied (computeChecksum : String → String) (dir : MigrationsDir)
    (done todo : List String) (db : Database) : Prop where
  files : getSortedMigrationFiles dir = done ++ todo
  applied : ∀ v, v ∈ db.versions ↔ v ∈ done
  checksums : ∀ record ∈ db.records,
    record.checksum = (dir.content? record.version).map computeChecksum
  history : ∀ v, AppliedBy db.log v ↔ v ∈ db.versions
  alternates : Alternates db.log

def HasPrefix (computeChecksum : String → String) (dir : MigrationsDir) (db : Database) : Prop :=
  ∃ done todo, PrefixApplied computeChecksum dir done todo db

section invariant
variable {computeChecksum : String → String} {dir : MigrationsDir} {done todo : List String}
  {db : Database}

theorem prefixApplied_empty : PrefixApplied computeChecksum dir [] (getSortedMigrationFiles dir) .empty where
  files := rfl
  applied := fun _ => Iff.rfl
  checksums := fun _ h => absurd h List.not_mem_nil
  history := by
    intro v
    constructor
    · rintro ⟨before, entry, after, hlog, -⟩
      exact absurd hlog (by simp [Database.empty])
    · intro h
      exact absurd h List.not_mem_nil
  alternates := by
    intro before entry after hlog
    exact absurd hlog (by simp [Database.empty])

theorem PrefixApplied.nodup (h : PrefixApplied computeChecksum dir done todo db) :
    (done ++ todo).Nodup := h.files ▸ sorted_nodup dir

theorem PrefixApplied.up {f : String} (h : PrefixApplied computeChecksum dir done (f :: todo) db)
    (hok : (sqlToExecute dir f "up").isOk = true) :
    PrefixApplied computeChecksum dir (done ++ [f]) todo
      (effect computeChecksum dir db (.runMigration f "up")) := by
  have hnot : f ∉ db.versions := by
    rw [h.applied]
    exact fun hf => List.disjoint_of_nodup_append h.nodup hf List.mem_cons_self
  rw [effect, if_pos hok, if_pos rfl]
  constructor
  · rw [h.files]
    simp
  · intro v
    have happlied := h.applied v
    rw [Database.mem_upsert_versions]
    change v = f ∨ v ∈ db.versions ↔ _
    rw [happlied, List.mem_append, List.mem_singleton, or_comm]
  · intro record hrecord
    rcases List.mem_append.mp hrecord with hrecord | hrecord
    · exact h.checksums record (List.mem_filter.mp hrecord).1
    · rw [List.mem_singleton.mp hrecord]
  · intro v
    have hhistory := h.history v
    rw [Database.mem_upsert_versions]
    change AppliedBy (db.log ++ [_]) v ↔ v = f ∨ v ∈ db.versions
    rw [appliedBy_concat, hhistory]
    simp [eq_comm]
  · apply h.alternates.concat
    · intro _
      rw [h.history]
      exact hnot
    · intro hdown
      exact absurd hdown (by simp)

theorem PrefixApplied.down {f : String} (h : PrefixApplied computeChecksum dir (done ++ [f]) todo db)
    (hok : (sqlToExecute dir f "down").isOk = true) :
    PrefixApplied computeChecksum dir done (f :: todo)
      (effect computeChecksum dir db (.runMigration f "down")) := by
  have hin : f ∈ db.versions := by
    rw [h.applied]
    simp
  have hnot : f ∉ done := by
    intro hf
    exact List.disjoint_of_nodup_append h.nodup.of_append_left hf (List.mem_singleton.mpr rfl)
  rw [effect, if_pos hok, if_neg (by decide), if_pos rfl]
  constructor
  · rw [h.files]
    simp
  · intro v
    have happlied := h.applied v
    rw [Database.mem_delete_versions]
    change v ≠ f ∧ v ∈ db.versions ↔ _
    rw [happlied, List.mem_append, List.mem_singleton]
    constructor
    · rintro ⟨hne, hv⟩
      exact hv.resolve_right hne
    · intro hv
      exact ⟨fun heq => hnot (heq ▸ hv), .inl hv⟩
  · intro record hrecord
    exact h.checksums record (List.mem_filter.mp hrecord).1
  · intro v
    have hhistory := h.history v
    rw [Database.mem_delete_versions]
    change AppliedBy (db.log ++ [_]) v ↔ v ≠ f ∧ v ∈ db.versions
    rw [appliedBy_concat, hhistory]
    simp [and_comm, eq_comm]
  · apply h.alternates.concat
    · intro hup
      exact absurd hup (by simp)
    · intro _
      rw [h.history]
      exact hin

/-- Nothing that is left stands before what is applied, and no file has changed. -/
theorem PrefixApplied.valid (h : PrefixApplied computeChecksum dir done todo db)
    (hapart : NumbersApart (getSortedMigrationFiles dir))
    (hcomplete : NumbersComplete (getSortedMigrationFiles dir)) :
    validateMigrationSequence computeChecksum dir (getSortedMigrationFiles dir) db.versions
      db.records = .ok () := by
  rw [validateMigrationSequence_ok computeChecksum (sorted_nodup dir)]
  refine ⟨hapart, fun _ => hcomplete, ?_, ?_⟩
  · intro f hf hnot v hv a b ha hb
    have hsorted := sorted_pairwise dir
    rw [h.files] at hsorted hf
    rw [h.applied] at hnot hv
    have hrest : f ∈ todo := (List.mem_append.mp hf).resolve_left hnot
    exact ((List.pairwise_append.mp hsorted).2.2 v hv f hrest).number_le hb ha
  · intro record hrecord content expected hcontent hexpected _
    have hsum := h.checksums record hrecord
    rw [hcontent, hexpected] at hsum
    exact (Option.some.inj hsum).symm

inductive Remaining (computeChecksum : String → String) (dir : MigrationsDir) (direction : String)
    (goal rest : List String) (db : Database) : Prop
  | up (done todo : List String) (h : PrefixApplied computeChecksum dir done todo db)
      (hdirection : direction = "up") (hrest : rest <+: todo) (hgoal : done ++ rest = goal)
  | down (done todo : List String) (h : PrefixApplied computeChecksum dir done todo db)
      (hdirection : direction = "down") (hrest : rest <+: done.reverse)

theorem Remaining.hasPrefix {direction : String} {goal rest : List String}
    (h : Remaining computeChecksum dir direction goal rest db) : HasPrefix computeChecksum dir db := by
  cases h with
  | up done todo h => exact ⟨done, todo, h⟩
  | down done todo h => exact ⟨done, todo, h⟩

/-- What is taken back first is the last one. -/
theorem eq_concat_of_prefix {f : String} {rest : List String} (h : f :: rest <+: done.reverse) :
    ∃ before, done = before ++ [f] ∧ rest <+: before.reverse := by
  obtain ⟨more, hmore⟩ := h
  refine ⟨(rest ++ more).reverse, ?_, ?_⟩
  · rw [← List.reverse_reverse done, ← hmore]
    simp
  · rw [List.reverse_reverse]
    exact List.prefix_append rest more

theorem Remaining.step {direction f : String} {goal rest : List String}
    (h : Remaining computeChecksum dir direction goal (f :: rest) db)
    (hok : (sqlToExecute dir f direction).isOk = true) :
    Remaining computeChecksum dir direction goal rest
      (effect computeChecksum dir db (.runMigration f direction)) := by
  cases h with
  | up done todo h hdirection hrest hgoal =>
    subst hdirection
    obtain ⟨more, rfl⟩ := hrest
    apply Remaining.up (done ++ [f]) (rest ++ more) (h.up hok) rfl (List.prefix_append rest more)
    rw [← hgoal]
    simp
  | down done todo h hdirection hrest =>
    subst hdirection
    obtain ⟨before, rfl, hprefix⟩ := eq_concat_of_prefix hrest
    exact Remaining.down before (f :: todo) (h.down hok) rfl hprefix

/-- What an invocation selects continues the prefix, or takes it back from its end. -/
theorem PrefixApplied.plan {direction : String} {applied selected : List String} {steps : Option ℤ}
    {target : Option String} (h : PrefixApplied computeChecksum dir done todo db)
    (happlied : ∀ v, v ∈ applied ↔ v ∈ db.versions)
    (hplan : Plans dir applied direction steps target selected) :
    Remaining computeChecksum dir direction (done ++ selected) selected db := by
  have hiff : ∀ v, v ∈ applied ↔ v ∈ done := fun v => (happlied v).trans (h.applied v)
  rcases hplan with ⟨hup, hselected⟩ | ⟨hdown, hselected⟩
  · have hfirst := selectUpMigrations_first hselected
    rw [h.files, filter_pending h.nodup hiff] at hfirst
    exact .up done todo h hup hfirst rfl
  · have hfirst := selectDownMigrations_first hselected
    rw [h.files, filter_applied h.nodup hiff] at hfirst
    exact .down done todo h hdown hfirst

/-- An invocation keeps the invariant, wherever it stops. -/
theorem HasPrefix.afterRun (h : HasPrefix computeChecksum dir db) (inv : Invocation) :
    HasPrefix computeChecksum dir (afterRun computeChecksum dir inv db) := by
  apply afterRun_invariant h
  intro applied selected hvalid hplan
  obtain ⟨done, todo, hfirst⟩ := h
  refine ⟨Remaining computeChecksum dir inv.direction (done ++ selected), ?_, ?_, ?_⟩
  · exact hfirst.plan hvalid.applied_iff hplan
  · exact fun rest db hrest => hrest.hasPrefix
  · exact fun f rest db hrest => hrest.step

theorem HasPrefix.afterRuns (h : HasPrefix computeChecksum dir db) (runs : List Invocation) :
    HasPrefix computeChecksum dir
      (afterRuns computeChecksum db (runs.map (fun inv => (dir, inv)))) := by
  induction runs generalizing db with
  | nil => exact h
  | cons inv runs ih => exact ih (h.afterRun inv)

/-! ## Up to a target -/

theorem sliceThrough_eq {target : String} {before after : List String} (h : target ∉ before) :
    sliceThrough target (before ++ target :: after) = before ++ [target] := by
  rw [sliceThrough, List.idxOf_append_of_notMem h, List.idxOf_cons_self, Nat.add_zero,
    List.take_length_add_append]
  rfl

theorem ne_empty_of_mem {f : String} (h : f ∈ getSortedMigrationFiles dir) : f ≠ "" := by
  rintro rfl
  rw [getSortedMigrationFiles, List.mem_insertionSort, List.mem_filter] at h
  exact absurd h.2 (by decide)

theorem PrefixApplied.selectUp {applied before after : List String} {target : String}
    (h : PrefixApplied computeChecksum dir done (before ++ target :: after) db)
    (happlied : ∀ v, v ∈ applied ↔ v ∈ db.versions) (htarget : target ∉ before) :
    selectUpMigrations (getSortedMigrationFiles dir) applied (some target) none =
      .ok (some (before ++ [target])) := by
  have hmem : target ∈ getSortedMigrationFiles dir := by
    rw [h.files]
    simp
  have hname : (some target).filter (· ≠ "") = some target := by
    simp [ne_empty_of_mem hmem]
  have hpending := filter_pending h.nodup (fun v => (happlied v).trans (h.applied v))
  rw [← h.files] at hpending
  simp only [selectUpMigrations, hname, hpending, sliceTo, sliceThrough_eq htarget]
  rw [if_pos (by simp)]

/-- An `up` that returns has applied all the files through its target. -/
theorem PrefixApplied.upThrough {before after : List String} {target : String} {fates : List Fate}
    {processed : List String} {t : Session}
    (h : PrefixApplied computeChecksum dir done (before ++ target :: after) db)
    (htarget : target ∉ before)
    (hrun : Program.execute (handler computeChecksum dir)
      (applyMigrations computeChecksum dir "up" none false (some target)) ⟨db, fates⟩ =
      (.ok processed, t)) :
    ∀ v, v ∈ t.database.versions ↔ v ∈ done ++ (before ++ [target]) := by
  have hthroughout : Program.Throughout (handler computeChecksum dir)
      (fun t => HasPrefix computeChecksum dir t.database)
      (applyMigrations computeChecksum dir "up" none false (some target)) ⟨db, fates⟩
      (fun _ t => ∀ v, v ∈ t.database.versions ↔ v ∈ done ++ (before ++ [target])) := by
    apply applyMigrations_throughout ⟨_, _, h⟩
    · intro applied hvalid _ hnone
      rw [h.selectUp hvalid.applied_iff htarget] at hnone
      cases hnone
    · rintro applied selected hvalid hplan t rfl
      have hstart := h.plan hvalid.applied_iff hplan
      rcases hplan with ⟨-, hselected⟩ | ⟨hdirection, -⟩
      · rw [h.selectUp hvalid.applied_iff htarget] at hselected
        cases hselected
        have hloop := processMigrations_throughout
          (J := Remaining computeChecksum dir "up" (done ++ (before ++ [target])))
          (fun rest db hrest => hrest.hasPrefix) (fun f rest db hrest => hrest.step) _ t hstart
        apply hloop.mono
        intro processed u hend
        cases hend with
        | up done' todo' hfirst _ _ hgoal =>
          rw [List.append_nil] at hgoal
          rw [← hgoal]
          exact hfirst.applied
        | down done' todo' _ hdirection => exact absurd hdirection (by decide)
      · exact absurd hdirection (by decide)
  exact hthroughout.2 processed t hrun

end invariant

/-- Over all invocations one after the other, wherever each of them stops: the applied versions are
a prefix of the sorted files, the validator accepts them, scripts are run up and down in turn, and
a successful `up` to a pending target leaves the prefix that ends in it. -/
theorem applied_prefix_always (computeChecksum : String → String) (dir : MigrationsDir)
    (hapart : NumbersApart (getSortedMigrationFiles dir))
    (hcomplete : NumbersComplete (getSortedMigrationFiles dir)) (runs : List Invocation) :
    let files := getSortedMigrationFiles dir
    let db := afterRuns computeChecksum .empty (runs.map (fun inv => (dir, inv)))
    (∃ done todo, files = done ++ todo ∧ ∀ v, v ∈ db.versions ↔ v ∈ done) ∧
    validateMigrationSequence computeChecksum dir files db.versions db.records = .ok () ∧
    Alternates db.log ∧ (∀ v, AppliedBy db.log v ↔ v ∈ db.versions) ∧
    ∀ target fates processed t, target ∈ files → target ∉ db.versions →
      Program.execute (handler computeChecksum dir)
        (applyMigrations computeChecksum dir "up" none false (some target)) ⟨db, fates⟩ =
        (.ok processed, t) →
      ∃ before after, files = before ++ target :: after ∧
        ∀ v, v ∈ t.database.versions ↔ v ∈ before ++ [target] := by
  intro files db
  have hempty : HasPrefix computeChecksum dir .empty := ⟨_, _, prefixApplied_empty⟩
  obtain ⟨done, todo, h⟩ := hempty.afterRuns runs
  refine ⟨⟨done, todo, h.files, h.applied⟩, h.valid hapart hcomplete, h.alternates, h.history, ?_⟩
  intro target fates processed t hmem hnot hrun
  have htodo : target ∈ todo := by
    rw [show files = done ++ todo from h.files] at hmem
    exact (List.mem_append.mp hmem).resolve_left (fun hdone => hnot ((h.applied target).mpr hdone))
  obtain ⟨before, after, rfl, hbefore⟩ := List.eq_append_cons_of_mem htodo
  refine ⟨done ++ before, after, ?_, fun v => ?_⟩
  · rw [List.append_assoc]
    exact h.files
  · rw [List.append_assoc]
    exact h.upThrough hbefore hrun v

def twoMigrations : MigrationsDir where
  files := [("002_posts.sql", "CREATE TABLE posts ();\n-- down\nDROP TABLE posts;"),
    ("001_users.sql", "CREATE TABLE users ();\n-- down\nDROP TABLE users;")]
  namesApart := by decide

theorem twoMigrations_valid : validateMigrationSequence id twoMigrations
    (getSortedMigrationFiles twoMigrations)
    (afterRuns id .empty [(twoMigrations, ⟨"up", none, false, none, [], 8⟩),
      (twoMigrations, ⟨"down", some 2, false, none, [.done, .done, .done, .done, .failed], 8⟩)]).versions
    (afterRuns id .empty [(twoMigrations, ⟨"up", none, false, none, [], 8⟩),
      (twoMigrations, ⟨"down", some 2, false, none, [.done, .done, .done, .done, .failed], 8⟩)]).records =
      .ok () := by
  have hapart : NumbersApart (getSortedMigrationFiles twoMigrations) :=
    (checkDuplicateSequenceNumbers_ok (sorted_nodup _)).mp (by decide)
  have hcomplete : NumbersComplete (getSortedMigrationFiles twoMigrations) :=
    missing_eq_nil_iff.mp (by decide)
  exact (applied_prefix_always id twoMigrations hapart hcomplete
    [⟨"up", none, false, none, [], 8⟩,
      ⟨"down", some 2, false, none, [.done, .done, .done, .done, .failed], 8⟩]).2.1

end FastapiTemplate.Migrations
