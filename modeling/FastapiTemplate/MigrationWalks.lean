import FastapiTemplate.MigrationRuns
import Mathlib.Data.List.Induction

/-!
# The scripts that runs leave behind

With a fixed set of files, the log of a run steps along the sorted files: every script that was run
up is that of the first file that was not applied, and every script that was run down that of the
last one that was. So a log alone tells the version at each of its entries.
-/

namespace FastapiTemplate.Migrations

/-- The scripts of the log lead from the empty schema to the one with `n` files applied. -/
inductive Walk (files : List String) : List LogEntry → ℕ → Prop
  | nil : Walk files [] 0
  | up {log : List LogEntry} {n : ℕ} {entry : LogEntry} (h : Walk files log n)
      (hup : entry.direction = "up") (hfile : files[n]? = some entry.version) :
      Walk files (log ++ [entry]) (n + 1)
  | down {log : List LogEntry} {n : ℕ} {entry : LogEntry} (h : Walk files log (n + 1))
      (hdown : entry.direction = "down") (hfile : files[n]? = some entry.version) :
      Walk files (log ++ [entry]) n

section walk
variable {files : List String} {log before after : List LogEntry} {entry : LogEntry} {n : ℕ}

/-- What the last entry of a walk did. -/
theorem Walk.last (h : Walk files (log ++ [entry]) n) :
    (∃ m, n = m + 1 ∧ Walk files log m ∧ entry.direction = "up" ∧ files[m]? = some entry.version) ∨
      (Walk files log (n + 1) ∧ entry.direction = "down" ∧ files[n]? = some entry.version) := by
  generalize hlog : log ++ [entry] = log' at h
  cases h with
  | nil => exact absurd hlog (by simp)
  | up h hup hfile =>
    obtain ⟨rfl, hentry⟩ := List.append_inj' hlog rfl
    cases hentry
    exact .inl ⟨_, rfl, h, hup, hfile⟩
  | down h hdown hfile =>
    obtain ⟨rfl, hentry⟩ := List.append_inj' hlog rfl
    cases hentry
    exact .inr ⟨h, hdown, hfile⟩

theorem Walk.front (h : Walk files (before ++ after) n) : ∃ m, Walk files before m := by
  induction after using List.reverseRecOn generalizing n with
  | nil =>
    rw [List.append_nil] at h
    exact ⟨n, h⟩
  | append_singleton after entry ih =>
    rw [← List.append_assoc] at h
    rcases h.last with ⟨m, -, h, -⟩ | ⟨h, -⟩
    · exact ih h
    · exact ih h

theorem Walk.le_length (h : Walk files log n) : n ≤ files.length := by
  induction h with
  | nil => exact Nat.zero_le _
  | up _ _ hfile _ => exact (List.getElem?_eq_some_iff.mp hfile).1
  | down _ _ _ ih => exact Nat.le_of_succ_le ih

end walk

/-! ## Every run leaves a walk -/

/-- The log leads to as many files as there are versions. -/
def Walks (dir : MigrationsDir) (db : Database) : Prop :=
  Walk (getSortedMigrationFiles dir) db.log db.versions.length

section runs
variable {computeChecksum : String → String} {dir : MigrationsDir} {done todo : List String}
  {db : Database}

theorem PrefixApplied.length (h : PrefixApplied computeChecksum dir done todo db) :
    db.versions.length = done.length := by
  have hdone : done.Nodup := (List.nodup_append.mp h.nodup).1
  exact ((List.perm_ext_iff_of_nodup db.versionsApart hdone).mpr h.applied).length_eq

theorem PrefixApplied.walksUp {f : String} (h : PrefixApplied computeChecksum dir done (f :: todo) db)
    (hwalk : Walks dir db) (hok : (sqlToExecute dir f "up").isOk = true) :
    Walks dir (effect computeChecksum dir db (.runMigration f "up")) := by
  have hnext := (h.up hok).length
  unfold Walks
  rw [hnext, List.length_append, List.length_singleton]
  rw [Walks, h.length] at hwalk
  have hlog : (effect computeChecksum dir db (.runMigration f "up")).log =
      db.log ++ [⟨"up", f, db.versions, getSortedMigrationFiles dir⟩] := by
    rw [effect, if_pos hok, if_pos rfl]
    rfl
  rw [hlog]
  apply hwalk.up rfl
  rw [h.files, List.getElem?_append_right (Nat.le_refl _), Nat.sub_self]
  rfl

theorem PrefixApplied.walksDown {f : String}
    (h : PrefixApplied computeChecksum dir (done ++ [f]) todo db) (hwalk : Walks dir db)
    (hok : (sqlToExecute dir f "down").isOk = true) :
    Walks dir (effect computeChecksum dir db (.runMigration f "down")) := by
  have hnext := (h.down hok).length
  unfold Walks
  rw [hnext]
  rw [Walks, h.length, List.length_append, List.length_singleton] at hwalk
  have hlog : (effect computeChecksum dir db (.runMigration f "down")).log =
      db.log ++ [⟨"down", f, db.versions, getSortedMigrationFiles dir⟩] := by
    rw [effect, if_pos hok, if_neg (by decide), if_pos rfl]
    rfl
  rw [hlog]
  apply hwalk.down rfl
  rw [h.files, List.append_assoc, List.getElem?_append_right (Nat.le_refl _), Nat.sub_self]
  rfl

theorem Remaining.walks {direction f : String} {goal rest : List String}
    (h : Remaining computeChecksum dir direction goal (f :: rest) db) (hwalk : Walks dir db)
    (hok : (sqlToExecute dir f direction).isOk = true) :
    Walks dir (effect computeChecksum dir db (.runMigration f direction)) := by
  cases h with
  | up done todo h hdirection hrest _ =>
    subst hdirection
    obtain ⟨more, rfl⟩ := hrest
    exact h.walksUp hwalk hok
  | down done todo h hdirection hrest =>
    subst hdirection
    obtain ⟨before, rfl, -⟩ := eq_concat_of_prefix hrest
    exact h.walksDown hwalk hok

theorem walks_afterRun (h : HasPrefix computeChecksum dir db) (hwalk : Walks dir db)
    (inv : Invocation) : HasPrefix computeChecksum dir (afterRun computeChecksum dir inv db) ∧
      Walks dir (afterRun computeChecksum dir inv db) := by
  let Inv := fun db => HasPrefix computeChecksum dir db ∧ Walks dir db
  have hboth : Inv db := ⟨h, hwalk⟩
  refine (afterRun_invariant hboth (fun applied selected hvalid hplan => ?_) : Inv _)
  obtain ⟨done, todo, hfirst⟩ := h
  refine ⟨fun rest db =>
    Remaining computeChecksum dir inv.direction (done ++ selected) rest db ∧ Walks dir db, ?_, ?_, ?_⟩
  · exact ⟨hfirst.plan hvalid.applied_iff hplan, hwalk⟩
  · exact fun rest db hrest => ⟨hrest.1.hasPrefix, hrest.2⟩
  · exact fun f rest db hrest hok => ⟨hrest.1.step hok, hrest.1.walks hrest.2 hok⟩

/-- Wherever the invocations stop, the scripts that were run are a walk. -/
theorem walks_afterRuns (computeChecksum : String → String) (dir : MigrationsDir)
    (runs : List Invocation) :
    Walks dir (afterRuns computeChecksum .empty (runs.map (fun inv => (dir, inv)))) := by
  have hrun (db : Database) (h : HasPrefix computeChecksum dir db) (hwalk : Walks dir db) :
      Walks dir (afterRuns computeChecksum db (runs.map (fun inv => (dir, inv)))) := by
    induction runs generalizing db with
    | nil => exact hwalk
    | cons inv runs ih =>
      obtain ⟨hnext, hnextWalk⟩ := walks_afterRun h hwalk inv
      exact ih _ hnext hnextWalk
  exact hrun .empty ⟨_, _, prefixApplied_empty⟩ Walk.nil

end runs
end FastapiTemplate.Migrations
