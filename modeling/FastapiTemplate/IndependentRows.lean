import FastapiTemplate.TransitionRuns

/-!
# Rows that live on their own

An operation on a list of rows may make a row, remove rows and edit rows, each row by itself, and
what it removes depends on nothing that an edit changes. A run leaves the rows that it made and has
not removed since, each with the edits since.
-/

namespace FastapiTemplate

structure RowActions (ρ L : Type) where
  makes : L → Option ρ
  removes : L → ρ → Bool
  edits : L → ρ → ρ
  removes_edits : ∀ l m r, removes l (edits m r) = removes l r

namespace RowActions

variable {ρ L : Type} (A : RowActions ρ L)

def step (rows : List ρ) (l : L) : List ρ :=
  (rows.filter (fun r => !A.removes l r)).map (A.edits l) ++ (A.makes l).toList

def edited (r : ρ) (ls : List L) : ρ := ls.foldl (fun r l => A.edits l r) r

@[simp] theorem edited_nil (r : ρ) : A.edited r [] = r := rfl

@[simp] theorem edited_cons (r : ρ) (l : L) (ls : List L) :
    A.edited r (l :: ls) = A.edited (A.edits l r) ls := rfl

def Spared (r : ρ) (ls : List L) : Prop := ∀ l ∈ ls, A.removes l r = false

theorem spared_cons {r : ρ} {l : L} {ls : List L} :
    A.Spared r (l :: ls) ↔ A.removes l r = false ∧ A.Spared (A.edits l r) ls := by
  rw [Spared, List.forall_mem_cons]
  simp only [Spared, A.removes_edits]

theorem mem_step_iff {rows : List ρ} {l : L} {r : ρ} : r ∈ A.step rows l ↔
    (∃ old ∈ rows, A.removes l old = false ∧ A.edits l old = r) ∨ A.makes l = some r := by
  simp only [step, List.mem_append, List.mem_map, List.mem_filter, Bool.not_eq_true', and_assoc,
    Option.mem_toList]

/-- An operation made the row, and no later one removed it. -/
def Left (ls : List L) (r : ρ) : Prop :=
  ∃ before l after made, ls = before ++ l :: after ∧ A.makes l = some made ∧ A.Spared made after ∧
    r = A.edited made after

theorem left_cons_iff {l : L} {ls : List L} {r : ρ} : A.Left (l :: ls) r ↔
    (∃ made, A.makes l = some made ∧ A.Spared made ls ∧ r = A.edited made ls) ∨ A.Left ls r := by
  constructor
  · rintro ⟨before, m, after, made, hsplit, hmade⟩
    cases before with
    | nil =>
      obtain ⟨rfl, rfl⟩ := List.cons.inj hsplit
      exact .inl ⟨made, hmade⟩
    | cons first before =>
      obtain ⟨rfl, rfl⟩ := List.cons.inj hsplit
      exact .inr ⟨before, m, after, made, rfl, hmade⟩
  · rintro (⟨made, hmade⟩ | ⟨before, m, after, made, rfl, hmade⟩)
    · exact ⟨[], l, ls, made, rfl, hmade⟩
    · exact ⟨l :: before, m, after, made, rfl, hmade⟩

/-- After a run a row is one of the first rows that no operation removed, or one that was made
during the run and not removed since. -/
theorem mem_run_iff (rows : List ρ) (ls : List L) (r : ρ) : r ∈ run A.step rows ls ↔
    (∃ old ∈ rows, A.Spared old ls ∧ r = A.edited old ls) ∨ A.Left ls r := by
  induction ls generalizing rows with
  | nil =>
    constructor
    · exact fun h => .inl ⟨r, h, fun _ hl => absurd hl List.not_mem_nil, rfl⟩
    · rintro (⟨old, hold, -, rfl⟩ | ⟨before, l, after, made, hsplit, -⟩)
      · exact hold
      · cases before <;> cases hsplit
  | cons l ls ih =>
    rw [run_cons, ih, left_cons_iff]
    constructor
    · rintro (⟨next, hnext, hspared, rfl⟩ | hleft)
      · rcases A.mem_step_iff.mp hnext with ⟨old, hold, hkept, rfl⟩ | hmade
        · exact .inl ⟨old, hold, A.spared_cons.mpr ⟨hkept, hspared⟩, rfl⟩
        · exact .inr (.inl ⟨next, hmade, hspared, rfl⟩)
      · exact .inr (.inr hleft)
    · rintro (⟨old, hold, hspared, rfl⟩ | ⟨made, hmade, hspared, rfl⟩ | hleft)
      · obtain ⟨hkept, hspared⟩ := A.spared_cons.mp hspared
        exact .inl ⟨_, A.mem_step_iff.mpr (.inl ⟨old, hold, hkept, rfl⟩), hspared, rfl⟩
      · exact .inl ⟨made, A.mem_step_iff.mpr (.inr hmade), hspared, rfl⟩
      · exact .inr hleft

/-- What a run from no rows leaves. -/
theorem mem_run_nil_iff (ls : List L) (r : ρ) : r ∈ run A.step [] ls ↔ A.Left ls r := by
  rw [mem_run_iff]
  constructor
  · rintro (⟨old, hold, -⟩ | hleft)
    · exact absurd hold List.not_mem_nil
    · exact hleft
  · exact .inr

end RowActions

end FastapiTemplate
