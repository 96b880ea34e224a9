import Mathlib.Logic.Function.Basic

/-!
# Conditions on independent parts

A value has independent parts, and a condition on it is a condition on each part. Two conditions
admit the same values if and only if they agree on every part, or both admit nothing.
-/

namespace FastapiTemplate.IndependentParts

variable {ι : Type} {X : ι → Type} {A B : ∀ i, X i → Prop}

theorem exists_forall_of_not_empty (h : ¬ ∃ i, ∀ v, ¬ A i v) : ∃ x : ∀ i, X i, ∀ i, A i (x i) := by
  have hsome : ∀ i, ∃ v, A i v := by
    intro i
    by_contra hnone
    exact h ⟨i, not_exists.mp hnone⟩
  exact ⟨fun i => (hsome i).choose, fun i => (hsome i).choose_spec⟩

/-- Where neither condition is empty, each part can be changed alone. -/
theorem imp_of_update [DecidableEq ι] (h : ∀ x : ∀ i, X i, (∀ i, A i (x i)) → ∀ i, B i (x i))
    {x : ∀ i, X i} (hx : ∀ i, A i (x i)) {i : ι} {v : X i} (hv : A i v) : B i v := by
  have hupdated : ∀ j, A j (Function.update x i v j) := by
    intro j
    by_cases hj : j = i
    · subst hj
      rw [Function.update_self]
      exact hv
    · rw [Function.update_of_ne hj]
      exact hx j
  have hresult := h _ hupdated i
  rwa [Function.update_self] at hresult

theorem forall_iff_forall [DecidableEq ι] :
    (∀ x : ∀ i, X i, (∀ i, A i (x i)) ↔ ∀ i, B i (x i)) ↔
      (∀ i v, A i v ↔ B i v) ∨ ((∃ i, ∀ v, ¬ A i v) ∧ ∃ i, ∀ v, ¬ B i v) := by
  constructor
  · intro h
    by_cases hA : ∃ i, ∀ v, ¬ A i v
    · refine .inr ⟨hA, ?_⟩
      by_contra hB
      obtain ⟨x, hx⟩ := exists_forall_of_not_empty hB
      obtain ⟨i, hi⟩ := hA
      exact hi (x i) ((h x).mpr hx i)
    · obtain ⟨x, hx⟩ := exists_forall_of_not_empty hA
      refine .inl (fun i v => ⟨?_, ?_⟩)
      · exact imp_of_update (fun y => (h y).mp) hx
      · exact imp_of_update (fun y => (h y).mpr) ((h x).mp hx)
  · rintro (h | ⟨⟨i, hi⟩, j, hj⟩) x
    · exact forall_congr' (fun i => h i (x i))
    · exact iff_of_false (fun hall => hi _ (hall i)) (fun hall => hj _ (hall j))

/-- The parts on which both conditions are empty need not be looked at. -/
theorem forall_iff_forall_of_agree [DecidableEq ι] {Agree : ι → Prop}
    (hagree : ∀ i, (∀ v, A i v ↔ B i v) ↔ Agree i ∨ ((∀ v, ¬ A i v) ∧ ∀ v, ¬ B i v)) :
    (∀ x : ∀ i, X i, (∀ i, A i (x i)) ↔ ∀ i, B i (x i)) ↔
      (∀ i, Agree i) ∨ ((∃ i, ∀ v, ¬ A i v) ∧ ∃ i, ∀ v, ¬ B i v) := by
  rw [forall_iff_forall]
  constructor
  · rintro (h | h)
    · by_cases hboth : ∃ i, (∀ v, ¬ A i v) ∧ ∀ v, ¬ B i v
      · obtain ⟨i, hA, hB⟩ := hboth
        exact .inr ⟨⟨i, hA⟩, i, hB⟩
      · refine .inl (fun i => ((hagree i).mp (h i)).resolve_right ?_)
        exact fun hi => hboth ⟨i, hi⟩
    · exact .inr h
  · rintro (h | h)
    · exact .inl (fun i => (hagree i).mpr (.inl (h i)))
    · exact .inr h

/-! ## A first part -/

section first
variable {β : Type} {C D : β → Prop}

def WithFirst (β : Type) (X : ι → Type) : Option ι → Type
  | none => β
  | some i => X i

def onParts (C : β → Prop) (A : ∀ i, X i → Prop) : ∀ i, WithFirst β X i → Prop
  | none => C
  | some i => A i

def join (v : β) (x : ∀ i, X i) : ∀ i, WithFirst β X i
  | none => v
  | some i => x i

theorem forall_first_iff_of_agree [DecidableEq ι] {First : Prop} {Agree : ι → Prop}
    (hfirst : (∀ v, C v ↔ D v) ↔ First ∨ ((∀ v, ¬ C v) ∧ ∀ v, ¬ D v))
    (hagree : ∀ i, (∀ v, A i v ↔ B i v) ↔ Agree i ∨ ((∀ v, ¬ A i v) ∧ ∀ v, ¬ B i v)) :
    (∀ v (x : ∀ i, X i), (C v ∧ ∀ i, A i (x i)) ↔ (D v ∧ ∀ i, B i (x i))) ↔
      (First ∧ ∀ i, Agree i) ∨ (((∀ v, ¬ C v) ∨ ∃ i, ∀ v, ¬ A i v) ∧
        ((∀ v, ¬ D v) ∨ ∃ i, ∀ v, ¬ B i v)) := by
  have hparts : (∀ x : ∀ i, WithFirst β X i, (∀ i, onParts C A i (x i)) ↔
      ∀ i, onParts D B i (x i)) ↔ (∀ i : Option ι, i.elim First Agree) ∨
        ((∃ i, ∀ v, ¬ onParts C A i v) ∧ ∃ i, ∀ v, ¬ onParts D B i v) := by
    refine forall_iff_forall_of_agree (fun i => ?_)
    cases i with
    | none => exact hfirst
    | some i => exact hagree i
  simp only [Option.forall, Option.exists] at hparts
  refine Iff.trans ⟨fun h x => ?_, fun h v x => ?_⟩ hparts
  · exact h (x none) (fun i => x (some i))
  · exact h (join v x)

end first

end FastapiTemplate.IndependentParts
