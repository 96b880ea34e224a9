import FastapiTemplate.TransitionRuns
import Mathlib.Tactic.Tauto

/-!
# What holds since a step of a run

A property of states that some steps bring about and others end holds after a run if and only if a
step of the run brought it about, or the start had it, and no step since has ended it.
-/

namespace FastapiTemplate

variable {S L : Type} {step : S → L → S} {P : S → Prop} {Starts Ends : S → L → Prop}

/-- A step of the run starts the property, and no later step ends it. -/
def Since (step : S → L → S) (Starts Ends : S → L → Prop) (s : S) (ls : List L) : Prop :=
  ∃ before l after, ls = before ++ l :: after ∧ Starts (run step s before) l ∧
    EveryStep step (fun x m => ¬ Ends x m) (step (run step s before) l) after

theorem since_cons_iff {s : S} {l : L} {ls : List L} : Since step Starts Ends s (l :: ls) ↔
    (Starts s l ∧ EveryStep step (fun x m => ¬ Ends x m) (step s l) ls) ∨
      Since step Starts Ends (step s l) ls := by
  constructor
  · rintro ⟨before, m, after, hsplit, hstarts, hkeeps⟩
    cases before with
    | nil =>
      obtain ⟨rfl, rfl⟩ := List.cons.inj hsplit
      exact .inl ⟨hstarts, hkeeps⟩
    | cons first before =>
      obtain ⟨rfl, rfl⟩ := List.cons.inj hsplit
      exact .inr ⟨before, m, after, rfl, hstarts, hkeeps⟩
  · rintro (⟨hstarts, hkeeps⟩ | ⟨before, m, after, rfl, hstarts, hkeeps⟩)
    · exact ⟨[], l, ls, rfl, hstarts, hkeeps⟩
    · exact ⟨l :: before, m, after, rfl, hstarts, hkeeps⟩

/-- The rule: what each step does to the property says when it holds after a run. -/
theorem holds_run_iff (hstep : ∀ s l, P (step s l) ↔ Starts s l ∨ (P s ∧ ¬ Ends s l)) (s : S)
    (ls : List L) : P (run step s ls) ↔
      (P s ∧ EveryStep step (fun x m => ¬ Ends x m) s ls) ∨ Since step Starts Ends s ls := by
  induction ls generalizing s with
  | nil =>
    refine ⟨fun h => .inl ⟨h, trivial⟩, ?_⟩
    rintro (⟨h, -⟩ | ⟨before, l, after, hsplit, -⟩)
    · exact h
    · cases before <;> cases hsplit
  | cons l ls ih =>
    rw [run_cons, ih (step s l), hstep, since_cons_iff, everyStep_cons]
    tauto

/-- From a start that does not have the property. -/
theorem holds_run_iff_since (hstep : ∀ s l, P (step s l) ↔ Starts s l ∨ (P s ∧ ¬ Ends s l)) {s : S}
    (hs : ¬ P s) (ls : List L) : P (run step s ls) ↔ Since step Starts Ends s ls := by
  rw [holds_run_iff hstep, or_iff_right (fun h => hs h.1)]

end FastapiTemplate
