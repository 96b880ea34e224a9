import Mathlib.Data.List.Basic

/-!
# Runs of a labelled transition function

`run step s ls` applies the labels `ls` in order. `RunsWhere step ok s t` is the
reachability relation of the runs whose every step meets the condition `ok` in
the state it is taken from; with `ok` always true it is plain reachability.
-/

namespace FastapiTemplate

variable {S L : Type}

def run (step : S → L → S) (s : S) (ls : List L) : S := ls.foldl step s

section run
variable (step : S → L → S)

@[simp] theorem run_cons (s : S) (l : L) (ls : List L) :
    run step s (l :: ls) = run step (step s l) ls := rfl

theorem run_append (s : S) (ls ms : List L) :
    run step s (ls ++ ms) = run step (run step s ls) ms := List.foldl_append

end run

/-- States reached from `s` by steps that each meet `ok` where they are taken. -/
inductive RunsWhere (step : S → L → S) (ok : S → L → Prop) (s : S) : S → Prop
  | refl : RunsWhere step ok s s
  | tail {t : S} (l : L) (h : RunsWhere step ok s t) (hok : ok t l) : RunsWhere step ok s (step t l)

namespace RunsWhere

variable {step : S → L → S} {ok ok' : S → L → Prop} {s t u : S}

theorem head (l : L) (hok : ok s l) (h : RunsWhere step ok (step s l) t) :
    RunsWhere step ok s t := by
  induction h with
  | refl => exact .tail l .refl hok
  | tail l' _ hok' ih => exact .tail l' ih hok'

theorem trans (hst : RunsWhere step ok s t) (htu : RunsWhere step ok t u) :
    RunsWhere step ok s u := by
  induction htu with
  | refl => exact hst
  | tail l _ hok ih => exact .tail l ih hok

theorem mono (h : RunsWhere step ok s t) (hok : ∀ x l, ok x l → ok' x l) :
    RunsWhere step ok' s t := by
  induction h with
  | refl => exact .refl
  | tail l _ hl ih => exact .tail l ih (hok _ l hl)

/-- The invariant rule: what the start has and every permitted step keeps, every
reached state has. -/
theorem invariant {I : S → Prop} (h : RunsWhere step ok s t) (hs : I s)
    (hstep : ∀ x l, ok x l → I x → I (step x l)) : I t := by
  induction h with
  | refl => exact hs
  | tail l _ hok ih => exact hstep _ l hok ih

/-- The relational form: a reflexive and transitive relation that every step
satisfies holds between start and end. -/
theorem relates (Rel : S → S → Prop) (h : RunsWhere step ok s t) (hrefl : ∀ x, Rel x x)
    (htrans : ∀ x y z, Rel x y → Rel y z → Rel x z)
    (hstep : ∀ x l, ok x l → Rel x (step x l)) : Rel s t :=
  h.invariant (I := Rel s) (hrefl s) (fun x l hok hx => htrans _ _ _ hx (hstep x l hok))

/-- A run of labels that are permitted everywhere. -/
theorem of_run {ls : List L} (h : ∀ l ∈ ls, ∀ x, ok x l) (s : S) :
    RunsWhere step ok s (run step s ls) := by
  induction ls generalizing s with
  | nil => exact .refl
  | cons l ls ih =>
    have hls : ∀ l ∈ ls, ∀ x, ok x l := fun l hl => h l (List.mem_cons_of_mem _ hl)
    exact head l (h l List.mem_cons_self s) (ih hls (step s l))

end RunsWhere

/-- Every step of the run of `ls` from `s` satisfies `P` in the state it is taken from. -/
def EveryStep (step : S → L → S) (P : S → L → Prop) : S → List L → Prop
  | _, [] => True
  | s, l :: ls => P s l ∧ EveryStep step P (step s l) ls

section everyStep
variable (step : S → L → S) (P : S → L → Prop) (s : S)

@[simp] theorem everyStep_nil : EveryStep step P s [] := trivial

@[simp] theorem everyStep_cons (l : L) (ls : List L) :
    EveryStep step P s (l :: ls) ↔ P s l ∧ EveryStep step P (step s l) ls := Iff.rfl

end everyStep

instance EveryStep.decidable (step : S → L → S) (P : S → L → Prop) [∀ s l, Decidable (P s l)] :
    (s : S) → (ls : List L) → Decidable (EveryStep step P s ls)
  | _, [] => .isTrue trivial
  | s, l :: ls =>
    let _ := EveryStep.decidable step P (step s l) ls
    inferInstanceAs (Decidable (P s l ∧ EveryStep step P (step s l) ls))

namespace EveryStep

variable {step : S → L → S} {P Q ok : S → L → Prop} {s : S} {ls : List L}

theorem runsWhere (h : EveryStep step ok s ls) : RunsWhere step ok s (run step s ls) := by
  induction ls generalizing s with
  | nil => exact .refl
  | cons l ls ih => exact .head l h.1 (ih h.2)

theorem iff (h : ∀ x l, P x l ↔ Q x l) : EveryStep step P s ls ↔ EveryStep step Q s ls := by
  induction ls generalizing s with
  | nil => exact Iff.rfl
  | cons l ls ih => exact and_congr (h s l) ih

theorem append_iff {ms : List L} : EveryStep step P s (ls ++ ms) ↔
    EveryStep step P s ls ∧ EveryStep step P (run step s ls) ms := by
  induction ls generalizing s with
  | nil => exact (and_iff_right trivial).symm
  | cons l ls ih => exact (and_congr_right (fun _ => ih)).trans and_assoc.symm

theorem of_append {l : L} {rest : List L} (h : EveryStep step P s (ls ++ l :: rest)) :
    P (run step s ls) l := by
  induction ls generalizing s with
  | nil => exact h.1
  | cons m ls ih => exact ih h.2

/-- Two properties of steps that agree wherever an invariant holds agree on runs. -/
theorem congr {I : S → Prop} (hok : EveryStep step ok s ls) (hs : I s)
    (hstep : ∀ x l, ok x l → I x → I (step x l)) (hiff : ∀ x l, ok x l → I x → (P x l ↔ Q x l)) :
    EveryStep step P s ls ↔ EveryStep step Q s ls := by
  induction ls generalizing s with
  | nil => exact Iff.rfl
  | cons l ls ih =>
    exact and_congr (hiff s l hok.1 hs) (ih hok.2 (hstep s l hok.1 hs))

end EveryStep

/-- Every state of the run of `ls` from `s`, the first and the last included, satisfies `I`. -/
def EveryState (step : S → L → S) (I : S → Prop) : S → List L → Prop
  | s, [] => I s
  | s, l :: ls => I s ∧ EveryState step I (step s l) ls

/-- The invariant rule for all states of a run. -/
theorem EveryStep.everyState {step : S → L → S} {ok : S → L → Prop} {s : S} {ls : List L}
    {I J : S → Prop} (h : EveryStep step ok s ls) (hs : I s)
    (hstep : ∀ x l, ok x l → I x → I (step x l)) (hJ : ∀ x, I x → J x) :
    EveryState step J s ls := by
  induction ls generalizing s with
  | nil => exact hJ s hs
  | cons l ls ih => exact ⟨hJ s hs, ih h.2 (hstep s l h.1 hs)⟩

/-- Where `I` and `P` together mean that a step keeps `I`, the states of a run satisfy `I` exactly if
its steps satisfy `P`. -/
theorem everyState_iff {step : S → L → S} {I : S → Prop} {P : S → L → Prop} {s : S} {ls : List L}
    (hs : I s) (hstep : ∀ x l, I x → (I (step x l) ↔ P x l)) :
    EveryState step I s ls ↔ EveryStep step P s ls := by
  induction ls generalizing s with
  | nil => exact ⟨fun _ => trivial, fun _ => hs⟩
  | cons l ls ih =>
    constructor
    · intro h
      have hnext : I (step s l) := by
        cases ls with
        | nil => exact h.2
        | cons m ls => exact h.2.1
      exact ⟨(hstep s l hs).mp hnext, (ih hnext).mp h.2⟩
    · intro h
      exact ⟨hs, (ih ((hstep s l hs).mpr h.1)).mpr h.2⟩

end FastapiTemplate
