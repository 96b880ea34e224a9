import Mathlib.Data.List.Basic

/-!
# Transducers

A reader takes one symbol after the other, and completes an item at some of them. What it has
completed does not depend on the pieces in which the symbols arrive, and only grows.
-/

namespace FastapiTemplate.Transducer

variable {S C E : Type} (readSymbol : S → C → S × Option E)

def read : S → List C → S × List E
  | s, [] => (s, [])
  | s, c :: text =>
    let first := readSymbol s c
    let rest := read first.1 text
    (rest.1, first.2.toList ++ rest.2)

/-- The text takes the reader from one state to the other and completes the items. -/
def Reads (s : S) (text : List C) (items : List E) (t : S) : Prop :=
  read readSymbol s text = (t, items)

namespace Reads

variable {readSymbol} {s t u : S} {c : C} {text more : List C} {es fs : List E}

theorem nil : Reads readSymbol s [] [] s := rfl

theorem cons {e : Option E} (h : readSymbol s c = (t, e)) (h' : Reads readSymbol t text es u) :
    Reads readSymbol s (c :: text) (e.toList ++ es) u := by
  unfold Reads at h' ⊢
  rw [read, h]
  dsimp only
  rw [h']

/-- A symbol that completes nothing. -/
theorem skip (h : readSymbol s c = (t, none)) (h' : Reads readSymbol t text es u) :
    Reads readSymbol s (c :: text) es u := cons h h'

theorem single {e : Option E} (h : readSymbol s c = (t, e)) :
    Reads readSymbol s [c] e.toList t := by
  have hcons := cons h nil
  rwa [List.append_nil] at hcons

/-- It makes no difference in which pieces the text arrives. -/
theorem append (h : Reads readSymbol s text es t) (h' : Reads readSymbol t more fs u) :
    Reads readSymbol s (text ++ more) (es ++ fs) u := by
  induction text generalizing s es with
  | nil =>
    cases h
    exact h'
  | cons c text ih =>
    have hrest : Reads readSymbol (readSymbol s c).1 text
        (read readSymbol (readSymbol s c).1 text).2 t := by
      have hstate := congrArg Prod.fst h
      exact Prod.ext hstate rfl
    have hitems : es = (readSymbol s c).2.toList ++ (read readSymbol (readSymbol s c).1 text).2 :=
      (congrArg Prod.snd h).symm
    rw [hitems, List.append_assoc]
    exact cons rfl (ih hrest)

theorem total (s : S) (text : List C) :
    Reads readSymbol s text (read readSymbol s text).2 (read readSymbol s text).1 := rfl

/-- A number of texts each of which leaves the reader as it was. -/
theorem flatMap {X : Type} {xs : List X} {write : X → List C} {items : X → List E}
    (h : ∀ x ∈ xs, Reads readSymbol s (write x) (items x) s) :
    Reads readSymbol s (xs.flatMap write) (xs.flatMap items) s := by
  induction xs with
  | nil => exact nil
  | cons x xs ih =>
    rw [List.forall_mem_cons] at h
    rw [List.flatMap_cons, List.flatMap_cons]
    exact h.1.append (ih h.2)

end Reads

/-- What has been completed at any time is a prefix of what will have been completed. -/
theorem read_prefix (s : S) {text more : List C} (h : text <+: more) :
    (read readSymbol s text).2 <+: (read readSymbol s more).2 := by
  obtain ⟨rest, rfl⟩ := h
  have hboth : read readSymbol s (text ++ rest) = _ :=
    (Reads.total s text).append (Reads.total _ rest)
  rw [hboth]
  exact List.prefix_append _ _

end FastapiTemplate.Transducer
