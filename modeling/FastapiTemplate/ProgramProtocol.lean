import FastapiTemplate.ProgramPool

/-!
# Protocols of programs

A protocol says which calls a phase permits, and which phase follows on an answer. A program
that follows it does so in every pool, whatever happens between its calls, as long as the
answers are possible ones.
-/

namespace FastapiTemplate

structure Protocol (C : Type) (R : C → Type) (Φ : Type) where
  permits : Φ → C → Prop
  after : Φ → (c : C) → R c → Φ
  possible : (c : C) → R c → Prop

namespace Protocol

variable {C : Type} {R : C → Type} {Φ ε α β T : Type} (P : Protocol C R Φ)

/-- From this phase every call is permitted, and the program ends in a phase as asserted for its
results and for its exceptions. -/
def Follows (Post : α → Φ → Prop) (Err : ε → Φ → Prop) : Φ → Program C R ε α → Prop
  | φ, .pure a => Post a φ
  | φ, .raise e => Err e φ
  | φ, .call c next =>
    P.permits φ c ∧ ∀ r, P.possible c r → Follows Post Err (P.after φ c r) (next r)

variable {P} {Post : α → Φ → Prop} {Err : ε → Φ → Prop} {φ : Φ}

namespace Follows

theorem pure {a : α} (h : Post a φ) : P.Follows Post Err φ (Pure.pure a : Program C R ε α) := h

theorem raise {e : ε} (h : Err e φ) : P.Follows Post Err φ (.raise e : Program C R ε α) := h

theorem perform_bind {c : C} {f : R c → Program C R ε α} (hc : P.permits φ c)
    (hf : ∀ r, P.possible c r → P.Follows Post Err (P.after φ c r) (f r)) :
    P.Follows Post Err φ (Program.perform c >>= f) := ⟨hc, hf⟩

theorem bind {p : Program C R ε β} {f : β → Program C R ε α} (Mid : β → Φ → Prop)
    (hp : P.Follows Mid Err φ p) (hf : ∀ b φ, Mid b φ → P.Follows Post Err φ (f b)) :
    P.Follows Post Err φ (p >>= f) := by
  induction p generalizing φ with
  | pure b => exact hf b φ hp
  | raise e => exact hp
  | call c next ih => exact ⟨hp.1, fun r hr => ih r (hp.2 r hr)⟩

theorem handle {p : Program C R ε α} {f : ε → Program C R ε α} (Mid : ε → Φ → Prop)
    (hp : P.Follows Post Mid φ p) (hf : ∀ e φ, Mid e φ → P.Follows Post Err φ (f e)) :
    P.Follows Post Err φ (p.handle f) := by
  induction p generalizing φ with
  | pure a => exact hp
  | raise e => exact hf e φ hp
  | call c next ih => exact ⟨hp.1, fun r hr => ih r (hp.2 r hr)⟩

theorem mono {p : Program C R ε α} {Post' : α → Φ → Prop} {Err' : ε → Φ → Prop}
    (hp : P.Follows Post' Err' φ p) (hpost : ∀ a φ, Post' a φ → Post a φ)
    (herr : ∀ e φ, Err' e φ → Err e φ) : P.Follows Post Err φ p := by
  induction p generalizing φ with
  | pure a => exact hpost a φ hp
  | raise e => exact herr e φ hp
  | call c next ih => exact ⟨hp.1, fun r hr => ih r (hp.2 r hr)⟩

/-- A thread that follows the protocol goes on doing so when its call is answered. -/
theorem answered {th : Thread C R ε α T} {c : C} {next : R c → Program C R ε α}
    (hth : P.Follows Post Err φ th.rest) (hrest : th.rest = .call c next) {r : R c}
    (hr : P.possible c r) :
    P.permits φ c ∧ P.Follows Post Err (P.after φ c r) (th.answered c r next).rest := by
  rw [hrest] at hth
  exact ⟨hth.1, hth.2 r hr⟩

end Follows
end Protocol
end FastapiTemplate
