import FastapiTemplate.CallProgram

/-!
# Assertions about programs that may stop

A program may be stopped after any of its calls. `Throughout` asks that an invariant holds
wherever that happens, and an assertion about the result where the program returns.
-/

namespace FastapiTemplate.Program

variable {C : Type} {R : C → Type} {ε α β σ : Type}

/-- From `s` on the invariant holds after every number of calls, and `Post` on return. -/
def Throughout (handler : (c : C) → σ → R c × σ) (Inv : σ → Prop) (p : Program C R ε α) (s : σ)
    (Post : α → σ → Prop) : Prop :=
  (∀ n, Inv (executeFor handler n p s)) ∧ ∀ a t, execute handler p s = (.ok a, t) → Post a t

section rules
variable {handler : (c : C) → σ → R c × σ} {Inv : σ → Prop} {s : σ} {Post : α → σ → Prop}

theorem Throughout.pure {a : α} (hs : Inv s) (h : Post a s) :
    Throughout handler Inv (Program.pure a : Program C R ε α) s Post := by
  constructor
  · intro n
    cases n <;> exact hs
  · rintro b t ⟨⟩
    exact h

theorem Throughout.raise {e : ε} (hs : Inv s) :
    Throughout handler Inv (Program.raise e : Program C R ε α) s Post := by
  constructor
  · intro n
    cases n <;> exact hs
  · rintro b t ⟨⟩

theorem Throughout.ofExcept {r : Except ε α} (hs : Inv s) (h : ∀ a, r = .ok a → Post a s) :
    Throughout handler Inv (Program.ofExcept r : Program C R ε α) s Post := by
  cases r with
  | ok a => exact Throughout.pure hs (h a rfl)
  | error e => exact Throughout.raise hs

theorem Throughout.call {c : C} {next : R c → Program C R ε α} (hs : Inv s)
    (hnext : Throughout handler Inv (next (handler c s).1) (handler c s).2 Post) :
    Throughout handler Inv (.call c next) s Post := by
  constructor
  · intro n
    cases n with
    | zero => exact hs
    | succ n => exact hnext.1 n
  · exact hnext.2

theorem Throughout.now {p : Program C R ε α} (h : Throughout handler Inv p s Post) : Inv s := h.1 0

theorem Throughout.mono {p : Program C R ε α} {Post' : α → σ → Prop}
    (h : Throughout handler Inv p s Post') (hpost : ∀ a t, Post' a t → Post a t) :
    Throughout handler Inv p s Post :=
  ⟨h.1, fun a t he => hpost a t (h.2 a t he)⟩

theorem Throughout.bind {p : Program C R ε β} {f : β → Program C R ε α} {Mid : β → σ → Prop}
    (hp : Throughout handler Inv p s Mid)
    (hf : ∀ b t, Mid b t → Throughout handler Inv (f b) t Post) :
    Throughout handler Inv (p >>= f) s Post := by
  induction p generalizing s with
  | pure b => exact hf b s (hp.2 b s rfl)
  | raise e => exact Throughout.raise hp.now
  | call c next ih =>
    apply Throughout.call hp.now
    exact ih _ ⟨fun n => hp.1 (n + 1), hp.2⟩

end rules
end FastapiTemplate.Program
