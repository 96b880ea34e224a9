import FastapiTemplate.CallProgram

/-!
# Assertions about returning and raising

A `Triple` says where a program ends from a given assertion, with one assertion for its
results and one for its exceptions, so that handlers and clean-ups have rules too.
-/

namespace FastapiTemplate.Program

variable {C : Type} {R : C → Type} {ε α β σ : Type}

def Triple (handler : (c : C) → σ → R c × σ) (Pre : σ → Prop) (p : Program C R ε α)
    (Post : α → σ → Prop) (Err : ε → σ → Prop) : Prop :=
  ∀ s, Pre s → match execute handler p s with
    | (.ok a, t) => Post a t
    | (.error e, t) => Err e t

section rules
variable {handler : (c : C) → σ → R c × σ} {Pre : σ → Prop} {Post : α → σ → Prop}
  {Err : ε → σ → Prop}

theorem Triple.pure {a : α} (h : ∀ s, Pre s → Post a s) :
    Triple handler Pre (Program.pure a) Post Err := h

theorem Triple.raise {e : ε} (h : ∀ s, Pre s → Err e s) :
    Triple handler Pre (Program.raise e) Post Err := h

theorem Triple.call {c : C} {next : R c → Program C R ε α} (Mid : R c → σ → Prop)
    (hc : ∀ s, Pre s → Mid (handler c s).1 (handler c s).2)
    (hnext : ∀ r, Triple handler (Mid r) (next r) Post Err) :
    Triple handler Pre (.call c next) Post Err := by
  intro s hs
  exact hnext _ _ (hc s hs)

theorem Triple.mono {p : Program C R ε α} {Pre' : σ → Prop} {Post' : α → σ → Prop}
    {Err' : ε → σ → Prop} (h : Triple handler Pre' p Post' Err') (hpre : ∀ s, Pre s → Pre' s)
    (hpost : ∀ a s, Post' a s → Post a s) (herr : ∀ e s, Err' e s → Err e s) :
    Triple handler Pre p Post Err := by
  intro s hs
  have hp := h s (hpre s hs)
  rcases he : execute handler p s with ⟨e | a, t⟩
  · rw [he] at hp
    exact herr e t hp
  · rw [he] at hp
    exact hpost a t hp

theorem Triple.bind {p : Program C R ε β} {f : β → Program C R ε α} {Mid : β → σ → Prop}
    (hp : Triple handler Pre p Mid Err) (hf : ∀ b, Triple handler (Mid b) (f b) Post Err) :
    Triple handler Pre (p >>= f) Post Err := by
  intro s hs
  have hmid := hp s hs
  rw [execute_bind]
  rcases he : execute handler p s with ⟨e | b, t⟩
  · rw [he] at hmid
    exact hmid
  · rw [he] at hmid
    exact hf b t hmid

theorem Triple.handle {p : Program C R ε α} {f : ε → Program C R ε α} {Mid : ε → σ → Prop}
    (hp : Triple handler Pre p Post Mid) (hf : ∀ e, Triple handler (Mid e) (f e) Post Err) :
    Triple handler Pre (p.handle f) Post Err := by
  intro s hs
  have hmid := hp s hs
  rw [execute_handle]
  rcases he : execute handler p s with ⟨e | a, t⟩
  · rw [he] at hmid
    exact hf e t hmid
  · rw [he] at hmid
    exact hmid

theorem Triple.tryFinally {p : Program C R ε α} {q : Program C R ε Unit} {Mid : α → σ → Prop}
    {MidErr : ε → σ → Prop} (hp : Triple handler Pre p Mid MidErr)
    (hq : ∀ a, Triple handler (Mid a) q (fun _ => Post a) Err)
    (hqErr : ∀ e, Triple handler (MidErr e) q (fun _ => Err e) Err) :
    Triple handler Pre (p.tryFinally q) Post Err := by
  induction p generalizing Pre with
  | pure a =>
    have hMid : Triple handler Pre q (fun _ => Post a) Err :=
      (hq a).mono hp (fun _ _ => id) (fun _ _ => id)
    exact hMid.bind (fun _ => Triple.pure (fun _ => id))
  | raise e =>
    have hMid : Triple handler Pre q (fun _ => Err e) Err :=
      (hqErr e).mono hp (fun _ _ => id) (fun _ _ => id)
    exact hMid.bind (fun _ => Triple.raise (fun _ => id))
  | call c next ih =>
    intro s hs
    have hnext : Triple handler (fun t => t = (handler c s).2) (next (handler c s).1) Mid MidErr := by
      rintro t rfl
      exact hp s hs
    exact ih (handler c s).1 hnext _ rfl

theorem Triple.attempt {p : Program C R ε α} (h : Triple handler Pre p Post Err) :
    Triple handler Pre p.attempt (fun r s => match r with
      | .ok a => Post a s
      | .error e => Err e s) (fun _ _ => False) := by
  induction p generalizing Pre with
  | pure a => exact h
  | raise e => exact h
  | call c next ih =>
    intro s hs
    have hnext : Triple handler (fun t => t = (handler c s).2) (next (handler c s).1) Post Err := by
      rintro t rfl
      exact h s hs
    exact ih (handler c s).1 hnext _ rfl

end rules

/-! ## Invariants -/

/-- However the program ends, the invariant still holds. -/
def Keeps (handler : (c : C) → σ → R c × σ) (Inv : σ → Prop) (p : Program C R ε α) : Prop :=
  Triple handler Inv p (fun _ => Inv) (fun _ => Inv)

section keeps
variable {handler : (c : C) → σ → R c × σ} {Inv : σ → Prop}

theorem Keeps.execute {p : Program C R ε α} (h : Keeps handler Inv p) {s : σ} (hs : Inv s) :
    Inv (execute handler p s).2 := by
  have hp := h s hs
  rcases he : Program.execute handler p s with ⟨e | a, t⟩
  · rw [he] at hp
    exact hp
  · rw [he] at hp
    exact hp

theorem Keeps.of_makes {P : C → Prop} {p : Program C R ε α} (hp : p.Makes P)
    (hcall : ∀ c, P c → ∀ s, Inv s → Inv (handler c s).2) : Keeps handler Inv p := by
  induction p with
  | pure a => exact Triple.pure (fun _ => id)
  | raise e => exact Triple.raise (fun _ => id)
  | call c next ih => exact Triple.call (fun _ => Inv) (hcall c hp.1) (fun r => ih r (hp.2 r))

theorem Keeps.attempt {p : Program C R ε α} (h : Keeps handler Inv p) :
    Keeps handler Inv p.attempt := by
  refine (Triple.attempt h).mono (fun _ => id) (fun r s hr => ?_) (fun _ _ => False.elim)
  cases r with
  | ok a => exact hr
  | error e => exact hr

/-- What every call's program keeps, the expanded program keeps. -/
theorem Keeps.expand {C' : Type} {R' : C' → Type} {f : (c : C') → Program C R ε (R' c)}
    {P : C' → Prop} {p : Program C' R' ε α} (hp : p.Makes P)
    (hf : ∀ c, P c → Keeps handler Inv (f c)) : Keeps handler Inv (p.expand f) := by
  induction p with
  | pure a => exact Triple.pure (fun _ => id)
  | raise e => exact Triple.raise (fun _ => id)
  | call c next ih => exact Triple.bind (hf c hp.1) (fun r => ih r (hp.2 r))

end keeps
end FastapiTemplate.Program
