import FastapiTemplate.CallProgram
import FastapiTemplate.TransitionRuns
import Mathlib.Algebra.GroupWithZero.Nat

/-!
# Pools of interleaved programs

Threads run programs over one shared state. A move starts a thread, lets one thread
make its next call, or lets the environment act, so anything may happen between two
calls of a thread. Every thread keeps the trace of its calls and their answers, and
`Behaves` says what a program does along its trace whatever happens in between.
-/

namespace FastapiTemplate

abbrev CallTrace (C : Type) (R : C → Type) := List ((c : C) × R c)

structure Thread (C : Type) (R : C → Type) (ε α T : Type) where
  tag : T
  trace : CallTrace C R
  rest : Program C R ε α

structure Pool (C : Type) (R : C → Type) (ε α T σ : Type) where
  state : σ
  threads : List (Thread C R ε α T)

inductive PoolMove (T E : Type)
  | spawn (tag : T)
  | advance (i : ℕ)
  | environment (e : E)

/-- The meaning of the calls, of the environment and of the tags of threads. -/
structure PoolSystem (C : Type) (R : C → Type) (ε α T E σ : Type) where
  handler : (c : C) → σ → R c × σ
  environment : E → σ → σ
  program : T → Program C R ε α

variable {C : Type} {R : C → Type} {ε α β T E σ : Type}

namespace Thread

def answered (th : Thread C R ε α T) (c : C) (r : R c) (next : R c → Program C R ε α) :
    Thread C R ε α T :=
  ⟨th.tag, th.trace ++ [⟨c, r⟩], next r⟩

def result (th : Thread C R ε α T) : Option α :=
  match th.rest with
  | .pure a => some a
  | _ => none

theorem result_eq_some {th : Thread C R ε α T} {a : α} :
    th.result = some a ↔ th.rest = .pure a := by
  unfold result
  cases th.rest <;> simp

def nextCall (th : Thread C R ε α T) : Option C :=
  match th.rest with
  | .call c _ => some c
  | _ => none

theorem nextCall_of_rest {th : Thread C R ε α T} {c : C} {next : R c → Program C R ε α}
    (hrest : th.rest = .call c next) : th.nextCall = some c := by
  rw [nextCall, hrest]

theorem rest_of_nextCall {th : Thread C R ε α T} {c : C} (h : th.nextCall = some c) :
    ∃ next, th.rest = .call c next := by
  unfold nextCall at h
  cases hrest : th.rest with
  | call d next =>
    rw [hrest] at h
    cases h
    exact ⟨next, rfl⟩
  | pure a =>
    rw [hrest] at h
    cases h
  | raise e =>
    rw [hrest] at h
    cases h

def Failed (th : Thread C R ε α T) : Prop := ∃ e, th.rest = .raise e

end Thread

def PoolMove.OfThread (m : PoolMove T E) (p : Pool C R ε α T σ) (K : Thread C R ε α T → Prop) :
    Prop :=
  match m with
  | .advance i => ∀ th ∈ p.threads[i]?, K th
  | _ => True

instance (m : PoolMove T E) (p : Pool C R ε α T σ) (K : Thread C R ε α T → Prop)
    [DecidablePred K] : Decidable (m.OfThread p K) :=
  match m with
  | .advance i => inferInstanceAs (Decidable (∀ th ∈ p.threads[i]?, K th))
  | .spawn _ => .isTrue trivial
  | .environment _ => .isTrue trivial

namespace PoolSystem

variable (S : PoolSystem C R ε α T E σ)

def fresh (tag : T) : Thread C R ε α T := ⟨tag, [], S.program tag⟩

def step (p : Pool C R ε α T σ) : PoolMove T E → Pool C R ε α T σ
  | .spawn tag => { p with threads := p.threads ++ [S.fresh tag] }
  | .environment e => { p with state := S.environment e p.state }
  | .advance i =>
    match p.threads[i]? with
    | none => p
    | some th =>
      match th.rest with
      | .call c next =>
        ⟨(S.handler c p.state).2, p.threads.set i (th.answered c (S.handler c p.state).1 next)⟩
      | _ => p

theorem step_advance {p : Pool C R ε α T σ} {i : ℕ} {th : Thread C R ε α T} {c : C}
    {next : R c → Program C R ε α} (hth : p.threads[i]? = some th) (hrest : th.rest = .call c next) :
    S.step p (.advance i) = ⟨(S.handler c p.state).2,
      p.threads.set i (th.answered c (S.handler c p.state).1 next)⟩ := by
  simp only [step, hth, hrest]

inductive StepCase (p : Pool C R ε α T σ) : PoolMove T E → Pool C R ε α T σ → Prop
  | spawn (tag : T) : StepCase p (.spawn tag) { p with threads := p.threads ++ [S.fresh tag] }
  | environment (e : E) :
      StepCase p (.environment e) { p with state := S.environment e p.state }
  | idle (i : ℕ) : StepCase p (.advance i) p
  | call {i : ℕ} {th : Thread C R ε α T} {c : C} {next : R c → Program C R ε α}
      (hth : p.threads[i]? = some th) (hrest : th.rest = .call c next) :
      StepCase p (.advance i) ⟨(S.handler c p.state).2,
        p.threads.set i (th.answered c (S.handler c p.state).1 next)⟩

theorem step_cases (p : Pool C R ε α T σ) (m : PoolMove T E) : S.StepCase p m (S.step p m) := by
  cases m with
  | spawn tag => exact .spawn tag
  | environment e => exact .environment e
  | advance i =>
    simp only [step]
    cases hth : p.threads[i]? with
    | none => exact .idle i
    | some th =>
      cases hrest : th.rest with
      | pure a =>
        simp only [hrest]
        exact .idle i
      | raise e =>
        simp only [hrest]
        exact .idle i
      | call c next =>
        simp only [hrest]
        exact .call hth hrest

/-- A thread of the pool after a move is an old one, a new one, or the one that moved. -/
theorem step_thread {p : Pool C R ε α T σ} {m : PoolMove T E} {i : ℕ} {th' : Thread C R ε α T}
    (h : (S.step p m).threads[i]? = some th') :
    p.threads[i]? = some th' ∨
      (∃ tag, m = .spawn tag ∧ i = p.threads.length ∧ th' = S.fresh tag) ∨
      ∃ th c next, m = .advance i ∧ p.threads[i]? = some th ∧ th.rest = .call c next ∧
        th' = th.answered c (S.handler c p.state).1 next := by
  have hcase := S.step_cases p m
  generalize S.step p m = q at h hcase
  cases hcase with
  | environment e => exact .inl h
  | idle j => exact .inl h
  | spawn tag =>
    rcases Nat.lt_trichotomy i p.threads.length with hlt | heq | hgt
    · rw [List.getElem?_append_left hlt] at h
      exact .inl h
    · rw [heq, List.getElem?_concat_length] at h
      exact .inr (.inl ⟨tag, rfl, heq, (Option.some.inj h).symm⟩)
    · rw [List.getElem?_eq_none (by simp; omega)] at h
      cases h
  | @call j th c next hth hrest =>
    by_cases hij : j = i
    · subst hij
      have hlt : j < p.threads.length := (List.getElem?_eq_some_iff.mp hth).1
      rw [List.getElem?_set_self hlt] at h
      exact .inr (.inr ⟨th, c, next, rfl, hth, hrest, (Option.some.inj h).symm⟩)
    · rw [List.getElem?_set_ne hij] at h
      exact .inl h

/-- The thread is as it was, or its next call has been answered in the state. -/
def Moves (s : σ) (th th' : Thread C R ε α T) : Prop :=
  th' = th ∨ ∃ c next, th.rest = .call c next ∧ th' = th.answered c (S.handler c s).1 next

variable {S} in
theorem Moves.tag {s : σ} {th th' : Thread C R ε α T} (h : S.Moves s th th') :
    th'.tag = th.tag := by
  rcases h with rfl | ⟨c, next, -, rfl⟩
  · rfl
  · rfl

variable {S} in
theorem Moves.failed {s : σ} {th th' : Thread C R ε α T} (h : S.Moves s th th')
    (hfailed : th.Failed) : th'.Failed := by
  obtain ⟨e, he⟩ := hfailed
  rcases h with rfl | ⟨c, next, hrest, -⟩
  · exact ⟨e, he⟩
  · rw [he] at hrest
    cases hrest

variable {S} in
theorem Moves.trace_prefix {s : σ} {th th' : Thread C R ε α T} (h : S.Moves s th th') :
    th.trace <+: th'.trace := by
  rcases h with rfl | ⟨c, next, -, rfl⟩
  · exact List.prefix_refl _
  · exact List.prefix_append _ _

/-- A thread of the pool is still at its place after a move. -/
theorem step_getElem? {p : Pool C R ε α T σ} {i : ℕ} {th : Thread C R ε α T}
    (hth : p.threads[i]? = some th) (m : PoolMove T E) :
    ∃ th', (S.step p m).threads[i]? = some th' ∧ S.Moves p.state th th' := by
  have hlt : i < p.threads.length := (List.getElem?_eq_some_iff.mp hth).1
  have hcase := S.step_cases p m
  generalize S.step p m = q at hcase
  cases hcase with
  | spawn tag => exact ⟨th, (List.getElem?_append_left hlt).trans hth, .inl rfl⟩
  | environment e => exact ⟨th, hth, .inl rfl⟩
  | idle j => exact ⟨th, hth, .inl rfl⟩
  | @call j x c next hx hrest =>
    by_cases hij : j = i
    · subst hij
      rw [hth] at hx
      cases hx
      exact ⟨_, List.getElem?_set_self hlt, .inr ⟨c, next, hrest, rfl⟩⟩
    · exact ⟨th, (List.getElem?_set_ne hij).trans hth, .inl rfl⟩

/-- Two threads of the pool after a move are two old ones, or an old one and the new one. -/
theorem step_pair {p : Pool C R ε α T σ} {m : PoolMove T E} {i j : ℕ} {x' y' : Thread C R ε α T}
    (hij : i < j) (hi : (S.step p m).threads[i]? = some x')
    (hj : (S.step p m).threads[j]? = some y') :
    (∃ x y, p.threads[i]? = some x ∧ p.threads[j]? = some y ∧
      S.Moves p.state x x' ∧ S.Moves p.state y y') ∨
      ∃ tag, m = .spawn tag ∧ p.threads[i]? = some x' ∧ y' = S.fresh tag := by
  have hlength {k : ℕ} {th : Thread C R ε α T} (h : p.threads[k]? = some th) :
      k < p.threads.length := (List.getElem?_eq_some_iff.mp h).1
  rcases S.step_thread hi with hx | ⟨tag, -, hend, -⟩ | ⟨x, c, next, hm, hx, hrest, rfl⟩
  · rcases S.step_thread hj with hy | ⟨tag, hm, -, rfl⟩ | ⟨y, c, next, -, hy, hrest, rfl⟩
    · exact .inl ⟨x', y', hx, hy, .inl rfl, .inl rfl⟩
    · exact .inr ⟨tag, hm, hx, rfl⟩
    · exact .inl ⟨x', y, hx, hy, .inl rfl, .inr ⟨c, next, hrest, rfl⟩⟩
  · rcases S.step_thread hj with hy | ⟨_, -, hend', -⟩ | ⟨y, _, _, _, hy, -, -⟩
    · have := hlength hy
      omega
    · omega
    · have := hlength hy
      omega
  · rcases S.step_thread hj with hy | ⟨tag, hm', -, -⟩ | ⟨y, d, next', -, hy, hrest', rfl⟩
    · exact .inl ⟨x, y', hx, hy, .inr ⟨c, next, hrest, rfl⟩, .inl rfl⟩
    · rw [hm'] at hm
      cases hm
    · exact .inl ⟨x, y, hx, hy, .inr ⟨c, next, hrest, rfl⟩, .inr ⟨d, next', hrest', rfl⟩⟩

/-- What new threads have and answered calls keep, every thread has. -/
theorem everyThread_step {K : Thread C R ε α T → Prop} {p : Pool C R ε α T σ} {m : PoolMove T E}
    (h : ∀ th ∈ p.threads, K th) (hfresh : ∀ tag, m = .spawn tag → K (S.fresh tag))
    (hcall : ∀ (i : ℕ) th c next, p.threads[i]? = some th → th.rest = .call c next → K th →
      K (th.answered c (S.handler c p.state).1 next)) : ∀ th ∈ (S.step p m).threads, K th := by
  intro th' hmem
  obtain ⟨i, hi⟩ := List.getElem?_of_mem hmem
  rcases S.step_thread hi with hold | ⟨tag, hm, -, rfl⟩ | ⟨th, c, next, -, hth, hrest, rfl⟩
  · exact h th' (List.mem_of_getElem? hold)
  · exact hfresh tag hm
  · exact hcall i th c next hth hrest (h th (List.mem_of_getElem? hth))

def AtMostOne (A : Thread C R ε α T → Prop) (p : Pool C R ε α T σ) : Prop :=
  ∀ (i j : ℕ) th th', p.threads[i]? = some th → p.threads[j]? = some th' → A th → A th' → i = j

/-- A kind that threads enter only while it is empty has at most one thread. -/
theorem atMostOne_step {A : Thread C R ε α T → Prop} {p : Pool C R ε α T σ} {m : PoolMove T E}
    (h : AtMostOne A p) (hfresh : ∀ tag, ¬ A (S.fresh tag))
    (hcall : ∀ i th c next, m = .advance i → p.threads[i]? = some th → th.rest = .call c next →
      A (th.answered c (S.handler c p.state).1 next) → A th ∨ ∀ y ∈ p.threads, ¬ A y) :
    AtMostOne A (S.step p m) := by
  -- a thread of the kind was of it before, or enters it now
  have hcases {i : ℕ} {th : Thread C R ε α T} (hi : (S.step p m).threads[i]? = some th)
      (hth : A th) : (∃ x, p.threads[i]? = some x ∧ A x) ∨
        (m = .advance i ∧ ∀ y ∈ p.threads, ¬ A y) := by
    rcases S.step_thread hi with hold | ⟨tag, -, -, rfl⟩ | ⟨x, c, next, hm, hx, hrest, rfl⟩
    · exact .inl ⟨th, hold, hth⟩
    · exact absurd hth (hfresh tag)
    · rcases hcall i x c next hm hx hrest hth with hold | hnone
      · exact .inl ⟨x, hx, hold⟩
      · exact .inr ⟨hm, hnone⟩
  intro i j th th' hi hj hth hth'
  rcases hcases hi hth with ⟨x, hx, hax⟩ | ⟨hm, hnone⟩
  · rcases hcases hj hth' with ⟨y, hy, hay⟩ | ⟨-, hnone⟩
    · exact h i j x y hx hy hax hay
    · exact absurd hax (hnone x (List.mem_of_getElem? hx))
  · rcases hcases hj hth' with ⟨y, hy, hay⟩ | ⟨hm', -⟩
    · exact absurd hay (hnone y (List.mem_of_getElem? hy))
    · rw [hm'] at hm
      cases hm
      rfl

end PoolSystem

/-- After one thread has been replaced, a thread is the new one or an old one at another place. -/
theorem set_thread {threads : List (Thread C R ε α T)} {i j : ℕ} {th' x : Thread C R ε α T}
    (h : (threads.set i th')[j]? = some x) :
    (j = i ∧ x = th') ∨ (j ≠ i ∧ threads[j]? = some x) := by
  by_cases hij : i = j
  · subst hij
    have hlt : i < threads.length := by
      have hset := (List.getElem?_eq_some_iff.mp h).1
      rwa [List.length_set] at hset
    rw [List.getElem?_set_self hlt] at h
    exact .inl ⟨rfl, (Option.some.inj h).symm⟩
  · rw [List.getElem?_set_ne hij] at h
    exact .inr ⟨fun he => hij he.symm, h⟩

theorem atMostOne_set {A : Thread C R ε α T → Prop} {p : Pool C R ε α T σ} {i : ℕ}
    {th' : Thread C R ε α T} (h : PoolSystem.AtMostOne A p)
    (hnew : A th' → ∀ j x, j ≠ i → p.threads[j]? = some x → ¬ A x) (s : σ) :
    PoolSystem.AtMostOne A ⟨s, p.threads.set i th'⟩ := by
  intro j k x y hj hk hx hy
  rcases set_thread hj with ⟨hji, rfl⟩ | ⟨hji, holdj⟩
  · rcases set_thread hk with ⟨hki, -⟩ | ⟨hki, holdk⟩
    · rw [hji, hki]
    · exact absurd hy (hnew hx k y hki holdk)
  · rcases set_thread hk with ⟨-, rfl⟩ | ⟨-, holdk⟩
    · exact absurd hx (hnew hy j x hji holdj)
    · exact h j k x y holdj holdk hx hy

theorem mem_set_thread {threads : List (Thread C R ε α T)} {i : ℕ} {th' x : Thread C R ε α T}
    (h : x ∈ threads.set i th') : x = th' ∨ ∃ j, j ≠ i ∧ threads[j]? = some x := by
  obtain ⟨j, hj⟩ := List.getElem?_of_mem h
  rcases set_thread hj with ⟨-, heq⟩ | ⟨hji, hold⟩
  · exact .inl heq
  · exact .inr ⟨j, hji, hold⟩

theorem atMostOne_append {A : Thread C R ε α T → Prop} {p : Pool C R ε α T σ}
    {th' : Thread C R ε α T} (h : PoolSystem.AtMostOne A p) (hnew : ¬ A th') :
    PoolSystem.AtMostOne A { p with threads := p.threads ++ [th'] } := by
  have hold {j : ℕ} {x : Thread C R ε α T} (hj : (p.threads ++ [th'])[j]? = some x) (hx : A x) :
      p.threads[j]? = some x := by
    by_cases hlt : j < p.threads.length
    · rwa [List.getElem?_append_left hlt] at hj
    · have hmem := List.mem_of_getElem? (List.getElem?_append_right (Nat.le_of_not_lt hlt) ▸ hj)
      rw [List.mem_singleton.mp hmem] at hx
      exact absurd hx hnew
  exact fun j k x y hj hk hx hy => h j k x y (hold hj hx) (hold hk hy) hx hy

/-- A sum over threads of which at most one counts, and that once. -/
theorem sum_le_one {X : Type} {f : X → ℕ} {xs : List X} (hle : ∀ x ∈ xs, f x ≤ 1)
    (hone : ∀ (i j : ℕ) x y, xs[i]? = some x → xs[j]? = some y → 0 < f x → 0 < f y → i = j) :
    (xs.map f).sum ≤ 1 := by
  induction xs with
  | nil => simp
  | cons x xs ih =>
    have hrest : (xs.map f).sum ≤ 1 := by
      apply ih (fun y hy => hle y (List.mem_cons_of_mem _ hy))
      intro i j y z hi hj hy hz
      have hij := hone (i + 1) (j + 1) y z (by simpa using hi) (by simpa using hj) hy hz
      omega
    have hx : f x ≤ 1 := hle x List.mem_cons_self
    rw [List.map_cons, List.sum_cons]
    by_cases hpos : 0 < f x
    · have hzero : (xs.map f).sum = 0 := by
        rw [List.sum_eq_zero_iff_forall_eq_nat]
        intro n hn
        obtain ⟨y, hy, rfl⟩ := List.mem_map.mp hn
        by_contra hne
        obtain ⟨j, hj⟩ := List.getElem?_of_mem hy
        have hj0 := hone 0 (j + 1) x y (by simp) (by simpa using hj) hpos (by omega)
        omega
      omega
    · omega

/-- The number of threads of a kind, when one thread is replaced. -/
theorem countP_set_thread {f : Thread C R ε α T → Bool} {threads : List (Thread C R ε α T)}
    {i : ℕ} {th : Thread C R ε α T} (hth : threads[i]? = some th) (th' : Thread C R ε α T) :
    (threads.set i th').countP f + (if f th = true then 1 else 0) =
      threads.countP f + (if f th' = true then 1 else 0) := by
  obtain ⟨hi, heq⟩ := List.getElem?_eq_some_iff.mp hth
  rw [List.countP_set hi, heq]
  by_cases hf : f th = true
  · have hpos : 0 < threads.countP f := List.countP_pos_iff.mpr ⟨th, List.mem_of_getElem? hth, hf⟩
    simp only [hf, if_true]
    omega
  · rw [if_neg hf]
    omega

/-! ## Programs along their traces -/

/-- From states in `I`, every call of the program suits the trace before it, and so does the
result. -/
def Behaves (handler : (c : C) → σ → R c × σ) (I : σ → Prop) (Φ : CallTrace C R → C → Prop)
    (Ψ : CallTrace C R → α → Prop) : CallTrace C R → Program C R ε α → Prop
  | h, .pure a => Ψ h a
  | _, .raise _ => True
  | h, .call c next => Φ h c ∧ ∀ s, I s →
      Behaves handler I Φ Ψ (h ++ [⟨c, (handler c s).1⟩]) (next (handler c s).1)

namespace Behaves

variable {handler : (c : C) → σ → R c × σ} {I : σ → Prop} {Φ : CallTrace C R → C → Prop}
  {Ψ : CallTrace C R → α → Prop} {h : CallTrace C R}

theorem pure {a : α} (ha : Ψ h a) : Behaves handler I Φ Ψ h (Pure.pure a : Program C R ε α) := ha

theorem raise (e : ε) : Behaves handler I Φ Ψ h (Program.raise e : Program C R ε α) := trivial

theorem perform_bind {c : C} {f : R c → Program C R ε α} (hc : Φ h c)
    (hf : ∀ s, I s → Behaves handler I Φ Ψ (h ++ [⟨c, (handler c s).1⟩]) (f (handler c s).1)) :
    Behaves handler I Φ Ψ h (Program.perform c >>= f) := ⟨hc, hf⟩

theorem bind {p : Program C R ε β} {f : β → Program C R ε α} {M : CallTrace C R → β → Prop}
    (hp : Behaves handler I Φ M h p)
    (hf : ∀ h' b, M h' b → Behaves handler I Φ Ψ h' (f b)) :
    Behaves handler I Φ Ψ h (p >>= f) := by
  induction p generalizing h with
  | pure b => exact hf h b hp
  | raise e => trivial
  | call c next ih => exact ⟨hp.1, fun s hs => ih _ (hp.2 s hs)⟩

theorem mono {Φ' : CallTrace C R → C → Prop} {Ψ' : CallTrace C R → α → Prop}
    {p : Program C R ε α} (hp : Behaves handler I Φ Ψ h p) (hΦ : ∀ h c, Φ h c → Φ' h c)
    (hΨ : ∀ h a, Ψ h a → Ψ' h a) : Behaves handler I Φ' Ψ' h p := by
  induction p generalizing h with
  | pure a => exact hΨ h a hp
  | raise e => trivial
  | call c next ih => exact ⟨hΦ h c hp.1, fun s hs => ih _ (hp.2 s hs)⟩

/-- A program that only makes calls of one kind, when these suit every longer trace. -/
theorem of_makes {P : C → Prop} {p : Program C R ε α} (hp : p.Makes P)
    (hΦ : ∀ h', h <+: h' → ∀ c, P c → Φ h' c) (hΨ : ∀ h', h <+: h' → ∀ a, Ψ h' a) :
    Behaves handler I Φ Ψ h p := by
  induction p generalizing h with
  | pure a => exact hΨ h (List.prefix_refl h) a
  | raise e => trivial
  | call c next ih =>
    refine ⟨hΦ h (List.prefix_refl h) c hp.1, fun s _ => ih _ (hp.2 _) ?_ ?_⟩
    · exact fun h' hh => hΦ h' ((List.prefix_append h _).trans hh)
    · exact fun h' hh => hΨ h' ((List.prefix_append h _).trans hh)

/-- A thread that behaves goes on behaving when its call is answered in a state of `I`. -/
theorem answered {th : Thread C R ε α T} {c : C} {next : R c → Program C R ε α}
    (hth : Behaves handler I Φ Ψ th.trace th.rest) (hrest : th.rest = .call c next) {s : σ}
    (hs : I s) : Behaves handler I Φ Ψ (th.answered c (handler c s).1 next).trace
      (th.answered c (handler c s).1 next).rest := by
  rw [hrest] at hth
  exact hth.2 s hs

end Behaves
end FastapiTemplate
