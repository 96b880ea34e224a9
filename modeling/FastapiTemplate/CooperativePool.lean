import FastapiTemplate.ProgramPool

/-!
# Pools of cooperative programs

Some of the calls are awaited, and the others take effect at once. A move of a thread performs the
call that it awaits, and then whatever follows until the next awaited call, so that threads are
interleaved at their awaits only. `Cooperates` says what a program has done whenever a turn of it
ends, whatever has happened before the turn.
-/

namespace FastapiTemplate

variable {C : Type} {R : C → Type} {ε α β T E σ : Type}

namespace Program

variable (awaits : C → Bool) (handler : (c : C) → σ → R c × σ)

def untilAwait : Program C R ε α → σ → Program C R ε α × σ
  | .pure a, s => (.pure a, s)
  | .raise e, s => (.raise e, s)
  | .call c next, s =>
    if awaits c then (.call c next, s) else untilAwait (next (handler c s).1) (handler c s).2

/-- One turn: the awaited call, if there is one, and what follows it. -/
def turn : Program C R ε α → σ → Program C R ε α × σ
  | .call c next, s =>
    if awaits c then untilAwait awaits handler (next (handler c s).1) (handler c s).2
    else untilAwait awaits handler (.call c next) s
  | p, s => (p, s)

end Program

structure CooperativeSystem (C : Type) (R : C → Type) (ε α T E σ : Type) extends
    PoolSystem C R ε α T E σ where
  awaits : C → Bool

namespace CooperativeSystem

variable (S : CooperativeSystem C R ε α T E σ)

def turn (th : Thread C R ε α T) (s : σ) : Thread C R ε α T × σ :=
  let (rest, t) := th.rest.turn S.awaits S.handler s
  ({ th with rest := rest }, t)

def step (p : Pool C R ε α T σ) : PoolMove T E → Pool C R ε α T σ
  | .spawn tag => { p with threads := p.threads ++ [S.fresh tag] }
  | .environment e => { p with state := S.environment e p.state }
  | .advance i =>
    match p.threads[i]? with
    | none => p
    | some th => ⟨(S.turn th p.state).2, p.threads.set i (S.turn th p.state).1⟩

inductive StepCase (p : Pool C R ε α T σ) : PoolMove T E → Pool C R ε α T σ → Prop
  | spawn (tag : T) : StepCase p (.spawn tag) { p with threads := p.threads ++ [S.fresh tag] }
  | environment (e : E) :
      StepCase p (.environment e) { p with state := S.environment e p.state }
  | idle (i : ℕ) : StepCase p (.advance i) p
  | turn {i : ℕ} {th : Thread C R ε α T} {c : C} {next : R c → Program C R ε α}
      (hth : p.threads[i]? = some th) (hrest : th.rest = .call c next) :
      StepCase p (.advance i) ⟨(S.turn th p.state).2, p.threads.set i (S.turn th p.state).1⟩

theorem turn_of_nextCall {th : Thread C R ε α T} (h : th.nextCall = none) (s : σ) :
    S.turn th s = (th, s) := by
  obtain ⟨tag, trace, rest⟩ := th
  cases rest with
  | call c next => cases h
  | _ => rfl

theorem step_cases (p : Pool C R ε α T σ) (m : PoolMove T E) : S.StepCase p m (S.step p m) := by
  cases m with
  | spawn tag => exact .spawn tag
  | environment e => exact .environment e
  | advance i =>
    cases hth : p.threads[i]? with
    | none =>
      have hstep : S.step p (.advance i) = p := by simp only [step, hth]
      rw [hstep]
      exact .idle i
    | some th =>
      have hstep : S.step p (.advance i) =
          ⟨(S.turn th p.state).2, p.threads.set i (S.turn th p.state).1⟩ := by
        simp only [step, hth]
      cases hcall : th.nextCall with
      | none =>
        have hset : p.threads.set i th = p.threads := by
          obtain ⟨hlt, heq⟩ := List.getElem?_eq_some_iff.mp hth
          rw [← heq]
          exact List.set_getElem_self hlt
        rw [hstep, S.turn_of_nextCall hcall, hset]
        exact .idle i
      | some c =>
        obtain ⟨next, hrest⟩ := Thread.rest_of_nextCall hcall
        rw [hstep]
        exact .turn hth hrest

end CooperativeSystem

/-! ## What a program has done when a turn ends -/

/-- In which states a turn may begin, and what holds between the one after its awaited call and the
one in which it ends, by the call that began it and the call that is awaited next. -/
structure TurnSpec (C : Type) (R : C → Type) (ε σ : Type) where
  awaits : C → Bool
  handler : (c : C) → σ → R c × σ
  good : Option C → σ → Prop
  ends : Option C → σ → σ → Option C → Prop
  fails : Option C → σ → σ → ε → Prop

namespace TurnSpec

variable (P : TurnSpec C R ε σ)

/-- Every turn of the program ends as specified, if all begin in good states. -/
def Cooperates (Post : Option C → σ → σ → α → Prop) : Option C → σ → σ → Program C R ε α → Prop
  | b, s₀, s, .pure a => Post b s₀ s a
  | b, s₀, s, .raise e => P.fails b s₀ s e
  | b, s₀, s, .call c next =>
    if P.awaits c then
      P.ends b s₀ s (some c) ∧ ∀ t, P.good (some c) t →
        Cooperates Post (some c) (P.handler c t).2 (P.handler c t).2 (next (P.handler c t).1)
    else Cooperates Post b s₀ (P.handler c s).2 (next (P.handler c s).1)

/-- A program between two turns: at an awaited call, before its first turn, or at its end. -/
def Suspended (Post : Option C → σ → σ → α → Prop) : Program C R ε α → Prop
  | .call c next =>
    if P.awaits c then
      ∀ t, P.good (some c) t →
        P.Cooperates Post (some c) (P.handler c t).2 (P.handler c t).2 (next (P.handler c t).1)
    else ∀ t, P.good none t → P.Cooperates Post none t t (.call c next)
  | _ => True

def Ended (Post : Option C → σ → σ → α → Prop) (b : Option C) (s₀ s : σ) : Program C R ε α → Prop
  | .pure a => Post b s₀ s a
  | .raise e => P.fails b s₀ s e
  | .call c _ => P.ends b s₀ s (some c)

variable {P} {Post : Option C → σ → σ → α → Prop} {b : Option C} {s₀ s : σ} {c : C}
  {next : R c → Program C R ε α}

theorem cooperates_await (hc : P.awaits c = true) : P.Cooperates Post b s₀ s (.call c next) ↔
    P.ends b s₀ s (some c) ∧ ∀ t, P.good (some c) t →
      P.Cooperates Post (some c) (P.handler c t).2 (P.handler c t).2 (next (P.handler c t).1) := by
  rw [Cooperates, if_pos hc]

theorem cooperates_sync (hc : P.awaits c = false) : P.Cooperates Post b s₀ s (.call c next) ↔
    P.Cooperates Post b s₀ (P.handler c s).2 (next (P.handler c s).1) := by
  rw [Cooperates, if_neg (Bool.not_eq_true _ ▸ hc)]

/-- A call that takes effect at once, with its answer. -/
theorem cooperates_answered (hc : P.awaits c = false) {r : R c} {t : σ} (hanswer : P.handler c s = (r, t))
    (hnext : P.Cooperates Post b s₀ t (next r)) : P.Cooperates Post b s₀ s (.call c next) := by
  rw [cooperates_sync hc, hanswer]
  exact hnext

theorem suspended_await (hc : P.awaits c = true) : P.Suspended Post (.call c next) ↔
    ∀ t, P.good (some c) t →
      P.Cooperates Post (some c) (P.handler c t).2 (P.handler c t).2 (next (P.handler c t).1) := by
  simp only [Suspended, hc, if_true]

theorem suspended_sync (hc : P.awaits c = false) : P.Suspended Post (.call c next) ↔
    ∀ t, P.good none t → P.Cooperates Post none t t (.call c next) := by
  simp [Suspended, hc]

namespace Cooperates

theorem untilAwait {p : Program C R ε α} (hp : P.Cooperates Post b s₀ s p) :
    P.Ended Post b s₀ (p.untilAwait P.awaits P.handler s).2 (p.untilAwait P.awaits P.handler s).1 ∧
      P.Suspended Post (p.untilAwait P.awaits P.handler s).1 := by
  induction p generalizing s with
  | pure a => exact ⟨hp, trivial⟩
  | raise e => exact ⟨hp, trivial⟩
  | call c next ih =>
    by_cases hc : P.awaits c = true
    · obtain ⟨hends, hnext⟩ := (cooperates_await hc).mp hp
      rw [Program.untilAwait, if_pos hc]
      exact ⟨hends, (suspended_await hc).mpr hnext⟩
    · rw [Program.untilAwait, if_neg hc]
      rw [Bool.not_eq_true] at hc
      exact ih _ ((cooperates_sync hc).mp hp)

end Cooperates

/-- A turn that begins with its awaited call. -/
theorem Suspended.turn_await (h : P.Suspended Post (.call c next)) (hs : P.good (some c) s)
    (hc : P.awaits c = true) :
    P.Ended Post (some c) (P.handler c s).2 ((Program.call c next).turn P.awaits P.handler s).2
        ((Program.call c next).turn P.awaits P.handler s).1 ∧
      P.Suspended Post ((Program.call c next).turn P.awaits P.handler s).1 := by
  rw [Program.turn, if_pos hc]
  exact ((suspended_await hc).mp h s hs).untilAwait

/-- The first turn of a program that does not begin with an awaited call. -/
theorem Suspended.turn_sync (h : P.Suspended Post (.call c next)) (hs : P.good none s)
    (hc : P.awaits c = false) :
    P.Ended Post none s ((Program.call c next).turn P.awaits P.handler s).2
        ((Program.call c next).turn P.awaits P.handler s).1 ∧
      P.Suspended Post ((Program.call c next).turn P.awaits P.handler s).1 := by
  rw [Program.turn, if_neg (Bool.not_eq_true _ ▸ hc)]
  exact ((suspended_sync hc).mp h s hs).untilAwait

end TurnSpec
end FastapiTemplate
