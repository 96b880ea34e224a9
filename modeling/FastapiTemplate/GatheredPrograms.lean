import FastapiTemplate.CallProgram

/-!
# Two programs at once

`asyncio.gather` of two programs: their calls interleave in some order until both are done,
and an exception of the one does not stop the other. If every call of the one commutes with
every call of the other, then each order ends as if the second had run after the first.
-/

namespace FastapiTemplate.Program

variable {C : Type} {R : C → Type} {ε α β σ : Type}

/-- Both programs to their end. An entry `true` of the schedule is a turn of the first and `false`
one of the second; a program that is done leaves its turn to nobody. -/
def together : List Bool → Program C R ε α → Program C R ε β →
    Program C R ε (Except ε α × Except ε β)
  | [], p, q => do
    let a ← p.attempt
    let b ← q.attempt
    pure (a, b)
  | true :: rest, .call c next, q => .call c (fun r => together rest (next r) q)
  | false :: rest, p, .call c next => .call c (fun r => together rest p (next r))
  | _ :: rest, p, q => together rest p q

def gather (schedule : List Bool) (p : Program C R ε α) (q : Program C R ε β) :
    Program C R ε (α × β) := do
  let (a, b) ← together schedule p q
  let a ← ofExcept a
  let b ← ofExcept b
  pure (a, b)

section commute
variable (handler : (c : C) → σ → R c × σ)

structure Commutes (c d : C) : Prop where
  left : ∀ s, (handler c (handler d s).2).1 = (handler c s).1
  right : ∀ s, (handler d (handler c s).2).1 = (handler d s).1
  state : ∀ s, (handler c (handler d s).2).2 = (handler d (handler c s).2).2

variable {handler} {P Q : C → Prop} {p : Program C R ε α} {q : Program C R ε β}

/-- A call that commutes with all calls of a program can be made before or after it. -/
theorem Makes.execute_commutes {d : C} (hp : p.Makes P) (hd : ∀ c, P c → Commutes handler c d)
    (s : σ) :
    execute handler p (handler d s).2 =
        ((execute handler p s).1, (handler d (execute handler p s).2).2) ∧
      (handler d (execute handler p s).2).1 = (handler d s).1 := by
  induction p generalizing s with
  | pure a => exact ⟨rfl, rfl⟩
  | raise e => exact ⟨rfl, rfl⟩
  | call c next ih =>
    have hc := hd c hp.1
    obtain ⟨hexec, hanswer⟩ := ih (handler c s).1 (hp.2 _) (handler c s).2
    constructor
    · rw [execute_call, execute_call, hc.left, hc.state, hexec]
    · rw [execute_call, hanswer, hc.right]

theorem execute_together_nil (s : σ) :
    execute handler (together [] p q) s =
      (.ok ((execute handler p s).1, (execute handler q (execute handler p s).2).1),
        (execute handler q (execute handler p s).2).2) := by
  simp only [together, execute_bind, execute_attempt]
  rfl

theorem execute_together (hp : p.Makes P) (hq : q.Makes Q)
    (hcomm : ∀ c d, P c → Q d → Commutes handler c d) (schedule : List Bool) (s : σ) :
    execute handler (together schedule p q) s = execute handler (together [] p q) s := by
  induction schedule generalizing p q s with
  | nil => rfl
  | cons first rest ih =>
    cases first with
    | true =>
      cases p with
      | pure a => exact ih hp hq s
      | raise e => exact ih hp hq s
      | call c next =>
        have hturn : together (true :: rest) (.call c next) q =
            .call c (fun r => together rest (next r) q) := rfl
        rw [hturn, execute_call, ih (hp.2 _) hq, execute_together_nil, execute_together_nil,
          execute_call]
    | false =>
      cases q with
      | pure b => cases p <;> exact ih hp hq s
      | raise e => cases p <;> exact ih hp hq s
      | call d next =>
        have hturn : together (false :: rest) p (.call d next) =
            .call d (fun r => together rest p (next r)) := by
          cases p <;> rfl
        obtain ⟨hexec, hanswer⟩ := hp.execute_commutes (fun c hc => hcomm c d hc hq.1) s
        rw [hturn, execute_call, ih hp (hq.2 _), execute_together_nil, execute_together_nil, hexec,
          execute_call, hanswer]

/-- Both results, or the exception of the first program that has one. -/
def gathered : Except ε α → Except ε β → Except ε (α × β)
  | .ok a, .ok b => .ok (a, b)
  | .ok _, .error e => .error e
  | .error e, _ => .error e

/-- The result and the state of two programs whose calls commute, whatever their order. -/
theorem execute_gather (hp : p.Makes P) (hq : q.Makes Q)
    (hcomm : ∀ c d, P c → Q d → Commutes handler c d) (schedule : List Bool) (s : σ) :
    execute handler (gather schedule p q) s =
      (gathered (execute handler p s).1 (execute handler q (execute handler p s).2).1,
        (execute handler q (execute handler p s).2).2) := by
  rw [gather, execute_bind, execute_together hp hq hcomm, execute_together_nil]
  rcases (execute handler p s).1 with e | a
  · rfl
  · rcases (execute handler q (execute handler p s).2).1 with e | b <;> rfl

end commute
end FastapiTemplate.Program
