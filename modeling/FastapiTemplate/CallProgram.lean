import Mathlib.Data.List.Basic
import Mathlib.Order.Basic

/-!
# Programs that call an outside world

A `Program` either returns, raises, or makes one call and continues with the
answer. Its meaning is fixed by a handler of the calls over a state, so one
program text has both a sequential execution (`execute`, here) and an
interleaved one, where other programs run between any two of its calls.

State changes made before an exception stay: `execute` returns the final state
also when the program raises.
-/

namespace FastapiTemplate

/-- A program with calls `c : C` answered in `R c`, exceptions in `ε` and results in `α`. -/
inductive Program (C : Type) (R : C → Type) (ε α : Type) : Type
  | pure (a : α)
  | raise (e : ε)
  | call (c : C) (next : R c → Program C R ε α)

namespace Program

variable {C : Type} {R : C → Type} {ε α β γ σ : Type}

def bind : Program C R ε α → (α → Program C R ε β) → Program C R ε β
  | .pure a, f => f a
  | .raise e, _ => .raise e
  | .call c next, f => .call c (fun r => bind (next r) f)

instance : Monad (Program C R ε) where
  pure := Program.pure
  bind := Program.bind

/-- Run a handler program in place of a raised exception. -/
def handle : Program C R ε α → (ε → Program C R ε α) → Program C R ε α
  | .pure a, _ => .pure a
  | .raise e, f => f e
  | .call c next, f => .call c (fun r => handle (next r) f)

def tryFinally (p : Program C R ε α) (q : Program C R ε Unit) : Program C R ε α :=
  match p with
  | .pure a => bind q (fun _ => .pure a)
  | .raise e => bind q (fun _ => .raise e)
  | .call c next => .call c (fun r => tryFinally (next r) q)

def perform (c : C) : Program C R ε (R c) := .call c .pure

def ofExcept : Except ε α → Program C R ε α
  | .ok a => .pure a
  | .error e => .raise e

/-- A raised exception becomes the result. -/
def attempt : Program C R ε α → Program C R ε (Except ε α)
  | .pure a => .pure (.ok a)
  | .raise e => .pure (.error e)
  | .call c next => .call c (fun r => attempt (next r))

/-- Every call is replaced by a program that computes its answer. -/
def expand {C' : Type} {R' : C' → Type} (f : (c : C) → Program C' R' ε (R c)) :
    Program C R ε α → Program C' R' ε α
  | .pure a => .pure a
  | .raise e => .raise e
  | .call c next => bind (f c) (fun r => expand f (next r))

@[simp] theorem pure_bind (a : α) (f : α → Program C R ε β) :
    (Pure.pure a >>= f : Program C R ε β) = f a := rfl

@[simp] theorem ret_bind (a : α) (f : α → Program C R ε β) :
    ((Program.pure a : Program C R ε α) >>= f) = f a := rfl

@[simp] theorem perform_bind (c : C) (f : R c → Program C R ε β) :
    (perform c >>= f) = Program.call c f := rfl

@[simp] theorem raise_bind (e : ε) (f : α → Program C R ε β) :
    ((Program.raise e : Program C R ε α) >>= f) = Program.raise e := rfl

@[simp] theorem call_bind (c : C) (next : R c → Program C R ε α) (f : α → Program C R ε β) :
    (Program.call c next >>= f) = Program.call c (fun r => next r >>= f) := rfl

theorem bind_assoc (p : Program C R ε α) (f : α → Program C R ε β) (g : β → Program C R ε γ) :
    p >>= f >>= g = p >>= fun a => f a >>= g := by
  induction p with
  | pure a => rfl
  | raise e => rfl
  | call c next ih => exact congrArg (Program.call c) (funext ih)

theorem bind_pure (p : Program C R ε α) : p >>= Pure.pure = p := by
  induction p with
  | pure a => rfl
  | raise e => rfl
  | call c next ih => exact congrArg (Program.call c) (funext ih)

/-! ## Sequential execution -/

/-- Execute against a handler, answering every call at once. -/
def execute (handler : (c : C) → σ → R c × σ) : Program C R ε α → σ → Except ε α × σ
  | .pure a, s => (.ok a, s)
  | .raise e, s => (.error e, s)
  | .call c next, s => execute handler (next (handler c s).1) (handler c s).2

section execute
variable (handler : (c : C) → σ → R c × σ)

@[simp] theorem execute_pure (a : α) (s : σ) :
    execute handler (Pure.pure a : Program C R ε α) s = (.ok a, s) := rfl

@[simp] theorem execute_ret (a : α) (s : σ) :
    execute handler (Program.pure a : Program C R ε α) s = (.ok a, s) := rfl

@[simp] theorem execute_raise (e : ε) (s : σ) :
    execute handler (Program.raise e : Program C R ε α) s = (.error e, s) := rfl

@[simp] theorem execute_call (c : C) (next : R c → Program C R ε α) (s : σ) :
    execute handler (.call c next) s = execute handler (next (handler c s).1) (handler c s).2 := rfl

@[simp] theorem execute_perform (c : C) (s : σ) :
    execute handler (perform c : Program C R ε (R c)) s = (.ok (handler c s).1, (handler c s).2) := rfl

theorem execute_bind (p : Program C R ε α) (f : α → Program C R ε β) (s : σ) :
    execute handler (p >>= f) s = match execute handler p s with
      | (.ok a, t) => execute handler (f a) t
      | (.error e, t) => (.error e, t) := by
  induction p generalizing s with
  | pure a => rfl
  | raise e => rfl
  | call c next ih => exact ih _ _

@[simp] theorem execute_perform_bind (c : C) (f : R c → Program C R ε β) (s : σ) :
    execute handler (perform c >>= f) s =
      execute handler (f (handler c s).1) (handler c s).2 := rfl

/-- A sequence that returns has two parts that return. -/
theorem execute_bind_ok {p : Program C R ε α} {f : α → Program C R ε β} {s u : σ} {b : β} :
    execute handler (p >>= f) s = (.ok b, u) ↔
      ∃ a t, execute handler p s = (.ok a, t) ∧ execute handler (f a) t = (.ok b, u) := by
  rw [execute_bind]
  rcases hp : execute handler p s with ⟨_ | a, t⟩
  · simp
  · constructor
    · intro h
      exact ⟨a, t, rfl, h⟩
    · rintro ⟨a', t', he, h⟩
      cases he
      exact h

theorem execute_handle (p : Program C R ε α) (f : ε → Program C R ε α) (s : σ) :
    execute handler (p.handle f) s = match execute handler p s with
      | (.ok a, t) => (.ok a, t)
      | (.error e, t) => execute handler (f e) t := by
  induction p generalizing s with
  | pure a => rfl
  | raise e => rfl
  | call c next ih => exact ih _ _

theorem execute_tryFinally (p : Program C R ε α) (q : Program C R ε Unit) (s : σ) :
    execute handler (p.tryFinally q) s = match execute handler p s with
      | (.ok a, t) => execute handler (q >>= fun _ => Program.pure a) t
      | (.error e, t) => execute handler (q >>= fun _ => Program.raise e) t := by
  induction p generalizing s with
  | pure a => rfl
  | raise e => rfl
  | call c next ih => exact ih _ _

theorem execute_attempt (p : Program C R ε α) (s : σ) :
    execute handler p.attempt s = (.ok (execute handler p s).1, (execute handler p s).2) := by
  induction p generalizing s with
  | pure a => rfl
  | raise e => rfl
  | call c next ih => exact ih _ _

/-- The calls of the execution with their answers. -/
def traceOf : Program C R ε α → σ → List ((c : C) × R c)
  | .pure _, _ => []
  | .raise _, _ => []
  | .call c next, s => ⟨c, (handler c s).1⟩ :: traceOf (next (handler c s).1) (handler c s).2

theorem traceOf_bind (p : Program C R ε α) (f : α → Program C R ε β) (s : σ) :
    traceOf handler (p >>= f) s = traceOf handler p s ++ match execute handler p s with
      | (.ok a, t) => traceOf handler (f a) t
      | (.error _, _) => [] := by
  induction p generalizing s with
  | pure a => rfl
  | raise e => rfl
  | call c next ih => exact congrArg (⟨c, (handler c s).1⟩ :: ·) (ih _ _)

theorem traceOf_handle (p : Program C R ε α) (f : ε → Program C R ε α) (s : σ) :
    traceOf handler (p.handle f) s = traceOf handler p s ++ match execute handler p s with
      | (.ok _, _) => []
      | (.error e, t) => traceOf handler (f e) t := by
  induction p generalizing s with
  | pure a => rfl
  | raise e => rfl
  | call c next ih => exact congrArg (⟨c, (handler c s).1⟩ :: ·) (ih _ _)

/-- The state that is left when the process stops after `n` calls, if it gets that far. -/
def executeFor : ℕ → Program C R ε α → σ → σ
  | 0, _, s => s
  | _ + 1, .pure _, s => s
  | _ + 1, .raise _, s => s
  | n + 1, .call c next, s => executeFor n (next (handler c s).1) (handler c s).2

theorem executeFor_raise (n : ℕ) (e : ε) (s : σ) :
    executeFor handler n (.raise e : Program C R ε α) s = s := by
  cases n <;> rfl

/-- What is done with the result does not matter when it takes no call. -/
theorem executeFor_bind_pure (n : ℕ) (p : Program C R ε α) (f : α → β) (s : σ) :
    executeFor handler n (p >>= fun a => pure (f a)) s = executeFor handler n p s := by
  induction p generalizing n s with
  | pure a => cases n <;> rfl
  | raise e => cases n <;> rfl
  | call c next ih =>
    cases n with
    | zero => rfl
    | succ n => exact ih _ n _

end execute

/-! ## Which calls a program makes -/

/-- Every call the program can make, whatever the answers, satisfies `P`. -/
def Makes (P : C → Prop) : Program C R ε α → Prop
  | .pure _ => True
  | .raise _ => True
  | .call c next => P c ∧ ∀ r, Makes P (next r)

section makes
variable {P Q : C → Prop}

@[simp] theorem makes_pure (a : α) : Makes P (Pure.pure a : Program C R ε α) := trivial

@[simp] theorem makes_raise (e : ε) : Makes P (Program.raise e : Program C R ε α) := trivial

@[simp] theorem makes_perform (c : C) : Makes P (perform c : Program C R ε (R c)) ↔ P c :=
  ⟨fun h => h.1, fun h => ⟨h, fun _ => trivial⟩⟩

theorem Makes.bind {p : Program C R ε α} {f : α → Program C R ε β}
    (hp : Makes P p) (hf : ∀ a, Makes P (f a)) : Makes P (p >>= f) := by
  induction p with
  | pure a => exact hf a
  | raise e => trivial
  | call c next ih => exact ⟨hp.1, fun r => ih r (hp.2 r)⟩

theorem Makes.handle {p : Program C R ε α} {f : ε → Program C R ε α}
    (hp : Makes P p) (hf : ∀ e, Makes P (f e)) : Makes P (p.handle f) := by
  induction p with
  | pure a => trivial
  | raise e => exact hf e
  | call c next ih => exact ⟨hp.1, fun r => ih r (hp.2 r)⟩

theorem Makes.mono {p : Program C R ε α} (hp : Makes P p) (h : ∀ c, P c → Q c) : Makes Q p := by
  induction p with
  | pure a => trivial
  | raise e => trivial
  | call c next ih => exact ⟨h c hp.1, fun r => ih r (hp.2 r)⟩

/-- The frame rule: what every permitted call does to the state, in a reflexive
and transitive relation, the whole program does. -/
theorem Makes.execute_rel {p : Program C R ε α} (hp : Makes P p)
    (handler : (c : C) → σ → R c × σ) (Rel : σ → σ → Prop) (hrefl : ∀ s, Rel s s)
    (htrans : ∀ s t u, Rel s t → Rel t u → Rel s u)
    (hcall : ∀ c, P c → ∀ s, Rel s (handler c s).2) (s : σ) :
    Rel s (execute handler p s).2 := by
  induction p generalizing s with
  | pure a => exact hrefl s
  | raise e => exact hrefl s
  | call c next ih =>
    exact htrans _ _ _ (hcall c hp.1 s) (ih _ (hp.2 _) _)

theorem makes_attempt {p : Program C R ε α} : Makes P p.attempt ↔ Makes P p := by
  induction p with
  | pure a => exact Iff.rfl
  | raise e => exact Iff.rfl
  | call c next ih => exact and_congr_right (fun _ => forall_congr' ih)

theorem Makes.tryFinally {p : Program C R ε α} {q : Program C R ε Unit} (hp : Makes P p)
    (hq : Makes P q) : Makes P (p.tryFinally q) := by
  induction p with
  | pure a => exact hq.bind (fun _ => trivial)
  | raise e => exact hq.bind (fun _ => trivial)
  | call c next ih => exact ⟨hp.1, fun r => ih r (hp.2 r)⟩

theorem Makes.of_bind {p : Program C R ε α} {f : α → Program C R ε β} (h : Makes P (p >>= f)) :
    Makes P p := by
  induction p with
  | pure a => trivial
  | raise e => trivial
  | call c next ih => exact ⟨h.1, fun r => ih r (h.2 r)⟩

theorem Makes.of_handle {p : Program C R ε α} {f : ε → Program C R ε α}
    (h : Makes P (p.handle f)) : Makes P p := by
  induction p with
  | pure a => trivial
  | raise e => trivial
  | call c next ih => exact ⟨h.1, fun r => ih r (h.2 r)⟩

theorem Makes.expand {C' : Type} {R' : C' → Type} {f : (c : C) → Program C' R' ε (R c)}
    {P' : C' → Prop} {p : Program C R ε α} (hp : Makes P p) (hf : ∀ c, P c → Makes P' (f c)) :
    Makes P' (p.expand f) := by
  induction p with
  | pure a => trivial
  | raise e => trivial
  | call c next ih => exact (hf c hp.1).bind (fun r => ih r (hp.2 r))

end makes

def CanReturn (a : α) : Program C R ε α → Prop
  | .pure b => b = a
  | .raise _ => False
  | .call _ next => ∃ r, CanReturn a (next r)

theorem CanReturn.makes {P : C → Prop} {p : Program C R ε α} {f : α → Program C R ε β} {a : α}
    (ha : CanReturn a p) (h : Makes P (p >>= f)) : Makes P (f a) := by
  induction p with
  | pure b =>
    cases ha
    exact h
  | raise e => cases ha
  | call c next ih =>
    obtain ⟨r, hr⟩ := ha
    exact ih r hr (h.2 r)

theorem CanReturn.bind {p : Program C R ε α} {f : α → Program C R ε β} {a : α} {b : β}
    (ha : CanReturn a p) (hb : CanReturn b (f a)) : CanReturn b (p >>= f) := by
  induction p with
  | pure a' =>
    cases ha
    exact hb
  | raise e => cases ha
  | call c next ih =>
    obtain ⟨r, hr⟩ := ha
    exact ⟨r, ih r hr⟩

theorem CanReturn.handle {p : Program C R ε α} {f : ε → Program C R ε α} {a : α}
    (ha : CanReturn a p) : CanReturn a (p.handle f) := by
  induction p with
  | pure a' => exact ha
  | raise e => cases ha
  | call c next ih =>
    obtain ⟨r, hr⟩ := ha
    exact ⟨r, ih r hr⟩

theorem CanReturn.attempt {p : Program C R ε α} {a : α} (ha : CanReturn a p) :
    CanReturn (.ok a) p.attempt := by
  induction p with
  | pure a' =>
    cases ha
    rfl
  | raise e => cases ha
  | call c next ih =>
    obtain ⟨r, hr⟩ := ha
    exact ⟨r, ih r hr⟩

/-! ## Pre- and postconditions -/

/-- Whenever the program returns from a state in `Pre`, result and final state are in `Post`. -/
def Ensures (handler : (c : C) → σ → R c × σ) (Pre : σ → Prop) (p : Program C R ε α)
    (Post : α → σ → Prop) : Prop :=
  ∀ s, Pre s → ∀ a t, execute handler p s = (.ok a, t) → Post a t

section ensures
variable {handler : (c : C) → σ → R c × σ} {Pre : σ → Prop} {Post : α → σ → Prop}

theorem Ensures.pure {a : α} (h : ∀ s, Pre s → Post a s) :
    Ensures handler Pre (Pure.pure a : Program C R ε α) Post := by
  intro s hs b t he
  cases he
  exact h s hs

theorem Ensures.bind {p : Program C R ε β} {f : β → Program C R ε α} {Mid : β → σ → Prop}
    (hp : Ensures handler Pre p Mid) (hf : ∀ b, Ensures handler (Mid b) (f b) Post) :
    Ensures handler Pre (p >>= f) Post := by
  intro s hs a t he
  obtain ⟨b, u, hpb, hfb⟩ := (execute_bind_ok handler).mp he
  exact hf b u (hp s hs b u hpb) a t hfb

/-- An assertion about the result of a sequence that only its last part decides. -/
theorem Ensures.last {p : Program C R ε β} {f : β → Program C R ε α}
    (hf : ∀ b, Ensures handler (fun _ => True) (f b) Post) : Ensures handler Pre (p >>= f) Post := by
  have hp : Ensures handler Pre p (fun _ _ => True) := fun _ _ _ _ _ => trivial
  exact hp.bind hf

end ensures
end Program
end FastapiTemplate
