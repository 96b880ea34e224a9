import FastapiTemplate.GatheredPrograms
import Mathlib.Logic.Function.Iterate

/-!
# Statements over a connection that can fail

An attempt to make a statement either reaches the server and is answered, or never reaches
it, or is executed while its answer is lost. A helper repeats a statement after some of the
connection errors. What a program that makes such statements leaves behind when it raises is
decided by three questions about the attempts: whether one of them is executed, whether one
of them is answered, and whether the first that is executed is answered.
-/

namespace FastapiTemplate

inductive AttemptFate (η : Type)
  | answered
  /-- the server executes nothing, for want of a connection or for a reason of its own -/
  | refused (e : η)
  /-- the server executes the statement and its answer is lost -/
  | lost (e : η)
  deriving DecidableEq, Repr

/-- An exception: the server rejects the statement, the attempt fails, or the caller raises. -/
inductive Raised (δ η : Type)
  | rejected (e : δ)
  | connection (e : η)
  | value (message : String)
  deriving DecidableEq, Repr

def Raised.FromStatement {δ η : Type} : Raised δ η → Prop
  | .value _ => False
  | _ => True

namespace AttemptFate
variable {η : Type}

@[simp] def isAnswered : AttemptFate η → Bool
  | .answered => true
  | _ => false

@[simp] def isExecuted : AttemptFate η → Bool
  | .refused _ => false
  | _ => true

@[simp] def isRetried (retried : η → Bool) : AttemptFate η → Bool
  | .answered => false
  | .refused e => retried e
  | .lost e => retried e

section attempts
variable (retried : η → Bool) (fates : ℕ → AttemptFate η)

/-! The attempts are those from number `k` on, at most `n` after the first. -/

def executes : ℕ → ℕ → Bool
  | 0, k => (fates k).isExecuted
  | n + 1, k => (fates k).isExecuted || ((fates k).isRetried retried && executes n (k + 1))

def answers : ℕ → ℕ → Bool
  | 0, k => (fates k).isAnswered
  | n + 1, k => (fates k).isAnswered || ((fates k).isRetried retried && answers n (k + 1))

def answersFirst : ℕ → ℕ → Bool
  | 0, k => (fates k).isAnswered
  | n + 1, k => (fates k).isAnswered ||
      (!(fates k).isExecuted && (fates k).isRetried retried && answersFirst n (k + 1))

variable {retried fates}

theorem executes_of_answers {n k : ℕ} (h : answers retried fates n k) :
    executes retried fates n k := by
  induction n generalizing k with
  | zero =>
    unfold answers at h
    unfold executes
    cases hfate : fates k <;> simp_all
  | succ n ih =>
    unfold answers at h
    unfold executes
    cases hfate : fates k with
    | answered => rfl
    | lost e => rfl
    | refused e =>
      simp only [hfate, isAnswered, isExecuted, isRetried, Bool.false_or, Bool.and_eq_true] at h ⊢
      exact ⟨h.1, ih h.2⟩

theorem executes_of_answersFirst {n k : ℕ} (h : answersFirst retried fates n k) :
    executes retried fates n k := by
  induction n generalizing k with
  | zero =>
    unfold answersFirst at h
    unfold executes
    cases hfate : fates k <;> simp_all
  | succ n ih =>
    unfold answersFirst at h
    unfold executes
    cases hfate : fates k with
    | answered => rfl
    | lost e => rfl
    | refused e =>
      simp only [hfate, isAnswered, isExecuted, isRetried, Bool.false_or, Bool.not_false,
        Bool.true_and, Bool.and_eq_true] at h ⊢
      exact ⟨h.1, ih h.2⟩

end attempts
end AttemptFate

/-! ## Requests to the server -/

/-- Statements of the family `S`; a transaction runs its body on a copy of the state. -/
inductive StatementCall (S : Type)
  | attempt (s : S) (number : ℕ)
  | transaction (body : List S)

@[reducible] def StatementCall.Answer {S : Type} (V : S → Type) (δ η : Type) : StatementCall S → Type
  | .attempt s _ => Except (Raised δ η) (V s)
  | .transaction _ => Except (Raised δ η) Unit

abbrev StatementProgram {S : Type} (V : S → Type) (δ η α : Type) :=
  Program (StatementCall S) (StatementCall.Answer V δ η) (Raised δ η) α

/-- The fates of the attempts at every statement, and of the `COMMIT` of a transaction. -/
structure Fates (S η : Type) where
  attempt : S → ℕ → AttemptFate η
  commit : AttemptFate η

section calls
variable {S : Type} {V : S → Type} {δ η σ α : Type}
variable (run : (s : S) → σ → Except δ (V s) × σ) (fates : Fates S η)

def runAttempt (s : S) (number : ℕ) (t : σ) : Except (Raised δ η) (V s) × σ :=
  match fates.attempt s number with
  | .answered => ((run s t).1.mapError .rejected, (run s t).2)
  | .refused e => (.error (.connection e), t)
  | .lost e => (.error (.connection e), (run s t).2)

/-- The statements of a transaction up to the first that fails; none is repeated. -/
def runBody : List S → σ → Except (Raised δ η) Unit × σ
  | [], t => (.ok (), t)
  | s :: body, t =>
    match runAttempt run fates s 0 t with
    | (.ok _, u) => runBody body u
    | (.error e, u) => (.error e, u)

/-- Whatever raises before the `COMMIT` rolls the transaction back. -/
def runTransaction (body : List S) (t : σ) : Except (Raised δ η) Unit × σ :=
  match runBody run fates body t with
  | (.error e, _) => (.error e, t)
  | (.ok (), u) =>
    match fates.commit with
    | .answered => (.ok (), u)
    | .refused e => (.error (.connection e), t)
    | .lost e => (.error (.connection e), u)

def statementHandler : (c : StatementCall S) → σ → c.Answer V δ η × σ
  | .attempt s number, t => runAttempt run fates s number t
  | .transaction body, t => runTransaction run fates body t

/-! ## Programs -/

def Raised.isRetried (retried : η → Bool) : Raised δ η → Bool
  | .connection e => retried e
  | _ => false

/-- A statement with at most `n` attempts after the one with number `k`. -/
def statement (retried : η → Bool) (s : S) : ℕ → ℕ → StatementProgram V δ η (V s)
  | 0, k => do Program.ofExcept (← Program.perform (.attempt s k))
  | n + 1, k => do
    match ← Program.perform (StatementCall.attempt s k) with
    | .ok v => pure v
    | .error e => if e.isRetried retried then statement retried s n (k + 1) else .raise e

def transaction (body : List S) : StatementProgram V δ η Unit := do
  Program.ofExcept (← Program.perform (.transaction body))

/-! ### The outcome of a repeated statement -/

variable {run fates} {retried : η → Bool} {s : S}

theorem statement_makes (n k : ℕ) : (statement (V := V) (δ := δ) retried s n k).Makes
    (fun c => ∃ i, c = .attempt s i) := by
  induction n generalizing k with
  | zero =>
    refine ⟨⟨k, rfl⟩, ?_⟩
    rintro (e | v) <;> trivial
  | succ n ih =>
    refine ⟨⟨k, rfl⟩, ?_⟩
    rintro (e | v)
    · change Program.Makes _
        (if e.isRetried retried then statement retried s n (k + 1) else Program.raise e)
      split_ifs
      · exact ih (k + 1)
      · trivial
    · trivial

/-- The attempts at two statements commute if the statements do. -/
theorem attempt_commutes {s s' : S} (h : Program.Commutes run s s') (i j : ℕ) :
    Program.Commutes (statementHandler run fates) (.attempt s i) (.attempt s' j) := by
  constructor
  · intro t
    simp only [statementHandler, runAttempt]
    cases fates.attempt s i <;> cases fates.attempt s' j <;> simp only [h.left]
  · intro t
    simp only [statementHandler, runAttempt]
    cases fates.attempt s i <;> cases fates.attempt s' j <;> simp only [h.right]
  · intro t
    simp only [statementHandler, runAttempt]
    cases fates.attempt s i <;> cases fates.attempt s' j <;> simp only [h.state]

theorem execute_transaction (body : List S) (t : σ) :
    (transaction (V := V) (δ := δ) body).execute (statementHandler run fates) t =
      runTransaction run fates body t := by
  rw [transaction, Program.execute_perform_bind]
  simp only [statementHandler]
  obtain ⟨_ | v, u⟩ := runTransaction run fates body t <;> rfl

theorem execute_statement_zero (k : ℕ) (t : σ) :
    (statement (V := V) (δ := δ) retried s 0 k).execute (statementHandler run fates) t =
      runAttempt run fates s k t := by
  rw [statement, Program.execute_perform_bind]
  simp only [statementHandler]
  obtain ⟨_ | v, u⟩ := runAttempt run fates s k t <;> rfl

theorem execute_statement_succ (n k : ℕ) (t : σ) :
    (statement (V := V) (δ := δ) retried s (n + 1) k).execute (statementHandler run fates) t =
      match fates.attempt s k with
      | .answered => ((run s t).1.mapError .rejected, (run s t).2)
      | .refused e =>
        if retried e then (statement retried s n (k + 1)).execute (statementHandler run fates) t
        else (.error (.connection e), t)
      | .lost e =>
        if retried e then
          (statement retried s n (k + 1)).execute (statementHandler run fates) (run s t).2
        else (.error (.connection e), (run s t).2) := by
  rw [statement, Program.execute_perform_bind]
  simp only [statementHandler, runAttempt]
  cases fates.attempt s k with
  | answered => obtain ⟨_ | v, u⟩ := run s t <;> rfl
  | refused e => by_cases he : retried e <;> simp [Raised.isRetried, he]
  | lost e => by_cases he : retried e <;> simp [Raised.isRetried, he]

variable (fates retried)

theorem statement_rejected {t : σ} {e : δ} (h : run s t = (.error e, t)) (n k : ℕ) :
    ∃ x : Raised δ η, x.FromStatement ∧
      (statement (V := V) retried s n k).execute (statementHandler run fates) t = (.error x, t) := by
  induction n generalizing k with
  | zero =>
    rw [execute_statement_zero, runAttempt, h]
    cases fates.attempt s k with
    | answered => exact ⟨.rejected e, trivial, rfl⟩
    | refused x => exact ⟨.connection x, trivial, rfl⟩
    | lost x => exact ⟨.connection x, trivial, rfl⟩
  | succ n ih =>
    rw [execute_statement_succ, h]
    cases fates.attempt s k with
    | answered => exact ⟨.rejected e, trivial, rfl⟩
    | refused x =>
      by_cases hx : retried x
      · simpa only [hx, if_true] using ih (k + 1)
      · exact ⟨.connection x, trivial, if_neg hx⟩
    | lost x =>
      by_cases hx : retried x
      · simpa only [hx, if_true] using ih (k + 1)
      · exact ⟨.connection x, trivial, if_neg hx⟩

/-- What a statement comes to: its answer, or an exception of an attempt. -/
def Outcome {α : Type} (returns : Bool) (v : α) (r : Except (Raised δ η) α) : Prop :=
  if returns then r = .ok v else ∃ x : Raised δ η, x.FromStatement ∧ r = .error x

theorem outcome_ok {v : α} : Outcome true v (.ok v : Except (Raised δ η) α) := rfl

theorem outcome_connection {v : α} (e : η) :
    Outcome false v (.error (.connection e) : Except (Raised δ η) α) :=
  ⟨.connection e, trivial, rfl⟩

/-- Two programs at once return what both return. -/
theorem Outcome.gathered {α β : Type} {a b : Bool} {x : α} {y : β} {q : Except (Raised δ η) α}
    {r : Except (Raised δ η) β} (hq : Outcome a x q) (hr : Outcome b y r) :
    Outcome (a && b) (x, y) (Program.gathered q r) := by
  cases a with
  | false =>
    obtain ⟨e, he, rfl⟩ := hq
    exact ⟨e, he, rfl⟩
  | true =>
    cases hq
    cases b with
    | false =>
      obtain ⟨e, he, rfl⟩ := hr
      exact ⟨e, he, rfl⟩
    | true =>
      cases hr
      rfl

/-- A statement that is accepted once returns if its first execution is answered. -/
theorem statement_once {t u : σ} {v : V s} {e : δ} (h : run s t = (.ok v, u))
    (hagain : run s u = (.error e, u)) (n k : ℕ) :
    ∃ r, Outcome (AttemptFate.answersFirst retried (fates.attempt s) n k) v r ∧
      (statement (δ := δ) retried s n k).execute (statementHandler run fates) t =
        (r, if AttemptFate.executes retried (fates.attempt s) n k then u else t) := by
  induction n generalizing k with
  | zero =>
    rw [execute_statement_zero, runAttempt, h, AttemptFate.answersFirst, AttemptFate.executes]
    cases fates.attempt s k with
    | answered => exact ⟨_, outcome_ok, rfl⟩
    | refused x => exact ⟨_, outcome_connection x, rfl⟩
    | lost x => exact ⟨_, outcome_connection x, rfl⟩
  | succ n ih =>
    rw [execute_statement_succ, h, AttemptFate.answersFirst, AttemptFate.executes]
    cases fates.attempt s k with
    | answered => exact ⟨_, outcome_ok, rfl⟩
    | refused x =>
      cases hx : retried x with
      | false => exact ⟨_, by simpa [hx] using outcome_connection x, by simp [hx]⟩
      | true => simpa [hx] using ih (k + 1)
    | lost x =>
      cases hx : retried x with
      | false => exact ⟨_, outcome_connection x, by simp [hx]⟩
      | true =>
        obtain ⟨y, hy, hrest⟩ := statement_rejected fates retried hagain n (k + 1)
        exact ⟨_, ⟨y, hy, rfl⟩, by simpa [hx] using hrest⟩

/-- A statement that is accepted however often it is made takes effect `j` times. -/
theorem statement_repeatable {P : σ → Prop} {g : σ → σ} {v : V s}
    (hrun : ∀ t, P t → run s t = (.ok v, g t) ∧ P (g t)) {t : σ} (ht : P t) (n k : ℕ) :
    ∃ j r, (AttemptFate.executes retried (fates.attempt s) n k ↔ 0 < j) ∧
      Outcome (AttemptFate.answers retried (fates.attempt s) n k) v r ∧
      (statement (δ := δ) retried s n k).execute (statementHandler run fates) t =
        (r, g^[j] t) := by
  induction n generalizing k t with
  | zero =>
    rw [execute_statement_zero, runAttempt, (hrun t ht).1, AttemptFate.answers,
      AttemptFate.executes]
    cases fates.attempt s k with
    | answered => exact ⟨1, _, by simp, outcome_ok, rfl⟩
    | refused x => exact ⟨0, _, by simp, outcome_connection x, rfl⟩
    | lost x => exact ⟨1, _, by simp, outcome_connection x, rfl⟩
  | succ n ih =>
    rw [execute_statement_succ, (hrun t ht).1, AttemptFate.answers, AttemptFate.executes]
    cases fates.attempt s k with
    | answered => exact ⟨1, _, by simp, outcome_ok, rfl⟩
    | refused x =>
      cases hx : retried x with
      | false => exact ⟨0, _, by simp [hx], by simpa [hx] using outcome_connection x, by simp [hx]⟩
      | true => simpa [hx] using ih ht (k + 1)
    | lost x =>
      cases hx : retried x with
      | false => exact ⟨1, _, by simp, by simpa [hx] using outcome_connection x, by simp [hx]⟩
      | true =>
        obtain ⟨j, r, -, hr, hexec⟩ := ih (hrun t ht).2 (k + 1)
        exact ⟨j + 1, r, by simp, by simpa [hx] using hr, by simpa [hx] using hexec⟩

/-- A statement that does nothing when it is made again has taken effect once. -/
theorem iterate_of_idem {g : σ → σ} {t : σ} {j : ℕ} (h : g (g t) = g t) (hj : 0 < j) :
    g^[j] t = g t := by
  obtain ⟨i, rfl⟩ := Nat.exists_eq_succ_of_ne_zero (Nat.ne_of_gt hj)
  rw [Function.iterate_succ_apply]
  exact Function.iterate_fixed h i

/-- A statement that only reads. -/
theorem statement_read {t : σ} {v : V s} (h : run s t = (.ok v, t)) (n k : ℕ) :
    ∃ r, Outcome (AttemptFate.answers retried (fates.attempt s) n k) v r ∧
      (statement (δ := δ) retried s n k).execute (statementHandler run fates) t = (r, t) := by
  have hrun : ∀ u, u = t → run s u = (.ok v, id u) ∧ id u = t := by
    rintro u rfl
    exact ⟨h, rfl⟩
  obtain ⟨j, r, -, hr, hexec⟩ := statement_repeatable fates retried hrun rfl n k
  rw [Function.iterate_id, id] at hexec
  exact ⟨r, hr, hexec⟩

end calls

/-! ## All or nothing -/

section allOrNothing
variable {C : Type} {R : C → Type} {δ η σ α β : Type}

/-- `r` and the state next to it are the end of an operation that leaves the tables as they were
when a statement raises, and has its effects when it returns. -/
structure AllOrNothing (same effects : σ → Prop) (r : Except (Raised δ η) α × σ) : Prop where
  nothing : ∀ e, r.1 = .error e → e.FromStatement → same r.2
  all : ∀ a, r.1 = .ok a → effects r.2

variable {same effects : σ → Prop} {handler : (c : C) → σ → R c × σ}

theorem allOrNothing_ok {a : α} {t : σ} :
    AllOrNothing same effects ((.ok a, t) : Except (Raised δ η) α × σ) ↔ effects t :=
  ⟨fun h => h.all a rfl, fun h => ⟨nofun, fun _ _ => h⟩⟩

theorem allOrNothing_error {e : Raised δ η} {t : σ} :
    AllOrNothing same effects ((.error e, t) : Except (Raised δ η) α × σ) ↔
      (e.FromStatement → same t) :=
  ⟨fun h => h.nothing e rfl, fun h => ⟨fun e' he => by cases he; exact h, nofun⟩⟩

theorem Outcome.allOrNothing_bind {p : Program C R (Raised δ η) α}
    {f : α → Program C R (Raised δ η) β} {t u : σ} {returns : Bool} {v : α}
    {r : Except (Raised δ η) α} (hr : Outcome returns v r) (hp : p.execute handler t = (r, u)) :
    AllOrNothing same effects ((p >>= f).execute handler t) ↔
      if returns then AllOrNothing same effects ((f v).execute handler u) else same u := by
  rw [Program.execute_bind, hp]
  cases returns with
  | true =>
    cases hr
    exact Iff.rfl
  | false =>
    obtain ⟨x, hx, rfl⟩ := hr
    exact allOrNothing_error.trans (imp_iff_right hx)

end allOrNothing

/-! ### A statement and what follows it -/

section followed
variable {S : Type} {V : S → Type} {δ η σ β : Type} {run : (s : S) → σ → Except δ (V s) × σ}
variable {fates : Fates S η} {retried : η → Bool} {s : S} {n k : ℕ} {t u : σ} {v : V s} {e : δ}
variable {same effects : σ → Prop} {f : V s → StatementProgram V δ η β}

theorem allOrNothing_rejected (h : run s t = (.error e, t)) :
    AllOrNothing same effects
      ((statement retried s n k >>= f).execute (statementHandler run fates) t) ↔ same t := by
  obtain ⟨x, hx, hexec⟩ := statement_rejected fates retried h n k
  rw [Program.execute_bind, hexec]
  exact allOrNothing_error.trans (imp_iff_right hx)

theorem allOrNothing_once (h : run s t = (.ok v, u)) (hagain : run s u = (.error e, u)) :
    AllOrNothing same effects
        ((statement retried s n k >>= f).execute (statementHandler run fates) t) ↔
      if AttemptFate.answersFirst retried (fates.attempt s) n k then
        AllOrNothing same effects ((f v).execute (statementHandler run fates) u)
      else same (if AttemptFate.executes retried (fates.attempt s) n k then u else t) := by
  obtain ⟨r, hr, hexec⟩ := statement_once fates retried h hagain n k
  rw [hr.allOrNothing_bind hexec]
  cases hfirst : AttemptFate.answersFirst retried (fates.attempt s) n k with
  | true => rw [if_pos (AttemptFate.executes_of_answersFirst hfirst)]
  | false => rfl

theorem allOrNothing_repeatable {P : σ → Prop} {g : σ → σ}
    (hrun : ∀ t, P t → run s t = (.ok v, g t) ∧ P (g t)) (ht : P t) :
    ∃ j, (AttemptFate.executes retried (fates.attempt s) n k ↔ 0 < j) ∧
      (AllOrNothing same effects
          ((statement retried s n k >>= f).execute (statementHandler run fates) t) ↔
        if AttemptFate.answers retried (fates.attempt s) n k then
          AllOrNothing same effects ((f v).execute (statementHandler run fates) (g^[j] t))
        else same (g^[j] t)) := by
  obtain ⟨j, r, hj, hr, hexec⟩ :=
    statement_repeatable fates retried hrun ht n k
  exact ⟨j, hj, hr.allOrNothing_bind hexec⟩

theorem allOrNothing_read (h : run s t = (.ok v, t)) :
    AllOrNothing same effects
        ((statement retried s n k >>= f).execute (statementHandler run fates) t) ↔
      if AttemptFate.answers retried (fates.attempt s) n k then
        AllOrNothing same effects ((f v).execute (statementHandler run fates) t)
      else same t := by
  obtain ⟨r, hr, hexec⟩ := statement_read fates retried h n k
  exact hr.allOrNothing_bind hexec

end followed
end FastapiTemplate
