import FastapiTemplate.DatabaseServer
import FastapiTemplate.ProgramTriple

/-!
# How often a retried write takes effect

`_db_retry` repeats `execute`, `write` and `fetch` after any connection error. An attempt
whose statement was committed while its answer was lost is repeated like one that never
reached the server, so the number of times a statement takes effect is the number of
attempts in which the server executed it.
-/

namespace FastapiTemplate.Sql

/-! ## Attempts -/

/-- Whether the statement took effect in the attempt, and the error that the attempt raised. -/
structure Attempt where
  applied : Bool
  error : Option DbError
  deriving DecidableEq, Repr

def Attempt.retried (a : Attempt) : Bool := a.error.any DbError.retried

def StatementFate.attempt : StatementFate → Attempt
  | .done .. => ⟨true, none⟩
  | .lost _ e => ⟨true, some e⟩
  | .failed e => ⟨false, some e⟩

namespace Fate

def statement (fate : Fate) : Attempt :=
  (fate.statements.headD (.done [] ⟨[], ""⟩)).attempt

/-- A database error is only logged when the session settings are set. -/
def sessionStatement (fate : Fate) : Attempt :=
  match fate.setConfig with
  | .ok () => fate.statement
  | .error e => if e.isDatabaseError then fate.statement else ⟨false, some e⟩

end Fate

def onAcquired (acquired : Except DbError ℕ) (a : Attempt) : Attempt :=
  match acquired with
  | .ok _ => a
  | .error e => ⟨false, some e⟩

/-- How many of `n + 1` attempts take effect; the next one follows a connection error only. -/
def applications (attempts : ℕ → Attempt) : ℕ → ℕ
  | 0 => (attempts 0).applied.toNat
  | n + 1 => (attempts 0).applied.toNat +
      if (attempts 0).retried then applications (fun k => attempts (k + 1)) n else 0

def Reached (attempts : ℕ → Attempt) (j : ℕ) : Prop := ∀ k < j, (attempts k).retried

theorem reached_succ {attempts : ℕ → Attempt} {j : ℕ} : Reached attempts (j + 1) ↔
    (attempts 0).retried ∧ Reached (fun k => attempts (k + 1)) j := by
  constructor
  · intro h
    exact ⟨h 0 (Nat.succ_pos j), fun k hk => h (k + 1) (Nat.succ_lt_succ hk)⟩
  · rintro ⟨hfirst, hrest⟩ k hk
    cases k with
    | zero => exact hfirst
    | succ k => exact hrest k (Nat.lt_of_succ_lt_succ hk)

theorem applications_pos_iff {attempts : ℕ → Attempt} {n : ℕ} : 1 ≤ applications attempts n ↔
    ∃ j ≤ n, Reached attempts j ∧ (attempts j).applied := by
  induction n generalizing attempts with
  | zero =>
    constructor
    · intro h
      cases happlied : (attempts 0).applied with
      | true => exact ⟨0, le_rfl, nofun, happlied⟩
      | false => simp [applications, happlied] at h
    · rintro ⟨j, hj, -, happlied⟩
      cases Nat.le_zero.mp hj
      simp [applications, happlied]
  | succ n ih =>
    have hstep : (∃ j ≤ n + 1, Reached attempts j ∧ (attempts j).applied) ↔ (attempts 0).applied ∨
        (attempts 0).retried ∧ 1 ≤ applications (fun k => attempts (k + 1)) n := by
      rw [ih]
      constructor
      · rintro ⟨j, hj, hreached, happlied⟩
        cases j with
        | zero => exact .inl happlied
        | succ j =>
          obtain ⟨hfirst, hrest⟩ := reached_succ.mp hreached
          exact .inr ⟨hfirst, j, Nat.le_of_succ_le_succ hj, hrest, happlied⟩
      · rintro (happlied | ⟨hfirst, j, hj, hrest, happlied⟩)
        · exact ⟨0, Nat.zero_le _, nofun, happlied⟩
        · exact ⟨j + 1, Nat.succ_le_succ hj, reached_succ.mpr ⟨hfirst, hrest⟩, happlied⟩
    rw [hstep, applications]
    cases (attempts 0).applied <;> cases (attempts 0).retried <;> simp

/-- Two attempts take effect if the one is reached after the other. -/
theorem two_le_applications_iff {attempts : ℕ → Attempt} {n : ℕ} : 2 ≤ applications attempts n ↔
    ∃ i j, i < j ∧ j ≤ n ∧ Reached attempts j ∧ (attempts i).applied ∧ (attempts j).applied := by
  induction n generalizing attempts with
  | zero =>
    have hle : applications attempts 0 ≤ 1 := Bool.toNat_le _
    constructor
    · intro h
      omega
    · rintro ⟨i, j, hij, hj, -⟩
      omega
  | succ n ih =>
    have hstep : (∃ i j, i < j ∧ j ≤ n + 1 ∧ Reached attempts j ∧ (attempts i).applied ∧
        (attempts j).applied) ↔ (attempts 0).retried ∧
        ((attempts 0).applied ∧ 1 ≤ applications (fun k => attempts (k + 1)) n ∨
          2 ≤ applications (fun k => attempts (k + 1)) n) := by
      rw [ih, applications_pos_iff]
      constructor
      · rintro ⟨i, j, hij, hj, hreached, hi, happlied⟩
        obtain ⟨j, rfl⟩ : ∃ m, j = m + 1 := ⟨j - 1, by omega⟩
        obtain ⟨hfirst, hrest⟩ := reached_succ.mp hreached
        cases i with
        | zero => exact ⟨hfirst, .inl ⟨hi, j, by omega, hrest, happlied⟩⟩
        | succ i => exact ⟨hfirst, .inr ⟨i, j, by omega, by omega, hrest, hi, happlied⟩⟩
      · rintro ⟨hfirst, ⟨hi, j, hj, hrest, happlied⟩ | ⟨i, j, hij, hj, hrest, hi, happlied⟩⟩
        · exact ⟨0, j + 1, by omega, by omega, reached_succ.mpr ⟨hfirst, hrest⟩, hi, happlied⟩
        · exact ⟨i + 1, j + 1, by omega, by omega, reached_succ.mpr ⟨hfirst, hrest⟩, hi, happlied⟩
    have happlied := Bool.toNat_le (attempts 0).applied
    rw [hstep, applications]
    cases (attempts 0).retried with
    | false =>
      simp only [Bool.false_eq_true, if_false, false_and, iff_false]
      omega
    | true =>
      cases (attempts 0).applied with
      | false => simp
      | true =>
        simp only [if_true, Bool.toNat_true, true_and]
        omega

/-! ## Counting on the server -/

namespace Server

/-- The writes that took effect, with those of the open transaction of a given connection. -/
def applied (s : Server) (con : Option Conn) : List Query :=
  s.journal.statements ++
    (con.elim .empty (fun conn => (s.sessions conn).transaction.getD .empty)).statements

def fateAt (s : Server) (k : ℕ) : Fate := s.fates[k]?.getD .idle

/-- Writes of this connection are counted: its transaction is, or it has none. -/
def Counts (s : Server) (con : Option Conn) (conn : Conn) : Prop :=
  con = some conn ∨ con = none ∧ (s.sessions conn).transaction = none

theorem startAttempt_fate (s : Server) : s.startAttempt.fate = s.fateAt 0 := by
  cases h : s.fates <;> simp [startAttempt, fateAt, h]

theorem startAttempt_fateAt (s : Server) (k : ℕ) : s.startAttempt.fateAt k = s.fateAt (k + 1) := by
  simp [startAttempt, fateAt]

theorem applied_takeEffect {s : Server} {con : Option Conn} {conn : Conn} (h : s.Counts con conn)
    (j : Journal) : (s.takeEffect conn j).applied con = s.applied con ++ j.statements := by
  unfold takeEffect
  cases htransaction : (s.sessions conn).transaction with
  | none =>
    rcases h with rfl | ⟨rfl, -⟩
    · simp [applied, htransaction, Journal.empty]
    · simp [applied, Journal.empty]
  | some pending =>
    rcases h with rfl | ⟨rfl, hnone⟩
    · simp [applied, htransaction]
    · rw [hnone] at htransaction
      cases htransaction

theorem takeEffect_fates (s : Server) (conn : Conn) (j : Journal) :
    (s.takeEffect conn j).fates = s.fates := by
  unfold takeEffect
  cases (s.sessions conn).transaction <;> rfl

theorem setConfig_transaction (s : Server) (conn conn' : Conn) (settings : Settings) :
    ((s.setConfig conn settings false).sessions conn').transaction =
      (s.sessions conn').transaction := by
  change (Function.update s.sessions conn _ conn').transaction = _
  by_cases h : conn' = conn
  · subst h
    rw [Function.update_self]
  · rw [Function.update_of_ne h]

theorem applied_setConfig (s : Server) (con : Option Conn) (conn : Conn) (settings : Settings) :
    (s.setConfig conn settings false).applied con = s.applied con := by
  cases con with
  | none => rfl
  | some conn' =>
    simp only [applied, Option.elim_some, setConfig_transaction]
    rfl

theorem Counts.setConfig {s : Server} {con : Option Conn} {conn : Conn} (h : s.Counts con conn)
    (settings : Settings) : (s.setConfig conn settings false).Counts con conn := by
  unfold Counts
  rw [setConfig_transaction]
  exact h

end Server

def errorOf {α : Type} : Except DbError α → Option DbError
  | .ok _ => none
  | .error e => some e

/-- The attempt ends as its conditions say, and adds the statement if it took effect. -/
structure Meets {α : Type} (q : Query) (con : Option Conn) (s : Server) (a : Attempt)
    (x : Except DbError α × Server) : Prop where
  fates : x.2.fates = s.fates
  applied : x.2.applied con = s.applied con ++ List.replicate a.applied.toNat q
  error : errorOf x.1 = a.error

section attempts
variable {q : Query} {con : Option Conn} {α β : Type}

theorem Meets.of_start {s t : Server} {a : Attempt} {x : Except DbError α × Server}
    (h : Meets q con t a x) (hfates : t.fates = s.fates) (happlied : t.applied con = s.applied con) :
    Meets q con s a x :=
  ⟨h.fates.trans hfates, by rw [h.applied, happlied], h.error⟩

theorem Meets.bind_pure {s t : Server} {a : Attempt} {p : DbProgram α} {f : α → β}
    (h : Meets q con s a (t.run p)) : Meets q con s a (t.run (p >>= fun r => pure (f r))) := by
  unfold Server.run at *
  rw [Program.execute_bind]
  rcases hp : p.execute Server.answer t with ⟨e | r, u⟩
  · rw [hp] at h
    exact ⟨h.fates, h.applied, h.error⟩
  · rw [hp] at h
    exact ⟨h.fates, h.applied, h.error⟩

theorem run_ask {op : DbOp} {f : op.Answer → DbProgram α} (s : Server) :
    s.run (ask op >>= f) = (Server.answer op s).2.run (f (Server.answer op s).1) := rfl

theorem run_ofExcept (r : Except DbError α) (s : Server) : s.run (ofExcept r) = (r, s) := by
  cases r <;> rfl

theorem meets_raise {s : Server} {e : DbError} :
    Meets q con s ⟨false, some e⟩ (s.run (Program.raise e : DbProgram α)) :=
  ⟨rfl, (List.append_nil _).symm, rfl⟩

theorem meets_runStatement (hwrite : q.isWrite) {conn : Conn} {s : Server} (h : s.Counts con conn) :
    Meets q con s s.fate.statement (s.run (runStatement conn q)) := by
  have heffect (fate : Fate) (settings : Settings) (images : List (Row × Row)) :
      (Server.takeEffect { s with fate := fate } conn (q.journal settings images)).applied con =
        s.applied con ++ [q] := by
    have hcounts : Server.Counts { s with fate := fate } con conn := h
    rw [Server.applied_takeEffect hcounts, Query.journal, if_pos hwrite]
    rfl
  unfold runStatement
  rw [run_ask, run_ofExcept]
  simp only [Server.answer, Server.statement, Fate.statement]
  cases s.fate.statements.headD (.done [] ⟨[], ""⟩) with
  | done images reply => exact ⟨Server.takeEffect_fates .., heffect .., rfl⟩
  | lost images e => exact ⟨Server.takeEffect_fates .., heffect .., rfl⟩
  | failed e => exact ⟨rfl, (List.append_nil _).symm, rfl⟩

theorem meets_sessionStatement (hwrite : q.isWrite) {ctx : RequestContext} {conn : Conn}
    {s : Server} (h : s.Counts con conn) :
    Meets q con s s.fate.sessionStatement (s.run (do
      setSession ctx conn
      runStatement conn q)) := by
  unfold setSession
  rw [Program.bind_assoc, run_ask]
  simp only [Server.answer, Fate.sessionStatement]
  cases hconfig : s.fate.setConfig with
  | ok u =>
    have hset := meets_runStatement hwrite (s := s.setConfig conn ctx.settings false) (h.setConfig _)
    exact hset.of_start rfl (Server.applied_setConfig ..)
  | error e =>
    by_cases hdb : e.isDatabaseError = true
    · simp only [hdb, if_true]
      exact meets_runStatement hwrite h
    · simp only [hdb]
      exact ⟨rfl, (List.append_nil _).symm, rfl⟩

theorem meets_withConnection {pool : PoolId} {body : Conn → DbProgram α} {s : Server} {a : Attempt}
    (hbody : ∀ id t, s.Acquires t → t.Counts none ⟨pool, id⟩ →
      Meets q none t a (t.run (body ⟨pool, id⟩))) :
    Meets q none s (onAcquired (s.fate.acquires.headD (.ok 0)) a)
      (s.run (withConnection pool body)) := by
  unfold withConnection
  rw [run_ask]
  simp only [Server.answer]
  cases hacquire : s.fate.acquires.headD (.ok 0) with
  | error e =>
    obtain ⟨t, ht, hacquires⟩ := Server.acquire_error hacquire pool
    rw [ht]
    refine ⟨hacquires.fates, ?_, rfl⟩
    simp [Server.applied, Server.run, ofExcept, onAcquired, hacquires.journal]
  | ok id =>
    obtain ⟨t, ht, hacquires, hsession⟩ := Server.acquire_ok hacquire pool
    have hcounts : t.Counts none ⟨pool, id⟩ := by
      refine .inr ⟨rfl, ?_⟩
      rw [hsession]
      rfl
    have happlied : t.applied none = s.applied none := by
      simp [Server.applied, hacquires.journal]
    have hmeets := (hbody id t hacquires hcounts).of_start hacquires.fates happlied
    rw [ht]
    change Meets q none s a (t.run ((body ⟨pool, id⟩).tryFinally _))
    unfold Server.run at *
    rw [Program.execute_tryFinally]
    rcases hrun : (body ⟨pool, id⟩).execute Server.answer t with ⟨e | r, u⟩
    · rw [hrun] at hmeets
      exact ⟨hmeets.fates, hmeets.applied, hmeets.error⟩
    · rw [hrun] at hmeets
      exact ⟨hmeets.fates, hmeets.applied, hmeets.error⟩

end attempts

/-! ## The three helpers -/

inductive WriteCall
  | execute (con : Option Executor)
  | write
  | fetch (fetchRow logExplain : Bool)
  deriving DecidableEq, Repr

namespace WriteCall

def program (db : DataBase) (ctx : RequestContext) (q : Query) : WriteCall → DbProgram Unit
  | .execute con => Sql.execute db ctx q con >>= fun _ => pure ()
  | .write => Sql.write db ctx q >>= fun _ => pure ()
  | .fetch fetchRow logExplain => Sql.fetch db ctx q fetchRow logExplain >>= fun _ => pure ()

def connection : WriteCall → Option Conn
  | .execute (some (.connection conn)) => some conn
  | _ => none

/-- What an attempt meets with: first whether there is a pool at all, then, for `fetch`, the
connection for `EXPLAIN`, whose errors are only logged. -/
def attempt (db : DataBase) (ctx : RequestContext) (call : WriteCall) (fate : Fate) : Attempt :=
  match call with
  | .execute (some (.connection _)) => fate.sessionStatement
  | .execute (some (.pool _)) => onAcquired (fate.acquires.headD (.ok 0)) fate.sessionStatement
  | .execute none =>
    if db.writePool = none then ⟨false, some .attribute⟩
    else onAcquired (fate.acquires.headD (.ok 0)) fate.sessionStatement
  | .write =>
    if db.writePool = none then ⟨false, some (.runtime "Write pool not initialized")⟩
    else onAcquired (fate.acquires.headD (.ok 0)) fate.sessionStatement
  | .fetch _ logExplain =>
    if db.chooseRegion ctx.clientRegion = none ∧ db.writePool = none then
      ⟨false, some (.runtime "No DB pools available")⟩
    else
      let acquires := if logExplain then fate.acquires.tail else fate.acquires
      onAcquired (acquires.headD (.ok 0)) fate.statement

end WriteCall

section helpers
variable {db : DataBase} {ctx : RequestContext} {q : Query} {s : Server} {α : Type}

theorem meets_onPool (hwrite : q.isWrite) (pool : PoolId) :
    Meets q none s (onAcquired (s.fate.acquires.headD (.ok 0)) s.fate.sessionStatement)
      (s.run (withConnection pool (fun conn => do
        setSession ctx conn
        runStatement conn q))) := by
  refine meets_withConnection (fun id t hacquires hcounts => ?_)
  have hfate : t.fate.sessionStatement = s.fate.sessionStatement := by
    rw [hacquires.fate]
    rfl
  rw [← hfate]
  exact meets_sessionStatement hwrite hcounts

theorem run_getPool_none (hregion : db.chooseRegion ctx.clientRegion = none)
    (hpool : db.writePool = none) :
    s.run (getPool db ctx false) = (.error (.runtime "No DB pools available"), s) := by
  unfold getPool selectReadPool
  rw [if_neg (by simp), hregion, hpool]
  rfl

/-- Reading finds a pool if there is one, and leaves the server as it is. -/
theorem run_getPool_read (h : ¬ (db.chooseRegion ctx.clientRegion = none ∧ db.writePool = none)) :
    ∃ pool region, s.run (getPool db ctx false) = (.ok (pool, region), s) := by
  cases hregion : db.chooseRegion ctx.clientRegion with
  | none =>
    unfold getPool selectReadPool
    rw [if_neg (by simp), hregion]
    obtain ⟨pool, hpool⟩ := Option.ne_none_iff_exists'.mp (fun hpool => h ⟨hregion, hpool⟩)
    rw [hpool]
    exact ⟨pool, _, rfl⟩
  | some region =>
    have hread : db.HasReadPool := DataBase.hasReadPool_of_chooseRegion hregion
    have hpos : 0 < (db.candidates region).length :=
      List.length_pos_of_ne_nil (DataBase.candidates_ne_nil hread region)
    have hlt := Nat.mod_lt s.fate.choice hpos
    refine ⟨(db.candidates region)[s.fate.choice % (db.candidates region).length].pool, region, ?_⟩
    rw [getPool_read hregion, run_ask]
    simp only [Server.answer, List.getElem?_eq_getElem hlt]
    rfl

/-- Whatever becomes of `EXPLAIN`, the attempt goes on, with one connection less to come. -/
theorem run_explain (pool : PoolId) : ∃ r t,
    s.run (withConnection pool (fun conn => ask (.explain conn q))).attempt = (.ok r, t) ∧
      s.Acquires t := by
  unfold Server.run
  rw [Program.execute_attempt]
  refine ⟨_, _, rfl, ?_⟩
  change s.Acquires (s.run (withConnection pool (fun conn => ask (.explain conn q)))).2
  unfold withConnection
  rw [run_ask]
  simp only [Server.answer]
  cases hacquire : s.fate.acquires.headD (.ok 0) with
  | error e =>
    obtain ⟨t, ht, hacquires⟩ := Server.acquire_error hacquire pool
    rw [ht]
    exact hacquires
  | ok id =>
    obtain ⟨t, ht, hacquires, -⟩ := Server.acquire_ok hacquire pool
    rw [ht]
    exact ⟨hacquires.fates, hacquires.fate, hacquires.journal⟩

theorem meets_read (hwrite : q.isWrite) (pool : PoolId) :
    Meets q none s (onAcquired (s.fate.acquires.headD (.ok 0)) s.fate.statement)
      (s.run (withConnection pool (fun conn => runStatement conn q))) := by
  refine meets_withConnection (fun id t hacquires hcounts => ?_)
  have hfate : t.fate.statement = s.fate.statement := by
    rw [hacquires.fate]
    rfl
  rw [← hfate]
  exact meets_runStatement hwrite hcounts

theorem run_bind_ok {β : Type} {p : DbProgram β} {f : β → DbProgram α} {b : β} {t : Server}
    (h : s.run p = (.ok b, t)) : s.run (p >>= f) = t.run (f b) := by
  unfold Server.run at *
  rw [Program.execute_bind, h]

theorem meets_fetch (hwrite : q.isWrite) (fetchRow logExplain : Bool) :
    Meets q none s ((WriteCall.fetch fetchRow logExplain).attempt db ctx s.fate)
      (s.run (do
        let (pool, _) ← getPool db ctx false
        if logExplain then
          let _ ← (withConnection pool (fun conn => ask (.explain conn q))).attempt
        let reply ← withConnection pool (fun conn => runStatement conn q)
        pure (if fetchRow then reply.rows.take 1 else reply.rows))) := by
  by_cases hpools : db.chooseRegion ctx.clientRegion = none ∧ db.writePool = none
  · simp only [WriteCall.attempt, if_pos hpools]
    unfold Server.run
    rw [Program.execute_bind]
    have hnone := run_getPool_none (s := s) hpools.1 hpools.2
    unfold Server.run at hnone
    rw [hnone]
    exact ⟨rfl, (List.append_nil _).symm, rfl⟩
  · simp only [WriteCall.attempt, if_neg hpools]
    obtain ⟨pool, region, hpool⟩ := run_getPool_read (s := s) hpools
    rw [run_bind_ok hpool]
    cases logExplain with
    | false => exact (meets_read hwrite pool).bind_pure
    | true =>
      obtain ⟨r, t, hexplain, hacquires⟩ := run_explain (s := s) (q := q) pool
      have happlied : t.applied none = s.applied none := by
        simp [Server.applied, hacquires.journal]
      have hread : Meets q none s (onAcquired (s.fate.acquires.tail.headD (.ok 0)) s.fate.statement)
          (t.run (withConnection pool (fun conn => runStatement conn q))) := by
        have hmeets := (meets_read (s := t) hwrite pool).of_start hacquires.fates happlied
        rw [hacquires.fate] at hmeets
        exact hmeets
      simp only [if_true]
      rw [run_bind_ok hexplain]
      exact hread.bind_pure

theorem meets_write (hwrite : q.isWrite) : Meets q none s (WriteCall.write.attempt db ctx s.fate)
    (s.run (do
      let (pool, _) ← getPool db ctx true
      let reply ← withConnection pool (fun conn => do
        setSession ctx conn
        runStatement conn q)
      pure reply.rows.head?)) := by
  unfold getPool
  rw [if_pos rfl]
  cases hpool : db.writePool with
  | none =>
    simp only [WriteCall.attempt, if_pos hpool]
    exact meets_raise
  | some pool =>
    have hsome : db.writePool ≠ none := by rw [hpool]; nofun
    simp only [WriteCall.attempt, if_neg hsome]
    exact (meets_onPool hwrite pool).bind_pure

theorem meets_execute (hwrite : q.isWrite) (con : Option Executor) :
    Meets q (WriteCall.execute con).connection s ((WriteCall.execute con).attempt db ctx s.fate)
      (s.run (do
        let target ← executeTarget db con
        let reply ← withExecutor target (fun conn => do
          setSession ctx conn
          runStatement conn q)
        pure reply.tag)) := by
  unfold executeTarget
  cases con with
  | none =>
    cases hpool : db.writePool with
    | none =>
      simp only [WriteCall.attempt, if_pos hpool]
      exact meets_raise
    | some pool =>
      have hsome : db.writePool ≠ none := by rw [hpool]; nofun
      simp only [WriteCall.attempt, if_neg hsome]
      exact (meets_onPool hwrite pool).bind_pure
  | some target =>
    cases target with
    | pool pool => exact (meets_onPool hwrite pool).bind_pure
    | connection conn => exact (meets_sessionStatement hwrite (.inl rfl)).bind_pure

/-- The attempts are made as long as connection errors are raised, each under the next conditions. -/
theorem applied_retry {con : Option Conn} {p : DbProgram α} (attempt : Fate → Attempt)
    (hp : ∀ s, Meets q con s (attempt s.fate) (s.run p)) (n : ℕ) (s : Server) :
    (s.run (retry p n)).2.applied con =
      s.applied con ++ List.replicate (applications (fun k => attempt (s.fateAt k)) n) q := by
  induction n generalizing s with
  | zero =>
    have hmeets := (hp s.startAttempt).applied
    rw [Server.startAttempt_fate] at hmeets
    exact hmeets
  | succ n ih =>
    have hmeets := hp s.startAttempt
    rw [Server.startAttempt_fate] at hmeets
    change (s.startAttempt.run (p.handle (fun e =>
      if e.retried then retry p n else .raise e))).2.applied con = _
    rw [applications]
    unfold Server.run at *
    rw [Program.execute_handle]
    rcases hrun : p.execute Server.answer s.startAttempt with ⟨e | r, t⟩
    · rw [hrun] at hmeets
      have herror : (attempt (s.fateAt 0)).error = some e := hmeets.error.symm
      have happlied : t.applied con =
          s.applied con ++ List.replicate (attempt (s.fateAt 0)).applied.toNat q := hmeets.applied
      by_cases hretried : e.retried = true
      · have hfirst : (attempt (s.fateAt 0)).retried = true := by
          rw [Attempt.retried, herror]
          exact hretried
        have hrest : (fun k => attempt (t.fateAt k)) = fun k => attempt (s.fateAt (k + 1)) := by
          funext k
          have hfates : t.fateAt k = s.startAttempt.fateAt k := by
            unfold Server.fateAt
            rw [hmeets.fates]
          rw [hfates, Server.startAttempt_fateAt]
        simp only [if_pos hretried, if_pos hfirst]
        rw [ih t, hrest, happlied, List.append_assoc, List.replicate_append_replicate]
      · have hfirst : ¬ (attempt (s.fateAt 0)).retried = true := by
          rw [Attempt.retried, herror]
          exact hretried
        simp only [if_neg hretried, if_neg hfirst, Nat.add_zero]
        exact happlied
    · rw [hrun] at hmeets
      have hfirst : ¬ (attempt (s.fateAt 0)).retried = true := by
        rw [Attempt.retried, ← hmeets.error]
        exact Bool.false_ne_true
      simp only [if_neg hfirst, Nat.add_zero]
      exact hmeets.applied

end helpers

/-- The call adds its statement at most once to what took effect. -/
def AppliedAtMostOnce (db : DataBase) (ctx : RequestContext) (q : Query) (call : WriteCall)
    (s : Server) : Prop :=
  ∃ n ≤ 1, (s.run (call.program db ctx q)).2.applied call.connection =
    s.applied call.connection ++ List.replicate n q

section calls
variable {db : DataBase} {ctx : RequestContext} {q : Query}

theorem run_bind_unit {α : Type} (s : Server) (p : DbProgram α) :
    (s.run (p >>= fun _ => pure ())).2 = (s.run p).2 := by
  unfold Server.run
  rw [Program.execute_bind]
  rcases p.execute Server.answer s with ⟨e | r, t⟩ <;> rfl

/-- The statement takes effect once for each attempt in which the server executed it. -/
theorem applied_program (hwrite : q.isWrite) (call : WriteCall) (s : Server) :
    (s.run (call.program db ctx q)).2.applied call.connection = s.applied call.connection ++
      List.replicate (applications (fun k => call.attempt db ctx (s.fateAt k)) 2) q := by
  cases call with
  | execute con =>
    simp only [WriteCall.program, run_bind_unit]
    exact applied_retry ((WriteCall.execute con).attempt db ctx) (fun _ => meets_execute hwrite con)
      2 s
  | write =>
    simp only [WriteCall.program, run_bind_unit]
    exact applied_retry (WriteCall.write.attempt db ctx) (fun _ => meets_write hwrite) 2 s
  | fetch fetchRow logExplain =>
    simp only [WriteCall.program, run_bind_unit]
    exact applied_retry ((WriteCall.fetch fetchRow logExplain).attempt db ctx)
      (fun _ => meets_fetch hwrite fetchRow logExplain) 2 s

/-- A call applies its statement at most once exactly if no attempt that took effect, but
raised a connection error, is followed by a further attempt that took effect. -/
theorem appliedAtMostOnce_iff (hwrite : q.isWrite) (call : WriteCall) (s : Server) :
    AppliedAtMostOnce db ctx q call s ↔ ¬ ∃ i j, i < j ∧ j ≤ 2 ∧
      Reached (fun k => call.attempt db ctx (s.fateAt k)) j ∧
      (call.attempt db ctx (s.fateAt i)).applied ∧ (call.attempt db ctx (s.fateAt j)).applied := by
  rw [← two_le_applications_iff]
  unfold AppliedAtMostOnce
  rw [applied_program hwrite]
  constructor
  · rintro ⟨n, hn, heq⟩
    have hlength := congrArg List.length (List.append_cancel_left heq)
    rw [List.length_replicate, List.length_replicate] at hlength
    omega
  · intro h
    exact ⟨_, by omega, rfl⟩

end calls

/-! ## Runs -/

def bumpVersion : Query :=
  ⟨.update, .users, "SET token_version = token_version + 1 WHERE id = $1", [.text "u1"]⟩

def thenSucceeds (first : StatementFate) : Server where
  fates := [{ Fate.idle with statements := [first] }, .idle]
  fate := .idle
  sessions _ := .fresh
  journal := .empty

theorem appliedAtMostOnce_failed : bumpVersion.isWrite ∧ AppliedAtMostOnce primaryOnly anonymous
    bumpVersion (.execute none) (thenSucceeds (.failed .connectionDoesNotExist)) := by
  refine ⟨rfl, (appliedAtMostOnce_iff rfl _ _).mpr ?_⟩
  rintro ⟨i, j, hij, hj, hreached, hi, -⟩
  obtain rfl | rfl : j = 1 ∨ j = 2 := by omega
  · obtain rfl : i = 0 := by omega
    exact absurd hi (by decide)
  · exact absurd (hreached 1 (by omega)) (by decide)

/-- The answer of a committed statement is lost, and the statement is executed again. -/
theorem not_appliedAtMostOnce : ¬ ∀ (db : DataBase) (ctx : RequestContext) (q : Query)
    (call : WriteCall) (s : Server), q.isWrite → AppliedAtMostOnce db ctx q call s := by
  intro h
  obtain ⟨n, hn, happlied⟩ := h primaryOnly anonymous bumpVersion (.execute none)
    (thenSucceeds (.lost [] .connectionDoesNotExist)) rfl
  rw [applied_program rfl] at happlied
  have hlength := congrArg List.length (List.append_cancel_left happlied)
  have htwice : applications (fun k => (WriteCall.execute none).attempt primaryOnly anonymous
      ((thenSucceeds (.lost [] .connectionDoesNotExist)).fateAt k)) 2 = 2 := by
    decide
  rw [htwice, List.length_replicate, List.length_replicate] at hlength
  omega

end FastapiTemplate.Sql
