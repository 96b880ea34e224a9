import FastapiTemplate.DatabaseServer
import FastapiTemplate.DeviceStatements
import FastapiTemplate.ProgramTriple
import Mathlib.Data.List.Forall2

/-!
# Who is named in the audit logs

`write`, `execute` and `transaction` set the actor and the impersonator on the session
before their statements, `fetch` and `fetchval` do not. A sequence of operations that
misroutes no write of an audited table leaves one audit log per changed row, with the
actor and the impersonator of its context.
-/

namespace FastapiTemplate.Sql

open Program (Triple Keeps)

/-- Each changed row of an audited table has its log, with these settings. -/
def Journal.LoggedWith (settings : Settings) (j : Journal) : Prop :=
  j.auditLogs = (j.changes.filter (·.table.audited)).map (logAuditTrail settings)

theorem Journal.LoggedWith.append {settings : Settings} {j k : Journal} (hj : j.LoggedWith settings)
    (hk : k.LoggedWith settings) : (j ++ k).LoggedWith settings := by
  unfold LoggedWith at *
  rw [append_auditLogs, append_changes, List.filter_append, List.map_append, hj, hk]

theorem Journal.loggedWith_empty (settings : Settings) : Journal.empty.LoggedWith settings := rfl

/-- A statement is logged with the settings of its session; a statement that writes no
audited table is not logged at all. -/
theorem Query.journal_loggedWith {q : Query} {settings settings' : Settings}
    (h : settings' = settings ∨ (q.isWrite → ¬ q.table.audited)) (images : List (Row × Row)) :
    (q.journal settings' images).LoggedWith settings := by
  unfold journal
  by_cases hwrite : q.isWrite
  · rw [if_pos hwrite]
    rcases h with rfl | hquiet
    · rfl
    · have hnone : (images.map q.change).filter (·.table.audited) = [] := by
        apply List.filter_eq_nil_iff.mpr
        intro c hc
        obtain ⟨image, -, rfl⟩ := List.mem_map.mp hc
        exact hquiet hwrite
      unfold Journal.LoggedWith
      simp only [hnone, List.map_nil]
  · rw [if_neg hwrite]
    rfl

/-! ## The invariant -/

/-- What was added to the journal since `j₀` is logged with the settings of the context, and
settings are accepted by the server. -/
structure Audited (settings : Settings) (j₀ : Journal) (s : Server) : Prop where
  logged : ∃ j, s.journal = j₀ ++ j ∧ j.LoggedWith settings
  accepted : s.fate.setConfig = .ok ()
  acceptedLater : ∀ fate ∈ s.fates, fate.setConfig = .ok ()

section helpers
variable {ctx : RequestContext} {j₀ : Journal} {db : DataBase} {α : Type}

namespace Audited
variable {s : Server}

theorem withSession (h : Audited ctx.settings j₀ s) (conn : Conn) (session : Session) :
    Audited ctx.settings j₀ (s.withSession conn session) := ⟨h.logged, h.accepted, h.acceptedLater⟩

theorem withFate (h : Audited ctx.settings j₀ s) {fate : Fate}
    (hfate : fate.setConfig = s.fate.setConfig) :
    Audited ctx.settings j₀ { s with fate := fate } :=
  ⟨h.logged, hfate.trans h.accepted, h.acceptedLater⟩

theorem startAttempt (h : Audited ctx.settings j₀ s) : Audited ctx.settings j₀ s.startAttempt := by
  refine ⟨h.logged, ?_, fun fate hfate => h.acceptedLater fate (List.mem_of_mem_tail hfate)⟩
  cases hfates : s.fates with
  | nil => simp [Server.startAttempt, hfates, Fate.idle]
  | cons fate fates =>
    have hfate := h.acceptedLater fate (by rw [hfates]; exact List.mem_cons_self)
    simpa [Server.startAttempt, hfates] using hfate

/-- What takes effect at once must be logged with the settings of the context. -/
theorem addJournal (h : Audited ctx.settings j₀ s) {j : Journal} (hj : j.LoggedWith ctx.settings) :
    Audited ctx.settings j₀ { s with journal := s.journal ++ j } := by
  obtain ⟨k, hk, hlogged⟩ := h.logged
  refine ⟨⟨k ++ j, ?_, hlogged.append hj⟩, h.accepted, h.acceptedLater⟩
  rw [hk, Journal.append_assoc]

end Audited

def OnSession (ctx : RequestContext) (j₀ : Journal) (conn : Conn) (settings : Settings)
    (s : Server) : Prop :=
  Audited ctx.settings j₀ s ∧ s.sessions conn = ⟨settings, none, none⟩

def Begun (ctx : RequestContext) (j₀ : Journal) (conn : Conn) (s : Server) : Prop :=
  Audited ctx.settings j₀ s ∧ s.sessions conn = ⟨.empty, none, some .empty⟩

def InTransaction (ctx : RequestContext) (j₀ : Journal) (conn : Conn) (s : Server) : Prop :=
  Audited ctx.settings j₀ s ∧ (s.sessions conn).current = ctx.settings ∧
    ∃ j, (s.sessions conn).transaction = some j ∧ j.LoggedWith ctx.settings

theorem keeps_retry {Inv : Server → Prop} {p : DbProgram α}
    (hattempt : ∀ s, Inv s → Inv s.startAttempt) (hp : Keeps Server.answer Inv p) (n : ℕ) :
    Keeps Server.answer Inv (retry p n) := by
  induction n with
  | zero => exact Triple.call (fun _ => Inv) hattempt (fun _ => hp)
  | succ n ih =>
    refine Triple.call (fun _ => Inv) hattempt (fun _ => Triple.handle hp (fun e => ?_))
    by_cases hretried : e.retried = true
    · rw [if_pos hretried]
      exact ih
    · rw [if_neg hretried]
      exact Triple.raise (fun _ => id)

theorem keeps_getPool (usePrimary : Bool) :
    Keeps Server.answer (Audited ctx.settings j₀) (getPool db ctx usePrimary) := by
  have hquiet : (getPool db ctx usePrimary).Makes (fun op => ∃ n, op = .choice n) := by
    cases usePrimary with
    | true =>
      unfold getPool
      rw [if_pos rfl]
      cases db.writePool <;> trivial
    | false =>
      cases hregion : db.chooseRegion ctx.clientRegion with
      | none =>
        unfold getPool selectReadPool
        rw [if_neg (by simp), hregion]
        cases db.writePool <;> trivial
      | some region =>
        rw [getPool_read hregion]
        refine ⟨⟨_, rfl⟩, fun k => ?_⟩
        change Program.Makes _ ((db.candidates region)[k]?.elim (Program.raise .index)
          (fun m => (pure (m.pool, region) : DbProgram (PoolId × String))))
        cases (db.candidates region)[k]? <;> trivial
  refine Keeps.of_makes hquiet (fun op hop s hs => ?_)
  obtain ⟨n, rfl⟩ := hop
  exact hs

theorem triple_ask {Pre : Server → Prop} {op : DbOp} {f : op.Answer → DbProgram α}
    {Post : α → Server → Prop} {Err : DbError → Server → Prop} (Mid : op.Answer → Server → Prop)
    (hop : ∀ s, Pre s → Mid (Server.answer op s).1 (Server.answer op s).2)
    (hf : ∀ r, Triple Server.answer (Mid r) (f r) Post Err) :
    Triple Server.answer Pre (ask op >>= f) Post Err := Triple.call Mid hop hf

theorem triple_ofExcept {β : Type} {Pre : Server → Prop} {Post : β → Server → Prop}
    {Err : DbError → Server → Prop} {r : Except DbError β}
    (h : ∀ s, Pre s → match r with
      | .ok b => Post b s
      | .error e => Err e s) : Triple Server.answer Pre (ofExcept r) Post Err := by
  cases r with
  | ok b => exact Triple.pure h
  | error e => exact Triple.raise h

theorem keeps_release (conn : Conn) :
    Keeps Server.answer (Audited ctx.settings j₀) (ask (.release conn)) :=
  Triple.call (fun _ => Audited ctx.settings j₀) (fun _ hs => hs.withSession _ _)
    (fun _ => Triple.pure (fun _ => id))

theorem keeps_withConnection {pool : PoolId} {body : Conn → DbProgram α}
    (hbody : ∀ id, Triple Server.answer (OnSession ctx j₀ ⟨pool, id⟩ .empty) (body ⟨pool, id⟩)
      (fun _ => Audited ctx.settings j₀) (fun _ => Audited ctx.settings j₀)) :
    Keeps Server.answer (Audited ctx.settings j₀) (withConnection pool body) := by
  refine triple_ask (fun r s => match r with
    | .ok id => OnSession ctx j₀ ⟨pool, id⟩ .empty s
    | .error _ => Audited ctx.settings j₀ s) ?_ (fun r => Triple.bind (triple_ofExcept ?_)
      (fun id => (hbody id).tryFinally (fun _ => keeps_release _) (fun _ => keeps_release _)))
  · intro s hs
    have ht : Audited ctx.settings j₀
        { s with fate := { s.fate with acquires := s.fate.acquires.tail } } :=
      hs.withFate rfl
    simp only [Server.answer, Server.acquire]
    cases s.fate.acquires.headD (.ok 0) with
    | ok id => exact ⟨ht.withSession _ _, Server.withSession_sessions ..⟩
    | error e => exact ht
  · intro s hs
    cases r <;> exact hs

/-- A statement outside a transaction, on a session with the settings of the context, or
with any settings if it writes no audited table. -/
theorem keeps_runStatement {conn : Conn} {settings : Settings} {q : Query}
    (h : settings = ctx.settings ∨ (q.isWrite → ¬ q.table.audited)) :
    Triple Server.answer (OnSession ctx j₀ conn settings) (runStatement conn q)
      (fun _ => Audited ctx.settings j₀) (fun _ => Audited ctx.settings j₀) := by
  refine triple_ask (fun _ => Audited ctx.settings j₀) ?_
    (fun r => triple_ofExcept (fun s hs => by cases r <;> exact hs))
  rintro s ⟨hs, hsession⟩
  have ht : Audited ctx.settings j₀
      { s with fate := { s.fate with statements := s.fate.statements.tail } } :=
    hs.withFate rfl
  have heffect (images : List (Row × Row)) := ht.addJournal (Query.journal_loggedWith h images)
  simp only [Server.answer, Server.statement, hsession, Session.current, Option.getD_none]
  cases s.fate.statements.headD (.done [] ⟨[], ""⟩) with
  | done images reply => simpa only [Server.takeEffect, hsession] using heffect images
  | lost images e => simpa only [Server.takeEffect, hsession] using heffect images
  | failed e => exact ht

theorem triple_setSession {conn : Conn} {settings : Settings} :
    Triple Server.answer (OnSession ctx j₀ conn settings) (setSession ctx conn)
      (fun _ => OnSession ctx j₀ conn ctx.settings) (fun _ => Audited ctx.settings j₀) := by
  refine triple_ask (fun r s => r = .ok () ∧ OnSession ctx j₀ conn ctx.settings s) ?_ (fun r => ?_)
  · rintro s ⟨hs, hsession⟩
    simp only [Server.answer, hs.accepted, Server.setConfig, Bool.false_eq_true, if_false]
    refine ⟨trivial, hs.withSession _ _, ?_⟩
    rw [Server.withSession_sessions, hsession]
  · rintro s ⟨rfl, hs⟩
    exact hs

/-- Between setting the session and releasing the connection. -/
theorem keeps_session_statement {pool : PoolId} {q : Query} :
    Keeps Server.answer (Audited ctx.settings j₀) (withConnection pool (fun conn => do
      setSession ctx conn
      runStatement conn q)) :=
  keeps_withConnection (fun _ => triple_setSession.bind (fun _ => keeps_runStatement (.inl rfl)))

/-- A statement that writes no audited table, on a connection of its own. -/
theorem keeps_statement {pool : PoolId} {q : Query} (h : q.isWrite → ¬ q.table.audited) :
    Keeps Server.answer (Audited ctx.settings j₀)
      (withConnection pool (fun conn => runStatement conn q)) :=
  keeps_withConnection (fun _ => keeps_runStatement (.inr h))

theorem keeps_fetch {q : Query} {fetchRow : Bool} (h : q.isWrite → ¬ q.table.audited) :
    Keeps Server.answer (Audited ctx.settings j₀) (fetch db ctx q fetchRow false) := by
  apply keeps_retry (fun _ hs => hs.startAttempt)
  refine (keeps_getPool false).bind (fun x => ?_)
  exact (keeps_statement h).bind (fun _ => Triple.pure (fun _ => id))

theorem keeps_fetchval {q : Query} (h : q.isWrite → ¬ q.table.audited) :
    Keeps Server.answer (Audited ctx.settings j₀) (fetchval db ctx q none 0 false) := by
  apply keeps_retry (fun _ hs => hs.startAttempt)
  unfold fetchvalExecutor
  rw [Program.bind_assoc]
  refine (keeps_getPool false).bind (fun x => ?_)
  exact (keeps_statement h).bind (fun _ => Triple.pure (fun _ => id))

theorem keeps_write {q : Query} : Keeps Server.answer (Audited ctx.settings j₀) (write db ctx q) := by
  apply keeps_retry (fun _ hs => hs.startAttempt)
  refine (keeps_getPool true).bind (fun x => ?_)
  exact keeps_session_statement.bind (fun _ => Triple.pure (fun _ => id))

theorem keeps_execute {q : Query} :
    Keeps Server.answer (Audited ctx.settings j₀) (execute db ctx q none) := by
  apply keeps_retry (fun _ hs => hs.startAttempt)
  unfold executeTarget
  cases db.writePool with
  | none => exact Triple.raise (fun _ => id)
  | some pool => exact keeps_session_statement.bind (fun _ => Triple.pure (fun _ => id))

theorem inTransaction_setConfig {conn : Conn} {s : Server} (h : Begun ctx j₀ conn s) :
    InTransaction ctx j₀ conn (s.setConfig conn ctx.settings true) := by
  obtain ⟨hs, hsession⟩ := h
  have ht : s.setConfig conn ctx.settings true =
      s.withSession conn ⟨.empty, some ctx.settings, some .empty⟩ := by
    simp [Server.setConfig, hsession]
  rw [ht]
  refine ⟨hs.withSession _ _, ?_, .empty, ?_, Journal.loggedWith_empty _⟩
  · rw [Server.withSession_sessions]
    rfl
  · rw [Server.withSession_sessions]

theorem inTransaction_statement {conn : Conn} {q : Query} {s : Server}
    (h : InTransaction ctx j₀ conn s) : InTransaction ctx j₀ conn (s.statement conn q).2 := by
  obtain ⟨hs, hcurrent, j, hj, hlogged⟩ := h
  have ht : Audited ctx.settings j₀
      { s with fate := { s.fate with statements := s.fate.statements.tail } } :=
    hs.withFate rfl
  have heffect (images : List (Row × Row)) : InTransaction ctx j₀ conn
      (Server.takeEffect { s with fate := { s.fate with statements := s.fate.statements.tail } }
        conn (q.journal (s.sessions conn).current images)) := by
    have hjournal : (j ++ q.journal (s.sessions conn).current images).LoggedWith ctx.settings :=
      hlogged.append (Query.journal_loggedWith (.inl hcurrent) images)
    simp only [Server.takeEffect, hj]
    refine ⟨ht.withSession _ _, ?_, _, ?_, hjournal⟩
    · rw [Server.withSession_sessions]
      exact hcurrent
    · rw [Server.withSession_sessions]
  unfold Server.statement
  cases s.fate.statements.headD (.done [] ⟨[], ""⟩) with
  | done images reply => exact heffect images
  | lost images e => exact heffect images
  | failed e => exact ⟨ht, hcurrent, j, hj, hlogged⟩

theorem triple_runStatements {conn : Conn} {qs : List Query} :
    Keeps Server.answer (InTransaction ctx j₀ conn) (runStatements conn qs) := by
  induction qs with
  | nil => exact Triple.pure (fun _ => id)
  | cons q qs ih =>
    have hstatement : Keeps Server.answer (InTransaction ctx j₀ conn) (runStatement conn q) :=
      triple_ask (fun _ => InTransaction ctx j₀ conn) (fun _ hs => inTransaction_statement hs)
        (fun r => triple_ofExcept (fun s hs => by cases r <;> exact hs))
    exact hstatement.bind (fun _ => ih)

/-- Whether the commit succeeds or not, only logged rows take effect. -/
theorem audited_commit {conn : Conn} {s : Server} (h : InTransaction ctx j₀ conn s) :
    Audited ctx.settings j₀ (Server.answer (.commit conn) s).2 := by
  obtain ⟨hs, -, j, hj, hlogged⟩ := h
  have hcommit : Audited ctx.settings j₀ (s.commitTransaction conn) := by
    unfold Server.commitTransaction
    rw [hj, Option.getD_some]
    exact (hs.withSession _ _).addJournal hlogged
  simp only [Server.answer]
  cases s.fate.commit with
  | done => exact hcommit
  | lost e => exact hcommit
  | failed e => exact hs.withSession _ _

theorem triple_begin {conn : Conn} {f : Unit → DbProgram α}
    (hf : Triple Server.answer (Begun ctx j₀ conn) (f ()) (fun _ => Audited ctx.settings j₀)
      (fun _ => Audited ctx.settings j₀)) :
    Triple Server.answer (OnSession ctx j₀ conn .empty) (ask (.begin conn) >>= fun r =>
      ofExcept r >>= f) (fun _ => Audited ctx.settings j₀) (fun _ => Audited ctx.settings j₀) := by
  refine triple_ask (fun r s => match r with
    | .ok _ => Begun ctx j₀ conn s
    | .error _ => Audited ctx.settings j₀ s) ?_ (fun r => ?_)
  · rintro s ⟨hs, hsession⟩
    simp only [Server.answer]
    cases s.fate.begin with
    | ok u =>
      refine ⟨hs.withSession _ _, ?_⟩
      rw [Server.beginTransaction, Server.withSession_sessions, hsession]
    | error e => exact hs
  · cases r with
    | ok u => exact hf
    | error e => exact Triple.raise (fun _ => id)

theorem triple_runTransaction {conn : Conn} {qs : List Query} :
    Triple Server.answer (Begun ctx j₀ conn)
      (if ctx.settings ≠ .empty then ask (.setConfig conn ctx.settings true) >>= fun _ =>
          runStatements conn qs
        else runStatements conn qs)
      (fun _ => InTransaction ctx j₀ conn) (fun _ => InTransaction ctx j₀ conn) := by
  by_cases hsettings : ctx.settings = .empty
  · rw [if_neg (not_not.mpr hsettings)]
    refine triple_runStatements.mono (fun s hs => ?_) (fun _ _ => id) (fun _ _ => id)
    refine ⟨hs.1, ?_, .empty, ?_, Journal.loggedWith_empty _⟩
    · rw [hs.2, hsettings]
      rfl
    · rw [hs.2]
  · rw [if_pos hsettings]
    refine triple_ask (fun _ => InTransaction ctx j₀ conn) (fun s hs => ?_)
      (fun _ => triple_runStatements)
    simp only [Server.answer, hs.1.accepted]
    exact inTransaction_setConfig hs

theorem triple_rollback {conn : Conn} (e : DbError) :
    Triple Server.answer (InTransaction ctx j₀ conn)
      (ask (.rollback conn) >>= fun _ => (Program.raise e : DbProgram α))
      (fun _ => InTransaction ctx j₀ conn) (fun _ => Audited ctx.settings j₀) :=
  triple_ask (fun _ => Audited ctx.settings j₀) (fun _ hs => hs.1.withSession _ _)
    (fun _ => Triple.raise (fun _ => id))

theorem triple_commit {conn : Conn} {f : Unit → DbProgram α}
    (hf : Keeps Server.answer (Audited ctx.settings j₀) (f ())) :
    Triple Server.answer (InTransaction ctx j₀ conn) (ask (.commit conn) >>= fun r =>
      ofExcept r >>= f) (fun _ => Audited ctx.settings j₀) (fun _ => Audited ctx.settings j₀) := by
  refine triple_ask (fun _ => Audited ctx.settings j₀) (fun _ hs => audited_commit hs) (fun r => ?_)
  cases r with
  | ok u => exact hf
  | error e => exact Triple.raise (fun _ => id)

theorem keeps_transaction {qs : List Query} : Keeps Server.answer (Audited ctx.settings j₀)
    (transaction db ctx true (fun conn => runStatements conn qs)) := by
  refine triple_ask (fun _ => Audited ctx.settings j₀) (fun _ hs => hs.startAttempt)
    (fun _ => (keeps_getPool true).bind (fun x => keeps_withConnection (fun k => ?_)))
  have hend : Triple Server.answer (InTransaction ctx j₀ ⟨x.1, k⟩)
      (ask (.commit ⟨x.1, k⟩) >>= fun r => ofExcept r >>= fun _ => (pure () : DbProgram Unit))
      (fun _ => Audited ctx.settings j₀) (fun _ => Audited ctx.settings j₀) :=
    triple_commit (Triple.pure (fun _ => id))
  exact triple_begin ((triple_runTransaction.handle triple_rollback).bind (fun _ => hend))

/-- A call that reads, or writes through a helper that sets the session. -/
theorem keeps_program {c : HelperCall} (h : Routed (fun t => ¬ t.audited) c) :
    Keeps Server.answer (Audited ctx.settings j₀) (c.program db ctx) := by
  cases c with
  | fetch q fetchRow => exact keeps_fetch h
  | write q => exact keeps_write
  | fetchval q => exact keeps_fetchval h
  | execute q => exact keeps_execute
  | transaction qs => exact keeps_transaction

end helpers

/-! ## Sequences of operations -/

namespace Server

def perform (ctx : RequestContext) (s : Server) (x : DataBase × DaoOperation) : Server :=
  (s.run (x.2.program.onConnections x.1 ctx)).2

/-- Operations one after the other, each with the pools as they are then. -/
def performAll (ctx : RequestContext) (s : Server) (xs : List (DataBase × DaoOperation)) : Server :=
  xs.foldl (perform ctx) s

end Server

/-- The operation misroutes no write of an audited table. -/
def DaoOperation.NamesActor (op : DaoOperation) : Prop := ∀ t, op.misroutes = some t → ¬ t.audited

theorem Audited.perform {ctx : RequestContext} {j₀ : Journal} {s : Server}
    (h : Audited ctx.settings j₀ s) {db : DataBase} {op : DaoOperation} (hop : op.NamesActor) :
    Audited ctx.settings j₀ (s.perform ctx (db, op)) := by
  have hkeeps : Keeps Server.answer (Audited ctx.settings j₀) (op.program.onConnections db ctx) :=
    Keeps.expand (DaoOperation.routed hop) (fun _ hc => (keeps_program hc).attempt)
  exact hkeeps.execute h

theorem Audited.performAll {ctx : RequestContext} {j₀ : Journal}
    {xs : List (DataBase × DaoOperation)} (hxs : ∀ x ∈ xs, x.2.NamesActor) {s : Server}
    (h : Audited ctx.settings j₀ s) : Audited ctx.settings j₀ (s.performAll ctx xs) := by
  induction xs generalizing s with
  | nil => exact h
  | cons x xs ih =>
    have hx : Audited ctx.settings j₀ (s.perform ctx x) := h.perform (hxs x List.mem_cons_self)
    exact ih (fun y hy => hxs y (List.mem_cons_of_mem _ hy)) hx

def Attributed (actor : String) (impersonator : Option String) (c : Change) (log : AuditLog) : Prop :=
  log.actorId = actor ∧ log.impersonatorId = impersonator ∧
    log.action = c.table.resource.1 ++ c.op.action ∧ log.resource = c.table.resource.2 ∧
    log.resourceId = c.resourceId

theorem attributed_logAuditTrail {ctx : RequestContext} {actor : String} (c : Change)
    (hactor : ctx.actorId = some actor) (hne : actor ≠ "") (himp : ctx.impersonatorId ≠ some "") :
    Attributed actor ctx.impersonatorId c (logAuditTrail ctx.settings c) := by
  refine ⟨?_, ?_, rfl, rfl, rfl⟩
  · simp [logAuditTrail, RequestContext.settings, hactor, nullIf, hne]
  · cases himpersonator : ctx.impersonatorId with
    | none => simp [logAuditTrail, RequestContext.settings, himpersonator, nullIf]
    | some impersonator =>
      have hnonempty : impersonator ≠ "" := by
        rintro rfl
        exact himp himpersonator
      simp [logAuditTrail, RequestContext.settings, himpersonator, nullIf, hnonempty]

/-- The rows of audited tables that the operations changed have one log each, in order. -/
def ChangesAttributed (actor : String) (impersonator : Option String) (s t : Server) : Prop :=
  ∃ changes logs, t.journal.changes = s.journal.changes ++ changes ∧
    t.journal.auditLogs = s.journal.auditLogs ++ logs ∧
    List.Forall₂ (Attributed actor impersonator) (changes.filter (·.table.audited)) logs

/-- Operations that misroute no write of an audited table are attributed to the actor and the
impersonator of their context, if the server accepts the settings. -/
theorem changesAttributed_of_namesActor {ctx : RequestContext} {actor : String} {s : Server}
    {xs : List (DataBase × DaoOperation)} (hactor : ctx.actorId = some actor) (hne : actor ≠ "")
    (himp : ctx.impersonatorId ≠ some "")
    (hfates : ∀ fate ∈ s.fate :: s.fates, fate.setConfig = .ok ())
    (hxs : ∀ x ∈ xs, x.2.NamesActor) :
    ChangesAttributed actor ctx.impersonatorId s (s.performAll ctx xs) := by
  have hstart : Audited ctx.settings s.journal s :=
    ⟨⟨.empty, (Journal.append_empty _).symm, Journal.loggedWith_empty _⟩,
      hfates _ List.mem_cons_self, fun fate hfate => hfates _ (List.mem_cons_of_mem _ hfate)⟩
  obtain ⟨j, hj, hlogged⟩ := (hstart.performAll hxs).logged
  refine ⟨j.changes, j.auditLogs, ?_, ?_, ?_⟩
  · rw [hj, Journal.append_changes]
  · rw [hj, Journal.append_auditLogs]
  · rw [hlogged, List.forall₂_map_right_iff]
    exact List.forall₂_same.mpr (fun c _ => attributed_logAuditTrail c hactor hne himp)

/-! ## Runs -/

def impersonated : RequestContext := ⟨some "u1", none, some "admin", none⟩

def changesRow (old new : Row) : Server where
  fates := [{ Fate.idle with statements := [.done [(old, new)] ⟨[new], ""⟩] }]
  fate := .idle
  sessions _ := .fresh
  journal := .empty

def renameVersion : DaoOperation :=
  .dao (.version (.updateVersionInfo "ios" [.int 1, .int 2, .null, .null, .null]))

theorem changesAttributed_renameVersion :
    renameVersion.NamesActor ∧ ChangesAttributed "u1" (some "admin")
      (changesRow [("platform", .text "ios")] [("platform", .text "ios")])
      ((changesRow [("platform", .text "ios")] [("platform", .text "ios")]).performAll impersonated
        [(primaryOnly, renameVersion)]) := by
  have hnames : renameVersion.NamesActor := nofun
  refine ⟨hnames, changesAttributed_of_namesActor rfl (by decide) (by decide) ?_ ?_⟩
  · intro fate hfate
    rcases List.mem_cons.mp hfate with rfl | hlater
    · rfl
    · cases List.mem_singleton.mp hlater
      rfl
  · intro x hx
    cases List.mem_singleton.mp hx
    exact hnames

def createsTask : DaoOperation := .dao (.periodicTask (.createTask [.text "cleanup"]))

/-- A periodic task is created under an actor, but logged under the identifier of nobody. -/
theorem not_changesAttributed : ¬ ∀ (ctx : RequestContext) (actor : String) (s : Server)
    (xs : List (DataBase × DaoOperation)), ctx.actorId = some actor → actor ≠ "" →
    ctx.impersonatorId ≠ some "" →
    ChangesAttributed actor ctx.impersonatorId s (s.performAll ctx xs) := by
  intro h
  obtain ⟨changes, logs, -, hlogs, hattributed⟩ := h impersonated "u1"
    (changesRow [] [("id", .text "t1")]) [(primaryOnly, createsTask)] rfl (by decide) (by decide)
  have hrun : ((changesRow [] [("id", .text "t1")]).performAll impersonated
      [(primaryOnly, createsTask)]).journal.auditLogs.map (·.actorId) = [nobody] := by
    decide +kernel
  have hactors : logs.map (·.actorId) = [nobody] := by
    rw [← hrun, hlogs]
    rfl
  obtain ⟨log, rfl, hlog⟩ := List.map_eq_singleton_iff.mp hactors
  obtain ⟨c, cs, hc, -, -⟩ := List.forall₂_cons_right_iff.mp hattributed
  have hnobody : nobody = "u1" := hlog.symm.trans hc.1
  exact absurd hnobody (by decide)

end FastapiTemplate.Sql
