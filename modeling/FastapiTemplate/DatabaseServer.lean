import FastapiTemplate.DatabaseHelpers
import Mathlib.Logic.Function.Basic

/-!
# The database server

What statements do to the database: rows change, and the trigger `log_audit_trail` of
migrations 006 and 009 writes an audit log for each changed row of an audited table, with
the settings of the session that ran the statement. Session settings are reset when a
connection returns to its pool. What happens on the way, from a refused connection to an
answer that is lost after the commit, is given by the `Fate` of each attempt.
-/

namespace FastapiTemplate.Sql

/-! ## The trigger -/

def Table.name : Table → String
  | .users => "users"
  | .userIdentities => "user_identities"
  | .userSessions => "user_sessions"
  | .userRoles => "user_roles"
  | .userTwoFactor => "user_two_factor"
  | .roles => "roles"
  | .rolePermissions => "role_permissions"
  | .permissions => "permissions"
  | .appVersions => "app_versions"
  | .periodicTasks => "periodic_tasks"
  | .deadLetterTasks => "dead_letter_tasks"
  | .apiKeys => "api_keys"
  | .webhookEndpoints => "webhook_endpoints"
  | .webhookLogs => "webhook_logs"
  | .systemConfigurations => "system_configurations"
  | .userDevices => "user_devices"

def Table.audited : Table → Bool
  | .users => true
  | .roles => true
  | .appVersions => true
  | .periodicTasks => true
  | .deadLetterTasks => true
  | _ => false

structure Change where
  table : Table
  op : Verb
  old : Option Row
  new : Option Row
  deriving DecidableEq, Repr

structure AuditLog where
  actorId : String
  impersonatorId : Option String
  action : String
  resource : String
  resourceId : String
  /-- the row before and after -/
  details : Option Row × Option Row
  ipAddress : Option String
  deriving DecidableEq, Repr

/-- `NULLIF(current_setting(name, true), '')` -/
def nullIf (setting : String) : Option String := if setting = "" then none else some setting

def nobody : String := "00000000-0000-0000-0000-000000000000"

/-- `TG_OP`, with `CREATE` for `INSERT` -/
def Verb.action : Verb → String
  | .insert => "CREATE"
  | .update => "UPDATE"
  | .delete => "DELETE"
  | .select => "SELECT"

/-- The prefix of the action, and the resource. -/
def Table.resource : Table → String × String
  | .users => ("USER_", "user")
  | .roles => ("ROLE_", "role")
  | .appVersions => ("APP_VERSION_", "app_version")
  | .periodicTasks => ("PERIODIC_TASK_", "periodic_task")
  | .deadLetterTasks => ("DLQ_TASK_", "dlq_task")
  | table => (table.name.toUpper ++ "_", table.name)

def Arg.asText : Arg → Option String
  | .null => none
  | .bool b => some (if b then "true" else "false")
  | .int n => some (toString n)
  | .text s => some s
  | .texts ss => some ("\x7b" ++ ",".intercalate ss ++ "\x7d")

def Change.resourceId (c : Change) : String :=
  let row := if c.op = .delete then c.old else c.new
  let column := if c.table = .appVersions then "platform" else "id"
  ((row.bind (·.column column)).bind Arg.asText).getD "unknown"

def withoutPasswords (row : Row) : Row :=
  row.filter (fun column => column.1 ∉ ["password_hash", "hashed_password"])

def logAuditTrail (settings : Settings) (c : Change) : AuditLog where
  actorId := (nullIf settings.actorId).getD nobody
  impersonatorId := nullIf settings.impersonatorId
  action := c.table.resource.1 ++ c.op.action
  resource := c.table.resource.2
  resourceId := c.resourceId
  details := (c.old.map withoutPasswords, c.new.map withoutPasswords)
  ipAddress := nullIf settings.clientIp

/-! ## What took effect -/

/-- Executed writes, the rows they changed, and the audit logs, in their order. -/
structure Journal where
  statements : List Query
  changes : List Change
  auditLogs : List AuditLog
  deriving DecidableEq, Repr

namespace Journal

def empty : Journal := ⟨[], [], []⟩

instance : Append Journal where
  append j k := ⟨j.statements ++ k.statements, j.changes ++ k.changes, j.auditLogs ++ k.auditLogs⟩

variable (j k l : Journal)

@[simp] theorem append_statements : (j ++ k).statements = j.statements ++ k.statements := rfl

@[simp] theorem append_changes : (j ++ k).changes = j.changes ++ k.changes := rfl

@[simp] theorem append_auditLogs : (j ++ k).auditLogs = j.auditLogs ++ k.auditLogs := rfl

@[simp] theorem append_empty : j ++ empty = j := by
  change Journal.mk _ _ _ = j
  simp [empty]

theorem append_assoc : j ++ k ++ l = j ++ (k ++ l) := by
  change Journal.mk _ _ _ = Journal.mk _ _ _
  simp

end Journal

/-- The row before and after; an insertion has only the second and a deletion only the first. -/
def Query.change (q : Query) (image : Row × Row) : Change where
  table := q.table
  op := q.verb
  old := if q.verb = .insert then none else some image.1
  new := if q.verb = .delete then none else some image.2

/-- What a statement does under these session settings. Rows that referential actions change are
left out: their tables have no trigger. -/
def Query.journal (q : Query) (settings : Settings) (images : List (Row × Row)) : Journal :=
  if q.isWrite then
    let changes := images.map q.change
    ⟨[q], changes, (changes.filter (·.table.audited)).map (logAuditTrail settings)⟩
  else .empty

/-! ## Sessions and the server -/

structure Session where
  settings : Settings
  /-- set for the transaction only -/
  localSettings : Option Settings
  /-- what the open transaction has done -/
  transaction : Option Journal
  deriving DecidableEq, Repr

namespace Session

def fresh : Session := ⟨.empty, none, none⟩

def current (session : Session) : Settings := session.localSettings.getD session.settings

end Session

/-- A statement is answered, or takes effect while its answer is lost, or fails. -/
inductive StatementFate
  | done (images : List (Row × Row)) (reply : Reply)
  | lost (images : List (Row × Row)) (e : DbError)
  | failed (e : DbError)
  deriving DecidableEq, Repr

inductive CommitFate
  | done
  | lost (e : DbError)
  | failed (e : DbError)
  deriving DecidableEq, Repr

structure Fate where
  choice : ℕ
  /-- the connections that are handed out -/
  acquires : List (Except DbError ℕ)
  begin : Except DbError Unit
  setConfig : Except DbError Unit
  explain : Except DbError Unit
  statements : List StatementFate
  commit : CommitFate
  deriving DecidableEq, Repr

def Fate.idle : Fate := ⟨0, [], .ok (), .ok (), .ok (), [], .done⟩

structure Server where
  /-- of the coming attempts -/
  fates : List Fate
  fate : Fate
  sessions : Conn → Session
  journal : Journal

namespace Server

def withSession (s : Server) (conn : Conn) (session : Session) : Server :=
  { s with sessions := Function.update s.sessions conn session }

def startAttempt (s : Server) : Server :=
  { s with fates := s.fates.tail, fate := s.fates.headD .idle }

def acquire (s : Server) (pool : PoolId) : Except DbError ℕ × Server :=
  let t := { s with fate := { s.fate with acquires := s.fate.acquires.tail } }
  match s.fate.acquires.headD (.ok 0) with
  | .ok id => (.ok id, t.withSession ⟨pool, id⟩ .fresh)
  | .error e => (.error e, t)

/-- Take effect in the open transaction of the session, or at once. -/
def takeEffect (s : Server) (conn : Conn) (j : Journal) : Server :=
  match (s.sessions conn).transaction with
  | none => { s with journal := s.journal ++ j }
  | some pending => s.withSession conn { s.sessions conn with transaction := some (pending ++ j) }

def beginTransaction (s : Server) (conn : Conn) : Server :=
  s.withSession conn { s.sessions conn with transaction := some .empty }

/-- The end of the transaction, in which the local settings are dropped. -/
def endTransaction (s : Server) (conn : Conn) : Server :=
  s.withSession conn { s.sessions conn with localSettings := none, transaction := none }

def commitTransaction (s : Server) (conn : Conn) : Server :=
  { s.endTransaction conn with
    journal := s.journal ++ (s.sessions conn).transaction.getD .empty }

/-- Settings that are local to a transaction have no effect outside of one. -/
def setConfig (s : Server) (conn : Conn) (settings : Settings) (isLocal : Bool) : Server :=
  let session := s.sessions conn
  if isLocal then
    if session.transaction = none then s
    else s.withSession conn { session with localSettings := some settings }
  else s.withSession conn { session with settings := settings, localSettings := none }

def statement (s : Server) (conn : Conn) (q : Query) : Except DbError Reply × Server :=
  let t := { s with fate := { s.fate with statements := s.fate.statements.tail } }
  let settings := (s.sessions conn).current
  match s.fate.statements.headD (.done [] ⟨[], ""⟩) with
  | .done images reply => (.ok reply, t.takeEffect conn (q.journal settings images))
  | .lost images e => (.error e, t.takeEffect conn (q.journal settings images))
  | .failed e => (.error e, t)

def answer : (op : DbOp) → Server → op.Answer × Server
  | .attempt, s => ((), s.startAttempt)
  | .choice n, s => (s.fate.choice % n, s)
  | .acquire pool, s => s.acquire pool
  | .release conn, s => ((), s.withSession conn .fresh)
  | .begin conn, s =>
    match s.fate.begin with
    | .ok () => (.ok (), s.beginTransaction conn)
    | .error e => (.error e, s)
  | .commit conn, s =>
    match s.fate.commit with
    | .done => (.ok (), s.commitTransaction conn)
    | .lost e => (.error e, s.commitTransaction conn)
    | .failed e => (.error e, s.endTransaction conn)
  | .rollback conn, s => ((), s.endTransaction conn)
  | .setConfig conn settings isLocal, s =>
    match s.fate.setConfig with
    | .ok () => (.ok (), s.setConfig conn settings isLocal)
    | .error e => (.error e, s)
  | .explain _ _, s => (s.fate.explain, s)
  | .statement conn q, s => s.statement conn q

def run {α : Type} (s : Server) (p : DbProgram α) : Except DbError α × Server :=
  p.execute answer s

section lemmas
variable (s : Server) (conn : Conn)

@[simp] theorem withSession_journal (session : Session) :
    (s.withSession conn session).journal = s.journal := rfl

@[simp] theorem withSession_sessions (session : Session) :
    (s.withSession conn session).sessions conn = session := Function.update_self ..

end lemmas

/-- Handing out a connection uses up one entry of the fate, and changes sessions only. -/
structure Acquires (s t : Server) : Prop where
  fates : t.fates = s.fates
  fate : t.fate = { s.fate with acquires := s.fate.acquires.tail }
  journal : t.journal = s.journal

theorem acquire_ok {s : Server} {id : ℕ} (h : s.fate.acquires.headD (.ok 0) = .ok id)
    (pool : PoolId) :
    ∃ t, s.acquire pool = (.ok id, t) ∧ s.Acquires t ∧ t.sessions ⟨pool, id⟩ = .fresh := by
  unfold acquire
  rw [h]
  exact ⟨_, rfl, ⟨rfl, rfl, rfl⟩, withSession_sessions ..⟩

theorem acquire_error {s : Server} {e : DbError} (h : s.fate.acquires.headD (.ok 0) = .error e)
    (pool : PoolId) : ∃ t, s.acquire pool = (.error e, t) ∧ s.Acquires t := by
  unfold acquire
  rw [h]
  exact ⟨_, rfl, rfl, rfl, rfl⟩

end Server
end FastapiTemplate.Sql
