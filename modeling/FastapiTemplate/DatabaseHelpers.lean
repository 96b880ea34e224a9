import FastapiTemplate.CallProgram
import FastapiTemplate.DatabasePools

/-!
# The helpers of the database layer

`fetch`, `write`, `fetchval`, `execute` and `transaction` of `DataBase` as programs over
what happens on connections. A helper that retries draws new conditions for every
attempt (`DbOp.attempt`). Time measurements, metrics, log lines and the conversion of rows
to models are left out, and a pool is taken to be an `asyncpg.Pool`.
-/

namespace FastapiTemplate.Sql

/-! ## Statements -/

inductive Table
  | users
  | userIdentities
  | userSessions
  | userRoles
  | userTwoFactor
  | roles
  | rolePermissions
  | permissions
  | appVersions
  | periodicTasks
  | deadLetterTasks
  | apiKeys
  | webhookEndpoints
  | webhookLogs
  | systemConfigurations
  | userDevices
  deriving DecidableEq, Repr

inductive Verb
  | select
  | insert
  | update
  | delete
  deriving DecidableEq, Repr

inductive Arg
  | null
  | bool (b : Bool)
  | int (n : ℤ)
  | text (s : String)
  | texts (ss : List String)
  deriving DecidableEq, Repr

/-- A statement; `clause` is the rest of its text, with single spaces. -/
structure Query where
  verb : Verb
  table : Table
  clause : String
  args : List Arg
  deriving DecidableEq, Repr

def Query.isWrite (q : Query) : Bool := q.verb ≠ .select

abbrev Row := List (String × Arg)

def Row.column (row : Row) (name : String) : Option Arg := (row.find? (·.1 = name)).map (·.2)

/-- Rows, and the completion tag such as `DELETE 3`. -/
structure Reply where
  rows : List Row
  tag : String
  deriving DecidableEq, Repr

inductive DbError
  | interface
  | cannotConnectNow
  | connectionDoesNotExist
  /-- also the timeout of a statement -/
  | os
  /-- any other error that the server reports -/
  | postgres
  | runtime (message : String)
  | attribute
  | index
  | value (message : String)
  deriving DecidableEq, Repr

/-- The exceptions of `_db_retry`. -/
def DbError.retried : DbError → Bool
  | .interface => true
  | .cannotConnectNow => true
  | .connectionDoesNotExist => true
  | .os => true
  | _ => false

def DbError.isDatabaseError : DbError → Bool
  | .interface => true
  | .cannotConnectNow => true
  | .connectionDoesNotExist => true
  | .postgres => true
  | _ => false

/-! ## Connections -/

structure Conn where
  pool : PoolId
  id : ℕ
  deriving DecidableEq, Repr

/-- `app.actor_id`, `app.client_ip` and `app.impersonator_id` of a session. -/
structure Settings where
  actorId : String
  clientIp : String
  impersonatorId : String
  deriving DecidableEq, Repr

def Settings.empty : Settings := ⟨"", "", ""⟩

structure RequestContext where
  actorId : Option String
  clientIp : Option String
  impersonatorId : Option String
  clientRegion : Option String
  deriving DecidableEq, Repr

def RequestContext.settings (ctx : RequestContext) : Settings :=
  ⟨ctx.actorId.getD "", ctx.clientIp.getD "", ctx.impersonatorId.getD ""⟩

def anonymous : RequestContext := ⟨none, none, none, none⟩

inductive DbOp
  /-- an attempt of a helper starts -/
  | attempt
  /-- `secrets.choice` among `n` -/
  | choice (n : ℕ)
  | acquire (pool : PoolId)
  | release (conn : Conn)
  | begin (conn : Conn)
  | commit (conn : Conn)
  | rollback (conn : Conn)
  | setConfig (conn : Conn) (settings : Settings) (isLocal : Bool)
  | explain (conn : Conn) (q : Query)
  | statement (conn : Conn) (q : Query)
  deriving DecidableEq, Repr

@[reducible] def DbOp.Answer : DbOp → Type
  | .attempt => Unit
  | .choice _ => ℕ
  | .acquire _ => Except DbError ℕ
  | .release _ => Unit
  | .begin _ => Except DbError Unit
  | .commit _ => Except DbError Unit
  | .rollback _ => Unit
  | .setConfig .. => Except DbError Unit
  | .explain .. => Except DbError Unit
  | .statement .. => Except DbError Reply

abbrev DbProgram (α : Type) := Program DbOp DbOp.Answer DbError α

abbrev ask (op : DbOp) : DbProgram op.Answer := Program.perform op

def ofExcept {α : Type} : Except DbError α → DbProgram α
  | .ok a => .pure a
  | .error e => .raise e

/-- `async with pool.acquire() as conn` -/
def withConnection {α : Type} (pool : PoolId) (body : Conn → DbProgram α) : DbProgram α := do
  let id ← ofExcept (← ask (.acquire pool))
  (body ⟨pool, id⟩).tryFinally (ask (.release ⟨pool, id⟩))

def runStatement (conn : Conn) (q : Query) : DbProgram Reply := do
  ofExcept (← ask (.statement conn q))

def runStatements (conn : Conn) : List Query → DbProgram Unit
  | [] => pure ()
  | q :: qs => do
    let _ ← runStatement conn q
    runStatements conn qs

inductive Executor
  | pool (pool : PoolId)
  | connection (conn : Conn)
  deriving DecidableEq, Repr

def withExecutor {α : Type} (con : Executor) (body : Conn → DbProgram α) : DbProgram α :=
  match con with
  | .pool pool => withConnection pool body
  | .connection conn => body conn

def retry {α : Type} (p : DbProgram α) : ℕ → DbProgram α
  | 0 => do
    ask .attempt
    p
  | n + 1 => do
    ask .attempt
    p.handle (fun e => if e.retried then retry p n else .raise e)

def dbRetry {α : Type} (p : DbProgram α) : DbProgram α := retry p 2

section helpers
variable (db : DataBase) (ctx : RequestContext)

def selectReadPool : DbProgram (PoolId × String) :=
  match db.chooseRegion ctx.clientRegion with
  | none =>
    match db.writePool with
    | some pool => pure (pool, db.regionNameForPool pool "primary_fallback")
    | none => .raise (.runtime "No DB pools available")
  | some region => do
    let k ← ask (.choice (db.candidates region).length)
    match (db.candidates region)[k]? with
    | some m => pure (m.pool, region)
    | none => .raise .index

def getPool (usePrimary : Bool) : DbProgram (PoolId × String) :=
  if usePrimary then
    match db.writePool with
    | some pool => pure (pool, db.regionNameForPool pool "primary")
    | none => .raise (.runtime "Write pool not initialized")
  else selectReadPool db ctx

/-- Set the session settings for the audit trigger; a database error is only logged. -/
def setSession (conn : Conn) : DbProgram Unit := do
  match ← ask (.setConfig conn ctx.settings false) with
  | .ok () => pure ()
  | .error e => if e.isDatabaseError then pure () else .raise e

def transaction {α : Type} (usePrimary : Bool) (body : Conn → DbProgram α) : DbProgram α := do
  ask .attempt
  let (pool, _) ← getPool db ctx usePrimary
  withConnection pool (fun conn => do
    ofExcept (← ask (.begin conn))
    let inner : DbProgram α := do
      if ctx.settings ≠ .empty then
        -- whatever is raised here is only logged
        let _ ← ask (.setConfig conn ctx.settings true)
      body conn
    let result ← inner.handle (fun e => do
      ask (.rollback conn)
      .raise e)
    ofExcept (← ask (.commit conn))
    pure result)

def fetch (q : Query) (fetchRow logExplain : Bool) : DbProgram (List Row) := dbRetry do
  let (pool, _) ← getPool db ctx false
  if logExplain then
    let _ ← (withConnection pool (fun conn => ask (.explain conn q))).attempt
  let reply ← withConnection pool (fun conn => runStatement conn q)
  pure (if fetchRow then reply.rows.take 1 else reply.rows)

def write (q : Query) : DbProgram (Option Row) := dbRetry do
  let (pool, _) ← getPool db ctx true
  let reply ← withConnection pool (fun conn => do
    setSession ctx conn
    runStatement conn q)
  pure reply.rows.head?

def fetchvalExecutor (con : Option Executor) (usePrimary : Bool) : DbProgram Executor :=
  match con with
  | some con => pure con
  | none => getPool db ctx usePrimary >>= fun x => pure (.pool x.1)

def fetchval (q : Query) (con : Option Executor) (column : ℕ) (usePrimary : Bool) :
    DbProgram (Option Arg) := dbRetry do
  let con ← fetchvalExecutor db ctx con usePrimary
  let reply ← withExecutor con (fun conn => runStatement conn q)
  pure (reply.rows.head?.bind (fun row => row[column]?.map (·.2)))

/-- `cls.write_pool if con is None else con`; without either, the access to it fails. -/
def executeTarget (con : Option Executor) : DbProgram Executor :=
  match con with
  | some con => pure con
  | none =>
    match db.writePool with
    | some pool => pure (.pool pool)
    | none => .raise .attribute

def execute (q : Query) (con : Option Executor) : DbProgram String := dbRetry do
  let target ← executeTarget db con
  let reply ← withExecutor target (fun conn => do
    setSession ctx conn
    runStatement conn q)
  pure reply.tag

/-! ## The calls of the data access objects -/

inductive HelperCall
  | fetch (q : Query) (fetchRow : Bool)
  | write (q : Query)
  | fetchval (q : Query)
  | execute (q : Query)
  /-- a transaction on the write pool that runs these statements -/
  | transaction (qs : List Query)
  deriving DecidableEq, Repr

@[reducible] def HelperCall.Result : HelperCall → Type
  | .fetch .. => List Row
  | .write _ => Option Row
  | .fetchval _ => Option Arg
  | .execute _ => String
  | .transaction _ => Unit

@[reducible] def HelperCall.Answer (c : HelperCall) : Type := Except DbError c.Result

def HelperCall.program : (c : HelperCall) → DbProgram c.Result
  | .fetch q fetchRow => Sql.fetch db ctx q fetchRow false
  | .write q => Sql.write db ctx q
  | .fetchval q => Sql.fetchval db ctx q none 0 false
  | .execute q => Sql.execute db ctx q none
  | .transaction qs => Sql.transaction db ctx true (fun conn => runStatements conn qs)

variable {db ctx} in
/-- A region is read from at the index that is chosen. -/
theorem getPool_read {region : String} (hregion : db.chooseRegion ctx.clientRegion = some region) :
    getPool db ctx false = ask (.choice (db.candidates region).length) >>= fun k =>
      (db.candidates region)[k]?.elim (.raise .index) (fun m => pure (m.pool, region)) := by
  unfold getPool selectReadPool
  rw [if_neg (by simp), hregion]
  refine congrArg (ask (.choice (db.candidates region).length) >>= ·) (funext (fun k => ?_))
  cases (db.candidates region)[k]? <;> rfl

end helpers

abbrev DaoProgram (α : Type) := Program HelperCall HelperCall.Answer DbError α

def DaoProgram.onConnections (db : DataBase) (ctx : RequestContext) {α : Type} (p : DaoProgram α) :
    DbProgram α :=
  p.expand (fun c => (c.program db ctx).attempt)

end FastapiTemplate.Sql
