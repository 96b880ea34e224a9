import FastapiTemplate.AccountStatements

/-!
# The statements of the other data access objects

The methods of `DeadLetterTaskDAO`, `PeriodicTaskDAO`, `VersionDAO`, `ApiKeyDAO` and
`WebhookDAO`. Where a method binds the fields of its payload in order, the payload is
the list of these values. What the methods do in Redis is left out. `DaoMethod` is a
call of any method.
-/

namespace FastapiTemplate.Sql

/-- `int(res.split()[-1])`, and `0` where that fails. -/
def affected (tag : String) : ℕ :=
  (((tag.splitOn " ").filter (· ≠ "")).getLast?.bind String.toNat?).getD 0

/-- `" 0" not in res` -/
def noZero (tag : String) : Bool := (tag.splitOn " 0").length = 1

structure Clauses where
  parts : List String
  params : List Arg

namespace Clauses

def push (c : Clauses) (param : Arg) (part : String → String) : Clauses :=
  ⟨c.parts ++ [part ("$" ++ toString (c.params.length + 1))], c.params ++ [param]⟩

def pushIf (c : Clauses) (param : Option Arg) (part : String → String) : Clauses :=
  match param with
  | none => c
  | some param => c.push param part

end Clauses

def nonEmpty (s : Option String) : Option String := s.filter (· ≠ "")

/-! ## Dead letter tasks -/

namespace DeadLetterTaskDAO

structure DLQTaskFilter where
  taskName : Option String
  exceptionType : Option String
  search : Option String
  dateFrom : Option Arg
  dateTo : Option Arg
  deriving DecidableEq, Repr

structure DLQUpdatePayload where
  args : Option Arg
  kwargs : Option Arg
  mergeKwargs : Bool
  queue : Option String
  taskIds : List String
  taskName : Option String
  deriving DecidableEq, Repr

def conditions (filters : DLQTaskFilter) : Clauses :=
  ((((Clauses.mk ["1=1"] []).pushIf ((nonEmpty filters.taskName).map .text)
    (fun p => "task_name = " ++ p)).pushIf ((nonEmpty filters.exceptionType).map .text)
    (fun p => "exception_type = " ++ p)).pushIf
    ((nonEmpty filters.search).map (fun s => .text ("%" ++ s ++ "%")))
    (fun p => "(task_name ILIKE " ++ p ++ " OR exception_message ILIKE " ++ p ++
      " OR traceback ILIKE " ++ p ++ ")")).pushIf filters.dateFrom
    (fun p => "failed_at >= " ++ p) |>.pushIf filters.dateTo (fun p => "failed_at <= " ++ p)

def listTasks (filters : DLQTaskFilter) (limit : Option ℤ) (cursor : Option String) (offset : ℤ) :
    DaoProgram (List Row) :=
  let where_ := (conditions filters).pushIf ((nonEmpty cursor).map .text)
    (fun p => "id < " ++ p ++ "::uuid")
  let pagination := ((Clauses.mk [] where_.params).pushIf ((limit.filter (0 < ·)).map .int)
    (fun p => " LIMIT " ++ p)).pushIf (if 0 < offset then some (.int offset) else none)
    (fun p => " OFFSET " ++ p)
  Dao.fetch ⟨.select, .deadLetterTasks, "* FROM dead_letter_tasks WHERE " ++
    " AND ".intercalate where_.parts ++ " ORDER BY id DESC" ++ "".intercalate pagination.parts,
    pagination.params⟩

def countTasks (filters : DLQTaskFilter) : DaoProgram ℤ := do
  let clauses := conditions filters
  let record ← Dao.fetchRow ⟨.select, .deadLetterTasks,
    "COUNT(*) FROM dead_letter_tasks WHERE " ++ " AND ".intercalate clauses.parts, clauses.params⟩
  pure (countOf record "count")

def getTaskById (taskId : String) : DaoProgram (Option Row) :=
  Dao.fetchRow ⟨.select, .deadLetterTasks, "* FROM dead_letter_tasks WHERE id = $1;",
    [.text taskId]⟩

def updateTaskPayload (payload : DLQUpdatePayload) (taskId : Option String) : DaoProgram ℕ := do
  let set := (((Clauses.mk ["updated_at = NOW()"] []).pushIf payload.args
    (fun p => "args = " ++ p ++ "::jsonb")).pushIf payload.kwargs
    (fun p => if payload.mergeKwargs ∧ taskId = none then "kwargs = kwargs || " ++ p ++ "::jsonb"
      else "kwargs = " ++ p ++ "::jsonb")).pushIf (payload.queue.map .text)
    (fun p => "queue = " ++ p)
  let ids := match taskId with
    | some taskId => [taskId]
    | none => payload.taskIds
  let where_ :=
    if ids ≠ [] then (Clauses.mk [] set.params).push (.texts ids)
      (fun p => "id = ANY(" ++ p ++ "::uuid[])")
    else match nonEmpty payload.taskName with
      | some taskName => (Clauses.mk [] set.params).push (.text taskName)
        (fun p => "task_name = " ++ p)
      | none => Clauses.mk ["1=1"] set.params
  let res ← Dao.execute ⟨.update, .deadLetterTasks, "SET " ++ ", ".intercalate set.parts ++
    " WHERE " ++ " AND ".intercalate where_.parts, where_.params⟩
  pure (affected res)

def deleteTasks (taskIds : List String) (taskName : Option String) : DaoProgram ℕ := do
  if taskIds ≠ [] then
    let res ← Dao.execute ⟨.delete, .deadLetterTasks, "WHERE id = ANY($1::uuid[]);",
      [.texts taskIds]⟩
    pure (affected res)
  else match nonEmpty taskName with
    | some taskName => do
      let res ← Dao.execute ⟨.delete, .deadLetterTasks, "WHERE task_name = $1;", [.text taskName]⟩
      pure (affected res)
    | none => pure 0

def fetchAndDeleteTasks (taskIds : List String) (taskName : Option String) :
    DaoProgram (List Row) :=
  if taskIds ≠ [] then
    Dao.fetch ⟨.delete, .deadLetterTasks, "WHERE id = ANY($1::uuid[]) RETURNING *;",
      [.texts taskIds]⟩
  else match nonEmpty taskName with
    | some taskName => Dao.fetch ⟨.delete, .deadLetterTasks, "WHERE task_name = $1 RETURNING *;",
        [.text taskName]⟩
    | none => Dao.fetch ⟨.delete, .deadLetterTasks, "RETURNING *;", []⟩

def deleteOldTasks (days : ℤ) : DaoProgram ℕ := do
  let res ← Dao.execute ⟨.delete, .deadLetterTasks,
    "WHERE failed_at < NOW() - ($1 || ' days')::INTERVAL;", [.text (toString days)]⟩
  pure (affected res)

def getStatistics : DaoProgram (ℤ × List Row × List Row) := do
  let counts ← Dao.fetchRow ⟨.select, .deadLetterTasks,
    "COUNT(*) AS total_count FROM dead_letter_tasks;", []⟩
  let taskRows ← Dao.fetch ⟨.select, .deadLetterTasks, "task_name, COUNT(*) as count " ++
    "FROM dead_letter_tasks GROUP BY task_name ORDER BY count DESC LIMIT 20;", []⟩
  let excRows ← Dao.fetch ⟨.select, .deadLetterTasks,
    "COALESCE(exception_type, 'Unknown') as exception_type, COUNT(*) as count " ++
    "FROM dead_letter_tasks GROUP BY exception_type ORDER BY count DESC LIMIT 20;", []⟩
  pure (countOf counts "total_count", taskRows, excRows)

end DeadLetterTaskDAO

/-! ## Periodic tasks -/

namespace PeriodicTaskDAO

def listTasks : DaoProgram (List Row) :=
  Dao.fetch ⟨.select, .periodicTasks, "* FROM periodic_tasks ORDER BY created_at DESC;", []⟩

def listTasksPaginated (limit skip : ℤ) (search : Option String) : DaoProgram (List Row) :=
  match searchPattern search with
  | some pattern => Dao.fetch ⟨.select, .periodicTasks, "* FROM periodic_tasks " ++
      "WHERE (name ILIKE $1 OR task ILIKE $1) ORDER BY created_at DESC LIMIT $2 OFFSET $3;",
      [pattern, .int limit, .int skip]⟩
  | none => Dao.fetch ⟨.select, .periodicTasks,
      "* FROM periodic_tasks ORDER BY created_at DESC LIMIT $1 OFFSET $2;",
      [.int limit, .int skip]⟩

def countValue (val : Option Arg) : ℤ :=
  match val with
  | some (.int n) => n
  | _ => 0

def countTasks (search : Option String) : DaoProgram ℤ := do
  let val ← match searchPattern search with
    | some pattern => Dao.fetchval ⟨.select, .periodicTasks,
        "COUNT(*) FROM periodic_tasks WHERE (name ILIKE $1 OR task ILIKE $1);", [pattern]⟩
    | none => Dao.fetchval ⟨.select, .periodicTasks, "COUNT(*) FROM periodic_tasks;", []⟩
  pure (countValue val)

def getByIds (taskIds : List String) : DaoProgram (List Row) := do
  if taskIds = [] then pure []
  else Dao.fetch ⟨.select, .periodicTasks,
    "* FROM periodic_tasks WHERE id = ANY($1::uuid[]) ORDER BY created_at DESC;", [.texts taskIds]⟩

def deleteTasks (taskIds : List String) : DaoProgram ℕ := do
  if taskIds = [] then pure 0
  else
    let rows ← Dao.fetch ⟨.delete, .periodicTasks, "WHERE id = ANY($1::uuid[]) RETURNING id;",
      [.texts taskIds]⟩
    pure rows.length

def getTaskById (taskId : String) : DaoProgram (Option Row) :=
  Dao.fetchRow ⟨.select, .periodicTasks, "* FROM periodic_tasks WHERE id = $1;", [.text taskId]⟩

def getTaskByName (name : String) : DaoProgram (Option Row) :=
  Dao.fetchRow ⟨.select, .periodicTasks, "* FROM periodic_tasks WHERE name = $1;", [.text name]⟩

def createTask (taskIn : List Arg) : DaoProgram Row := do
  match ← Dao.fetchRow ⟨.insert, .periodicTasks, "( name, task, schedule_type, cron_minute, " ++
    "cron_hour, cron_day_of_week, cron_day_of_month, cron_month_of_year, interval_every, " ++
    "interval_period, args, kwargs, enabled ) VALUES ( $1, $2, $3, $4, $5, $6, $7, $8, $9, $10, " ++
    "$11::jsonb, $12::jsonb, $13 ) RETURNING *;", taskIn⟩ with
  | none => .raise (.runtime "Failed to create periodic task record")
  | some record => pure record

def updateTask (taskId : String) (taskIn : List Arg) : DaoProgram (Option Row) :=
  Dao.fetchRow ⟨.update, .periodicTasks, "SET name = COALESCE($1, name), " ++
    "task = COALESCE($2, task), schedule_type = COALESCE($3, schedule_type), " ++
    "cron_minute = COALESCE($4, cron_minute), cron_hour = COALESCE($5, cron_hour), " ++
    "cron_day_of_week = COALESCE($6, cron_day_of_week), " ++
    "cron_day_of_month = COALESCE($7, cron_day_of_month), " ++
    "cron_month_of_year = COALESCE($8, cron_month_of_year), " ++
    "interval_every = COALESCE($9, interval_every), " ++
    "interval_period = COALESCE($10, interval_period), args = COALESCE($11::jsonb, args), " ++
    "kwargs = COALESCE($12::jsonb, kwargs), enabled = COALESCE($13, enabled), " ++
    "updated_at = NOW() WHERE id = $14 RETURNING *;", taskIn ++ [.text taskId]⟩

def deleteTask (taskId : String) : DaoProgram Bool := do
  let row ← Dao.fetchRow ⟨.delete, .periodicTasks, "WHERE id = $1 RETURNING id;", [.text taskId]⟩
  pure row.isSome

end PeriodicTaskDAO

/-! ## Versions -/

namespace VersionDAO

def getVersionInfo (platform : String) : DaoProgram (Option Row) :=
  Dao.fetchRow ⟨.select, .appVersions, "* FROM app_versions WHERE platform = $1",
    [.text platform.toLower]⟩

def getAllVersions : DaoProgram (List Row) :=
  Dao.fetch ⟨.select, .appVersions, "* FROM app_versions ORDER BY platform", []⟩

def lowerPattern (search : Option String) : Option Arg :=
  match searchPattern search with
  | some (.text pattern) => some (.text pattern.toLower)
  | _ => none

def listVersions (limit skip : ℤ) (search : Option String) : DaoProgram (List Row) :=
  match lowerPattern search with
  | some pattern => Dao.fetch ⟨.select, .appVersions, "* FROM app_versions " ++
      "WHERE LOWER(platform) ILIKE $1 ORDER BY platform LIMIT $2 OFFSET $3;",
      [pattern, .int limit, .int skip]⟩
  | none => Dao.fetch ⟨.select, .appVersions,
      "* FROM app_versions ORDER BY platform LIMIT $1 OFFSET $2;", [.int limit, .int skip]⟩

def countVersions (search : Option String) : DaoProgram ℤ := do
  let val ← match lowerPattern search with
    | some pattern => Dao.fetchval ⟨.select, .appVersions,
        "COUNT(*) FROM app_versions WHERE LOWER(platform) ILIKE $1;", [pattern]⟩
    | none => Dao.fetchval ⟨.select, .appVersions, "COUNT(*) FROM app_versions;", []⟩
  pure (PeriodicTaskDAO.countValue val)

def getByPlatforms (platforms : List String) : DaoProgram (List Row) := do
  if platforms = [] then pure []
  else Dao.fetch ⟨.select, .appVersions,
    "* FROM app_versions WHERE platform = ANY($1::varchar[]) ORDER BY platform;",
    [.texts (platforms.map String.toLower)]⟩

/-- The further values are `min_build`, `latest_build`, `force_update`, message and url. -/
def createVersion (platform : String) (data : List Arg) : DaoProgram (Option Row) :=
  Dao.write ⟨.insert, .appVersions,
    "(platform, min_build, latest_build, force_update, update_message, update_url) " ++
    "VALUES ($1, $2, $3, $4, $5, $6) RETURNING *;", .text platform.toLower :: data⟩

def deleteVersions (platforms : List String) : DaoProgram ℕ := do
  if platforms = [] then pure 0
  else
    let rows ← Dao.fetch ⟨.delete, .appVersions,
      "WHERE platform = ANY($1::varchar[]) RETURNING platform;",
      [.texts (platforms.map String.toLower)]⟩
    pure rows.length

def updateVersionInfo (platform : String) (updateData : List Arg) : DaoProgram (Option Row) :=
  Dao.write ⟨.update, .appVersions, "SET min_build = COALESCE($2, min_build), " ++
    "latest_build = COALESCE($3, latest_build), force_update = COALESCE($4, force_update), " ++
    "update_message = COALESCE($5, update_message), update_url = COALESCE($6, update_url), " ++
    "updated_at = CURRENT_TIMESTAMP WHERE platform = $1 RETURNING *",
    .text platform.toLower :: updateData⟩

end VersionDAO

/-! ## API keys -/

namespace ApiKeyDAO

def createApiKey (keyIn : List Arg) : DaoProgram (Option Row) :=
  Dao.write ⟨.insert, .apiKeys,
    "(name, prefix, hashed_key, scopes, rate_limit, expires_at, created_by, is_active) " ++
    "VALUES ($1, $2, $3, $4, $5, $6, $7, $8) RETURNING *", keyIn⟩

def getApiKeyByHash (hashedKey : String) : DaoProgram (Option Row) :=
  Dao.fetchRow ⟨.select, .apiKeys, "* FROM api_keys WHERE hashed_key = $1", [.text hashedKey]⟩

def getApiKeyById (keyId : String) : DaoProgram (Option Row) :=
  Dao.fetchRow ⟨.select, .apiKeys, "* FROM api_keys WHERE id = $1", [.text keyId]⟩

def listApiKeys (limit : ℤ) (cursor : Option String) : DaoProgram (List Row) :=
  match nonEmpty cursor with
  | some cursor => Dao.fetch ⟨.select, .apiKeys,
      "* FROM api_keys WHERE id < $1::uuid ORDER BY id DESC LIMIT $2;", [.text cursor, .int limit]⟩
  | none => Dao.fetch ⟨.select, .apiKeys, "* FROM api_keys ORDER BY id DESC LIMIT $1;",
      [.int limit]⟩

def updateApiKey (keyId : String) (updateData : List Arg) : DaoProgram (Option Row) :=
  Dao.write ⟨.update, .apiKeys, "SET name = COALESCE($2, name), scopes = COALESCE($3, scopes), " ++
    "rate_limit = COALESCE($4, rate_limit), expires_at = COALESCE($5, expires_at), " ++
    "is_active = COALESCE($6, is_active), updated_at = CURRENT_TIMESTAMP WHERE id = $1 RETURNING *",
    .text keyId :: updateData⟩

def rotateApiKey (keyId newPrefix newHashedKey : String) : DaoProgram (Option Row) :=
  Dao.write ⟨.update, .apiKeys, "SET prefix = $2, hashed_key = $3, " ++
    "updated_at = CURRENT_TIMESTAMP WHERE id = $1 RETURNING *",
    [.text keyId, .text newPrefix, .text newHashedKey]⟩

def updateLastUsed (keyId : String) (ipAddress : Option String) : DaoProgram Unit := do
  let _ ← Dao.execute ⟨.update, .apiKeys, "SET last_used_at = CURRENT_TIMESTAMP, " ++
    "last_used_ip = $2::inet WHERE id = $1", [.text keyId, Arg.ofOption (ipAddress.map .text)]⟩

def deleteApiKey (keyId : String) : DaoProgram Bool := do
  let res ← Dao.execute ⟨.delete, .apiKeys, "WHERE id = $1", [.text keyId]⟩
  pure (noZero res)

/-- The hashes that are read first name the cache entries to delete. -/
def deleteApiKeys (keyIds : List String) : DaoProgram ℕ := do
  if keyIds = [] then pure 0
  else
    let _ ← Dao.fetch ⟨.select, .apiKeys, "hashed_key FROM api_keys WHERE id = ANY($1::uuid[]);",
      [.texts keyIds]⟩
    let deletedRows ← Dao.fetch ⟨.delete, .apiKeys, "WHERE id = ANY($1::uuid[]) RETURNING id;",
      [.texts keyIds]⟩
    pure deletedRows.length

end ApiKeyDAO

/-! ## Webhooks -/

namespace WebhookDAO

def createEndpoint (endpointIn : List Arg) : DaoProgram (Option Row) :=
  Dao.write ⟨.insert, .webhookEndpoints,
    "(url, secret, description, event_types, headers, created_by) " ++
    "VALUES ($1, $2, $3, $4, $5::jsonb, $6) RETURNING *", endpointIn⟩

def getEndpointById (endpointId : String) : DaoProgram (Option Row) :=
  Dao.fetchRow ⟨.select, .webhookEndpoints, "* FROM webhook_endpoints WHERE id = $1",
    [.text endpointId]⟩

def listEndpoints (limit : ℤ) (cursor : Option String) (isActive : Option Bool) :
    DaoProgram (List Row) :=
  let clauses := ((Clauses.mk ["1=1"] []).pushIf (isActive.map .bool)
    (fun p => "is_active = " ++ p)).pushIf ((nonEmpty cursor).map .text)
    (fun p => "id < " ++ p ++ "::uuid")
  let last := (Clauses.mk [] clauses.params).push (.int limit) (fun p => p ++ ";")
  Dao.fetch ⟨.select, .webhookEndpoints, "* FROM webhook_endpoints WHERE " ++
    " AND ".intercalate clauses.parts ++ " ORDER BY id DESC LIMIT " ++ "".intercalate last.parts,
    last.params⟩

def listActiveEndpointsForEvent (eventName : String) : DaoProgram (List Row) :=
  Dao.fetch ⟨.select, .webhookEndpoints, "* FROM webhook_endpoints WHERE is_active = TRUE " ++
    "AND $1 = ANY(event_types) ORDER BY created_at ASC", [.text eventName]⟩

def updateEndpoint (endpointId : String) (updateData : List Arg) : DaoProgram (Option Row) :=
  Dao.write ⟨.update, .webhookEndpoints, "SET url = COALESCE($2, url), " ++
    "description = COALESCE($3, description), event_types = COALESCE($4, event_types), " ++
    "headers = COALESCE($5::jsonb, headers), secret = COALESCE($6, secret), " ++
    "is_active = COALESCE($7, is_active), updated_at = CURRENT_TIMESTAMP WHERE id = $1 RETURNING *",
    .text endpointId :: updateData⟩

def deleteEndpoint (endpointId : String) : DaoProgram Bool := do
  let res ← Dao.execute ⟨.delete, .webhookEndpoints, "WHERE id = $1", [.text endpointId]⟩
  pure (noZero res)

def deleteEndpoints (endpointIds : List String) : DaoProgram ℕ := do
  if endpointIds = [] then pure 0
  else
    let rows ← Dao.fetch ⟨.delete, .webhookEndpoints, "WHERE id = ANY($1::uuid[]) RETURNING id;",
      [.texts endpointIds]⟩
    pure rows.length

end WebhookDAO
/-! ## Calls of the methods -/

def DaoProgram.void {α : Type} (p : DaoProgram α) : DaoProgram Unit := do
  let _ ← p

namespace UserDAO

inductive Method
  | getAllPaginated (limit skip : ℤ) (search : Option String)
  | countUsers (search : Option String)
  | deleteUsers (userIds : List String)
  | getByIds (pks : List String)
  | getByGoogleSub (sub : String)
  | createUserOauth (userData : UserCreate) (userInfo : UserInfo)
  | getByUsername (username : String)
  | getById (userId : String)
  | getByEmail (email : String)
  | addIdentity (userId : String) (userInfo : UserInfo)
  | createUser (userData : UserCreate) (hashedPassword : Arg)
  | upsertUserSession (sessionData : List Arg)
  | updateUser (userId : String) (userUpdate : UserUpdate)
  | updatePassword (userId hashedPassword : String)
  | revokeUserSession (currentUserId jti : String)
  | revokeAllUserSessions (currentUserId : String)
  | getUserSessions (userId : String) (limit : ℤ) (cursor : Option String)
  | assignRoles (userId : String) (roleIds : List String)
  | getTwoFactor (userId : String)
  | upsertTwoFactor (userId secretEncrypted backupCodes : String) (isEnabled : Bool)
  | disableTwoFactor (userId : String)
  | updateTwoFactorBackupCodes (userId backupCodes : String)
  deriving DecidableEq, Repr

def Method.program : Method → DaoProgram Unit
  | .getAllPaginated limit skip search => (UserDAO.getAllPaginated limit skip search).void
  | .countUsers search => (UserDAO.countUsers search).void
  | .deleteUsers userIds => (UserDAO.deleteUsers userIds).void
  | .getByIds pks => (UserDAO.getByIds pks).void
  | .getByGoogleSub sub => (UserDAO.getByGoogleSub sub).void
  | .createUserOauth userData userInfo => (UserDAO.createUserOauth userData userInfo).void
  | .getByUsername username => (UserDAO.getByUsername username).void
  | .getById userId => (UserDAO.getById userId).void
  | .getByEmail email => (UserDAO.getByEmail email).void
  | .addIdentity userId userInfo => (UserDAO.addIdentity userId userInfo).void
  | .createUser userData hashedPassword => (UserDAO.createUser userData hashedPassword).void
  | .upsertUserSession sessionData => (UserDAO.upsertUserSession sessionData).void
  | .updateUser userId userUpdate => (UserDAO.updateUser userId userUpdate).void
  | .updatePassword userId hashedPassword => (UserDAO.updatePassword userId hashedPassword).void
  | .revokeUserSession currentUserId jti => (UserDAO.revokeUserSession currentUserId jti).void
  | .revokeAllUserSessions currentUserId => (UserDAO.revokeAllUserSessions currentUserId).void
  | .getUserSessions userId limit cursor => (UserDAO.getUserSessions userId limit cursor).void
  | .assignRoles userId roleIds => (UserDAO.assignRoles userId roleIds).void
  | .getTwoFactor userId => (UserDAO.getTwoFactor userId).void
  | .upsertTwoFactor userId secretEncrypted backupCodes isEnabled =>
    (UserDAO.upsertTwoFactor userId secretEncrypted backupCodes isEnabled).void
  | .disableTwoFactor userId => (UserDAO.disableTwoFactor userId).void
  | .updateTwoFactorBackupCodes userId backupCodes =>
    (UserDAO.updateTwoFactorBackupCodes userId backupCodes).void

end UserDAO

namespace RoleDAO

inductive Method
  | getAllRoles (limit : ℤ) (cursor : Option String)
  | getRolesPaginated (limit skip : ℤ) (search : Option String)
  | countRoles (search : Option String)
  | deleteRoles (roleIds : List String)
  | getRoleById (roleId : String)
  | getByIds (pks : List String)
  | getRoleByName (name : String)
  | createRole (roleCreate : RoleCreate)
  | updateRole (roleId : String) (roleUpdate : RoleUpdate)
  | deleteRole (roleId : String)
  | getAllPermissions (limit : ℤ) (cursor : Option String)
  deriving DecidableEq, Repr

def Method.program : Method → DaoProgram Unit
  | .getAllRoles limit cursor => (RoleDAO.getAllRoles limit cursor).void
  | .getRolesPaginated limit skip search => (RoleDAO.getRolesPaginated limit skip search).void
  | .countRoles search => (RoleDAO.countRoles search).void
  | .deleteRoles roleIds => (RoleDAO.deleteRoles roleIds).void
  | .getRoleById roleId => (RoleDAO.getRoleById roleId).void
  | .getByIds pks => (RoleDAO.getByIds pks).void
  | .getRoleByName name => (RoleDAO.getRoleByName name).void
  | .createRole roleCreate => (RoleDAO.createRole roleCreate).void
  | .updateRole roleId roleUpdate => (RoleDAO.updateRole roleId roleUpdate).void
  | .deleteRole roleId => (RoleDAO.deleteRole roleId).void
  | .getAllPermissions limit cursor => (RoleDAO.getAllPermissions limit cursor).void

end RoleDAO

namespace DeadLetterTaskDAO

inductive Method
  | listTasks (filters : DLQTaskFilter) (limit : Option ℤ) (cursor : Option String) (offset : ℤ)
  | countTasks (filters : DLQTaskFilter)
  | getTaskById (taskId : String)
  | updateTaskPayload (payload : DLQUpdatePayload) (taskId : Option String)
  | deleteTasks (taskIds : List String) (taskName : Option String)
  | fetchAndDeleteTasks (taskIds : List String) (taskName : Option String)
  | deleteOldTasks (days : ℤ)
  | getStatistics
  deriving DecidableEq, Repr

def Method.program : Method → DaoProgram Unit
  | .listTasks filters limit cursor offset =>
    (DeadLetterTaskDAO.listTasks filters limit cursor offset).void
  | .countTasks filters => (DeadLetterTaskDAO.countTasks filters).void
  | .getTaskById taskId => (DeadLetterTaskDAO.getTaskById taskId).void
  | .updateTaskPayload payload taskId => (DeadLetterTaskDAO.updateTaskPayload payload taskId).void
  | .deleteTasks taskIds taskName => (DeadLetterTaskDAO.deleteTasks taskIds taskName).void
  | .fetchAndDeleteTasks taskIds taskName =>
    (DeadLetterTaskDAO.fetchAndDeleteTasks taskIds taskName).void
  | .deleteOldTasks days => (DeadLetterTaskDAO.deleteOldTasks days).void
  | .getStatistics => DeadLetterTaskDAO.getStatistics.void

end DeadLetterTaskDAO

namespace PeriodicTaskDAO

inductive Method
  | listTasks
  | listTasksPaginated (limit skip : ℤ) (search : Option String)
  | countTasks (search : Option String)
  | getByIds (taskIds : List String)
  | deleteTasks (taskIds : List String)
  | getTaskById (taskId : String)
  | getTaskByName (name : String)
  | createTask (taskIn : List Arg)
  | updateTask (taskId : String) (taskIn : List Arg)
  | deleteTask (taskId : String)
  deriving DecidableEq, Repr

def Method.program : Method → DaoProgram Unit
  | .listTasks => PeriodicTaskDAO.listTasks.void
  | .listTasksPaginated limit skip search =>
    (PeriodicTaskDAO.listTasksPaginated limit skip search).void
  | .countTasks search => (PeriodicTaskDAO.countTasks search).void
  | .getByIds taskIds => (PeriodicTaskDAO.getByIds taskIds).void
  | .deleteTasks taskIds => (PeriodicTaskDAO.deleteTasks taskIds).void
  | .getTaskById taskId => (PeriodicTaskDAO.getTaskById taskId).void
  | .getTaskByName name => (PeriodicTaskDAO.getTaskByName name).void
  | .createTask taskIn => (PeriodicTaskDAO.createTask taskIn).void
  | .updateTask taskId taskIn => (PeriodicTaskDAO.updateTask taskId taskIn).void
  | .deleteTask taskId => (PeriodicTaskDAO.deleteTask taskId).void

end PeriodicTaskDAO

namespace VersionDAO

inductive Method
  | getVersionInfo (platform : String)
  | getAllVersions
  | listVersions (limit skip : ℤ) (search : Option String)
  | countVersions (search : Option String)
  | getByPlatforms (platforms : List String)
  | createVersion (platform : String) (data : List Arg)
  | deleteVersions (platforms : List String)
  | updateVersionInfo (platform : String) (updateData : List Arg)
  deriving DecidableEq, Repr

def Method.program : Method → DaoProgram Unit
  | .getVersionInfo platform => (VersionDAO.getVersionInfo platform).void
  | .getAllVersions => VersionDAO.getAllVersions.void
  | .listVersions limit skip search => (VersionDAO.listVersions limit skip search).void
  | .countVersions search => (VersionDAO.countVersions search).void
  | .getByPlatforms platforms => (VersionDAO.getByPlatforms platforms).void
  | .createVersion platform data => (VersionDAO.createVersion platform data).void
  | .deleteVersions platforms => (VersionDAO.deleteVersions platforms).void
  | .updateVersionInfo platform updateData =>
    (VersionDAO.updateVersionInfo platform updateData).void

end VersionDAO

namespace ApiKeyDAO

inductive Method
  | createApiKey (keyIn : List Arg)
  | getApiKeyByHash (hashedKey : String)
  | getApiKeyById (keyId : String)
  | listApiKeys (limit : ℤ) (cursor : Option String)
  | updateApiKey (keyId : String) (updateData : List Arg)
  | rotateApiKey (keyId newPrefix newHashedKey : String)
  | updateLastUsed (keyId : String) (ipAddress : Option String)
  | deleteApiKey (keyId : String)
  | deleteApiKeys (keyIds : List String)
  deriving DecidableEq, Repr

def Method.program : Method → DaoProgram Unit
  | .createApiKey keyIn => (ApiKeyDAO.createApiKey keyIn).void
  | .getApiKeyByHash hashedKey => (ApiKeyDAO.getApiKeyByHash hashedKey).void
  | .getApiKeyById keyId => (ApiKeyDAO.getApiKeyById keyId).void
  | .listApiKeys limit cursor => (ApiKeyDAO.listApiKeys limit cursor).void
  | .updateApiKey keyId updateData => (ApiKeyDAO.updateApiKey keyId updateData).void
  | .rotateApiKey keyId newPrefix newHashedKey =>
    (ApiKeyDAO.rotateApiKey keyId newPrefix newHashedKey).void
  | .updateLastUsed keyId ipAddress => (ApiKeyDAO.updateLastUsed keyId ipAddress).void
  | .deleteApiKey keyId => (ApiKeyDAO.deleteApiKey keyId).void
  | .deleteApiKeys keyIds => (ApiKeyDAO.deleteApiKeys keyIds).void

end ApiKeyDAO

namespace WebhookDAO

inductive Method
  | createEndpoint (endpointIn : List Arg)
  | getEndpointById (endpointId : String)
  | listEndpoints (limit : ℤ) (cursor : Option String) (isActive : Option Bool)
  | listActiveEndpointsForEvent (eventName : String)
  | updateEndpoint (endpointId : String) (updateData : List Arg)
  | deleteEndpoint (endpointId : String)
  | deleteEndpoints (endpointIds : List String)
  deriving DecidableEq, Repr

def Method.program : Method → DaoProgram Unit
  | .createEndpoint endpointIn => (WebhookDAO.createEndpoint endpointIn).void
  | .getEndpointById endpointId => (WebhookDAO.getEndpointById endpointId).void
  | .listEndpoints limit cursor isActive => (WebhookDAO.listEndpoints limit cursor isActive).void
  | .listActiveEndpointsForEvent eventName =>
    (WebhookDAO.listActiveEndpointsForEvent eventName).void
  | .updateEndpoint endpointId updateData => (WebhookDAO.updateEndpoint endpointId updateData).void
  | .deleteEndpoint endpointId => (WebhookDAO.deleteEndpoint endpointId).void
  | .deleteEndpoints endpointIds => (WebhookDAO.deleteEndpoints endpointIds).void

end WebhookDAO

inductive DaoMethod
  | user (m : UserDAO.Method)
  | role (m : RoleDAO.Method)
  | deadLetterTask (m : DeadLetterTaskDAO.Method)
  | periodicTask (m : PeriodicTaskDAO.Method)
  | version (m : VersionDAO.Method)
  | apiKey (m : ApiKeyDAO.Method)
  | webhook (m : WebhookDAO.Method)
  deriving DecidableEq, Repr

def DaoMethod.program : DaoMethod → DaoProgram Unit
  | .user m => m.program
  | .role m => m.program
  | .deadLetterTask m => m.program
  | .periodicTask m => m.program
  | .version m => m.program
  | .apiKey m => m.program
  | .webhook m => m.program

end FastapiTemplate.Sql
