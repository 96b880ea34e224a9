import FastapiTemplate.DatabaseHelpers

/-!
# The statements of the user and role data access objects

The methods of `UserDAO` and `RoleDAO` as calls of the database helpers, with every
statement they run. Identifiers stand as their text and JSON values as the text they are
dumped to. The cache decorators, which run a method or not, and published events are
left out.
-/

namespace FastapiTemplate.Sql

/-! ## The helpers as the methods call them -/

namespace Dao

def call (c : HelperCall) : DaoProgram c.Result := do
  match ← (Program.perform c : DaoProgram c.Answer) with
  | .ok r => pure r
  | .error e => .raise e

def fetch (q : Query) : DaoProgram (List Row) := call (.fetch q false)

def fetchRow (q : Query) : DaoProgram (Option Row) := do
  let rows ← call (.fetch q true)
  pure rows.head?

def write (q : Query) : DaoProgram (Option Row) := call (.write q)

def fetchval (q : Query) : DaoProgram (Option Arg) := call (.fetchval q)

def execute (q : Query) : DaoProgram String := call (.execute q)

def transaction (qs : List Query) : DaoProgram Unit := call (.transaction qs)

/-- `asyncio.gather` of two statements: both run, then the first error is raised. -/
def gather (q q' : Query) : DaoProgram Unit := do
  let first ← (Program.perform (HelperCall.execute q) : DaoProgram (Except DbError String))
  let second ← (Program.perform (HelperCall.execute q') : DaoProgram (Except DbError String))
  match first, second with
  | .error e, _ => .raise e
  | _, .error e => .raise e
  | .ok _, .ok _ => pure ()

end Dao

def Arg.truthy : Arg → Bool
  | .null => false
  | .bool b => b
  | .int n => n ≠ 0
  | .text s => s ≠ ""
  | .texts ss => ss ≠ []

def Arg.ofOption (a : Option Arg) : Arg := a.getD .null

def isSpace (c : Char) : Bool :=
  c.toNat ∈ [9, 10, 11, 12, 13, 28, 29, 30, 31, 32, 133, 160, 5760, 8192, 8193, 8194, 8195, 8196,
    8197, 8198, 8199, 8200, 8201, 8202, 8232, 8233, 8239, 8287, 12288]

def strip (s : String) : String :=
  String.ofList ((s.toList.dropWhile isSpace).reverse.dropWhile isSpace).reverse

def searchPattern (search : Option String) : Option Arg :=
  match search with
  | none => none
  | some s => if strip s = "" then none else some (.text ("%" ++ strip s ++ "%"))

/-- `record[name]` as a number, `0` without a record. -/
def countOf (record : Option Row) (name : String) : ℤ :=
  match record.bind (·.column name) with
  | some (.int n) => n
  | _ => 0

/-- `record.id`, which is an `AttributeError` without a record. -/
def idOf (record : Option Row) : DaoProgram String :=
  match record.bind (·.column "id") with
  | some (.text id) => .pure id
  | _ => .raise .attribute

/-! ## Users -/

namespace UserDAO

structure UserCreate where
  username : Arg
  email : Arg
  fullName : Arg
  isActive : Arg
  deriving DecidableEq, Repr

structure UserInfo where
  sub : Arg
  email : Arg
  emailVerified : Arg
  profile : Arg
  deriving DecidableEq, Repr

structure UserUpdate where
  email : Arg
  username : Arg
  fullName : Arg
  deriving DecidableEq, Repr

def rolesColumn : String :=
  "COALESCE(json_agg(json_build_object('id', r.id, 'name', r.name, 'description', " ++
  "r.description, 'created_at', r.created_at, 'updated_at', r.updated_at, 'permissions', " ++
  "(SELECT COALESCE(json_agg(json_build_object('id', p.id, 'name', p.name, 'description', " ++
  "p.description, 'created_at', p.created_at)), '[]') FROM role_permissions rp JOIN permissions p " ++
  "ON rp.permission_id = p.id WHERE rp.role_id = r.id))) FILTER (WHERE r.id IS NOT NULL), '[]') " ++
  "as roles"

def baseQuery : String :=
  "u.*, " ++ rolesColumn ++ " FROM users u LEFT JOIN user_roles ur ON u.id = ur.user_id " ++
  "LEFT JOIN roles r ON ur.role_id = r.id"

def getUserWithRoles (whereClause : String) (args : List Arg) : DaoProgram (Option Row) :=
  Dao.fetchRow ⟨.select, .users, baseQuery ++ " WHERE " ++ whereClause ++ " GROUP BY u.id;", args⟩

def getAllPaginated (limit skip : ℤ) (search : Option String) : DaoProgram (List Row) :=
  match searchPattern search with
  | some pattern => Dao.fetch ⟨.select, .users, baseQuery ++
      " WHERE (u.username ILIKE $1 OR u.email ILIKE $1 OR u.full_name ILIKE $1)" ++
      " GROUP BY u.id ORDER BY u.created_at DESC LIMIT $2 OFFSET $3;",
      [pattern, .int limit, .int skip]⟩
  | none => Dao.fetch ⟨.select, .users,
      baseQuery ++ " GROUP BY u.id ORDER BY u.created_at DESC LIMIT $1 OFFSET $2;",
      [.int limit, .int skip]⟩

def countUsers (search : Option String) : DaoProgram ℤ := do
  let record ← match searchPattern search with
    | some pattern => Dao.fetchRow ⟨.select, .users, "COUNT(*) as cnt FROM users WHERE " ++
        "(username ILIKE $1 OR email ILIKE $1 OR full_name ILIKE $1);", [pattern]⟩
    | none => Dao.fetchRow ⟨.select, .users, "COUNT(*) as cnt FROM users;", []⟩
  pure (countOf record "cnt")

def deleteUsers (userIds : List String) : DaoProgram ℕ := do
  if userIds = [] then pure 0
  else
    let rows ← Dao.fetch ⟨.delete, .users, "WHERE id = ANY($1::uuid[]) RETURNING id;",
      [.texts userIds]⟩
    pure rows.length

def getByIds (pks : List String) : DaoProgram (List Row) := do
  if pks = [] then pure []
  else Dao.fetch ⟨.select, .users, baseQuery ++ " WHERE u.id = ANY($1::uuid[]) GROUP BY u.id;",
    [.texts pks]⟩

def getByGoogleSub (sub : String) : DaoProgram (Option Row) :=
  Dao.fetchRow ⟨.select, .users, "u.*, " ++ rolesColumn ++
    " FROM users u JOIN user_identities i ON u.id = i.user_id " ++
    "LEFT JOIN user_roles ur ON u.id = ur.user_id LEFT JOIN roles r ON ur.role_id = r.id " ++
    "WHERE i.provider = 'google' AND i.provider_user_id = $1 GROUP BY u.id;", [.text sub]⟩

def createUser (userData : UserCreate) (hashedPassword : Arg) : DaoProgram (Option Row) :=
  Dao.write ⟨.insert, .users, "(username, email, hashed_password, full_name, is_active) " ++
    "VALUES ($1, $2, $3, $4, $5) RETURNING *",
    [userData.username, userData.email, hashedPassword, userData.fullName, userData.isActive]⟩

def insertIdentity (userId : String) (userInfo : UserInfo) : Query where
  verb := .insert
  table := .userIdentities
  clause := "(user_id, provider, provider_user_id, email, email_verified, profile) " ++
    "VALUES ($1, $2, $3, $4, $5, $6)"
  args := [.text userId, .text "google", userInfo.sub, userInfo.email, userInfo.emailVerified,
    userInfo.profile]

def createUserOauth (userData : UserCreate) (userInfo : UserInfo) : DaoProgram (Option Row) := do
  let user ← createUser userData .null
  let userId ← idOf user
  let _ ← Dao.execute (insertIdentity userId userInfo)
  pure user

def getByUsername (username : String) : DaoProgram (Option Row) :=
  getUserWithRoles "u.username = $1" [.text username]

def getById (userId : String) : DaoProgram (Option Row) :=
  getUserWithRoles "u.id = $1" [.text userId]

def getByEmail (email : String) : DaoProgram (Option Row) :=
  getUserWithRoles "u.email = $1" [.text email]

def addIdentity (userId : String) (userInfo : UserInfo) : DaoProgram Unit := do
  let _ ← Dao.execute (insertIdentity userId userInfo)

/-- The bound values are those of the session: jti, user, instants, address and agent. -/
def upsertUserSession (sessionData : List Arg) : DaoProgram Unit := do
  let _ ← Dao.write ⟨.insert, .userSessions,
    "(jti, user_id, issued_at, expires_at, ip_address, user_agent) " ++
    "VALUES ($1, $2, $3, $4, $5, $6) ON CONFLICT (user_id, user_agent) DO UPDATE SET jti = $1, " ++
    "user_id = $2, issued_at = $3, expires_at = $4, ip_address = $5, updated_at = NOW();",
    sessionData⟩

def updateUser (userId : String) (userUpdate : UserUpdate) : DaoProgram (Option Row) := do
  let _ ← Dao.execute ⟨.update, .users, "SET email = COALESCE($1, email), " ++
    "username = COALESCE($2, username), full_name = COALESCE($3, full_name) WHERE id = $4",
    [userUpdate.email, userUpdate.username, userUpdate.fullName, .text userId]⟩
  getById userId

def updatePassword (userId : String) (hashedPassword : String) : DaoProgram Unit := do
  let _ ← Dao.execute ⟨.update, .users,
    "SET hashed_password = $1, token_version = token_version + 1 WHERE id = $2",
    [.text hashedPassword, .text userId]⟩

def sessionTtl : String :=
  "(extract(epoch FROM expires_at) - extract(epoch FROM now()))::integer AS ttl;"

def revokeUserSession (currentUserId : String) (jti : String) : DaoProgram (Option Arg) := do
  let row ← Dao.fetchval ⟨.delete, .userSessions,
    "WHERE jti = $1 AND user_id = $2 RETURNING " ++ sessionTtl, [.text jti, .text currentUserId]⟩
  pure (row.filter Arg.truthy)

def revokeAllUserSessions (currentUserId : String) : DaoProgram (List Row) :=
  Dao.fetch ⟨.delete, .userSessions, "WHERE user_id = $1 RETURNING jti, " ++ sessionTtl,
    [.text currentUserId]⟩

def getUserSessions (userId : String) (limit : ℤ) (cursor : Option String) :
    DaoProgram (List Row) :=
  match cursor with
  | some cursor => Dao.fetch ⟨.select, .userSessions,
      "* FROM user_sessions WHERE user_id = $1 AND id < $2 ORDER BY id DESC LIMIT $3",
      [.text userId, .text cursor, .int limit]⟩
  | none => Dao.fetch ⟨.select, .userSessions,
      "* FROM user_sessions WHERE user_id = $1 ORDER BY id DESC LIMIT $2",
      [.text userId, .int limit]⟩

def assignRoles (userId : String) (roleIds : List String) : DaoProgram Unit := do
  if roleIds = [] then pure ()
  else
    Dao.gather
      ⟨.insert, .userRoles, "(user_id, role_id) SELECT * FROM UNNEST($1::uuid[], $2::uuid[]) " ++
        "ON CONFLICT DO NOTHING", [.texts (roleIds.map (fun _ => userId)), .texts roleIds]⟩
      ⟨.update, .users, "SET token_version = token_version + 1 WHERE id = $1", [.text userId]⟩
    let _ ← getById userId

def getTwoFactor (userId : String) : DaoProgram (Option Row) :=
  Dao.fetchRow ⟨.select, .userTwoFactor, "* FROM user_two_factor WHERE user_id = $1",
    [.text userId]⟩

def upsertTwoFactor (userId secretEncrypted backupCodes : String) (isEnabled : Bool) :
    DaoProgram Unit := do
  let _ ← Dao.execute ⟨.insert, .userTwoFactor,
    "(user_id, secret_encrypted, backup_codes, is_enabled) VALUES ($1, $2, $3::jsonb, $4) " ++
    "ON CONFLICT (user_id) DO UPDATE SET secret_encrypted = EXCLUDED.secret_encrypted, " ++
    "backup_codes = EXCLUDED.backup_codes, is_enabled = EXCLUDED.is_enabled",
    [.text userId, .text secretEncrypted, .text backupCodes, .bool isEnabled]⟩

def disableTwoFactor (userId : String) : DaoProgram Unit := do
  let _ ← Dao.execute ⟨.update, .userTwoFactor, "SET is_enabled = FALSE, secret_encrypted = '', " ++
    "backup_codes = '[]'::jsonb WHERE user_id = $1", [.text userId]⟩

def updateTwoFactorBackupCodes (userId backupCodes : String) : DaoProgram Unit := do
  let _ ← Dao.execute ⟨.update, .userTwoFactor, "SET backup_codes = $2::jsonb WHERE user_id = $1",
    [.text userId, .text backupCodes]⟩

end UserDAO

/-! ## Roles -/

namespace RoleDAO

structure RoleCreate where
  name : Arg
  description : Arg
  permissionIds : List String
  deriving DecidableEq, Repr

structure RoleUpdate where
  name : Option Arg
  description : Option Arg
  permissionIds : Option (List String)
  deriving DecidableEq, Repr

def baseQuery : String :=
  "r.id, r.name, r.description, r.created_at, r.updated_at, " ++
  "COALESCE(json_agg(json_build_object('id', p.id, 'name', p.name, 'description', p.description, " ++
  "'created_at', p.created_at)) FILTER (WHERE p.id IS NOT NULL), '[]') as permissions " ++
  "FROM roles r LEFT JOIN role_permissions rp ON r.id = rp.role_id " ++
  "LEFT JOIN permissions p ON rp.permission_id = p.id"

def getAllRoles (limit : ℤ) (cursor : Option String) : DaoProgram (List Row) :=
  match cursor with
  | some cursor => Dao.fetch ⟨.select, .roles,
      baseQuery ++ " WHERE r.id < $1 GROUP BY r.id ORDER BY r.id DESC LIMIT $2;",
      [.text cursor, .int limit]⟩
  | none => Dao.fetch ⟨.select, .roles, baseQuery ++ " GROUP BY r.id ORDER BY r.id DESC LIMIT $1;",
      [.int limit]⟩

def getRolesPaginated (limit skip : ℤ) (search : Option String) : DaoProgram (List Row) :=
  match searchPattern search with
  | some pattern => Dao.fetch ⟨.select, .roles, baseQuery ++
      " WHERE (r.name ILIKE $1 OR r.description ILIKE $1) " ++
      "GROUP BY r.id ORDER BY r.created_at DESC LIMIT $2 OFFSET $3;",
      [pattern, .int limit, .int skip]⟩
  | none => Dao.fetch ⟨.select, .roles,
      baseQuery ++ " GROUP BY r.id ORDER BY r.created_at DESC LIMIT $1 OFFSET $2;",
      [.int limit, .int skip]⟩

def countRoles (search : Option String) : DaoProgram ℤ := do
  let record ← match searchPattern search with
    | some pattern => Dao.fetchRow ⟨.select, .roles,
        "COUNT(*) as cnt FROM roles WHERE (name ILIKE $1 OR description ILIKE $1);", [pattern]⟩
    | none => Dao.fetchRow ⟨.select, .roles, "COUNT(*) as cnt FROM roles;", []⟩
  pure (countOf record "cnt")

def deleteRoles (roleIds : List String) : DaoProgram ℕ := do
  if roleIds = [] then pure 0
  else
    let rows ← Dao.fetch ⟨.delete, .roles, "WHERE id = ANY($1::uuid[]) RETURNING id;",
      [.texts roleIds]⟩
    pure rows.length

def getRoleById (roleId : String) : DaoProgram (Option Row) :=
  Dao.fetchRow ⟨.select, .roles, baseQuery ++ " WHERE r.id = $1 GROUP BY r.id;", [.text roleId]⟩

def getByIds (pks : List String) : DaoProgram (List Row) := do
  if pks = [] then pure []
  else Dao.fetch ⟨.select, .roles,
    baseQuery ++ " WHERE r.id = ANY($1::uuid[]) GROUP BY r.id ORDER BY r.created_at DESC;",
    [.texts pks]⟩

def getRoleByName (name : String) : DaoProgram (Option Row) :=
  Dao.fetchRow ⟨.select, .roles, baseQuery ++ " WHERE r.name = $1 GROUP BY r.id;", [.text name]⟩

def insertPermissions (roleId : String) (permissionIds : List String) : Query where
  verb := .insert
  table := .rolePermissions
  clause := "(role_id, permission_id) SELECT * FROM UNNEST($1::uuid[], $2::uuid[])"
  args := [.texts (permissionIds.map (fun _ => roleId)), .texts permissionIds]

def createRole (roleCreate : RoleCreate) : DaoProgram Row := do
  let record ← Dao.write ⟨.insert, .roles, "(name, description) VALUES ($1, $2) RETURNING *",
    [roleCreate.name, roleCreate.description]⟩
  let roleId ← idOf record
  if roleCreate.permissionIds ≠ [] then
    let _ ← Dao.execute (insertPermissions roleId roleCreate.permissionIds)
  match ← getRoleById roleId with
  | none => .raise (.value "Failed to fetch created role")
  | some role => pure role

def updateRole (roleId : String) (roleUpdate : RoleUpdate) : DaoProgram (Option Row) := do
  if roleUpdate.name ≠ none ∨ roleUpdate.description ≠ none then
    let _ ← Dao.write ⟨.update, .roles, "SET name = COALESCE($1, name), " ++
      "description = COALESCE($2, description), updated_at = NOW() WHERE id = $3 RETURNING *",
      [Arg.ofOption roleUpdate.name, Arg.ofOption roleUpdate.description, .text roleId]⟩
  match roleUpdate.permissionIds with
  | none => pure ()
  | some permissionIds => do
    let _ ← Dao.execute ⟨.delete, .rolePermissions, "WHERE role_id = $1", [.text roleId]⟩
    if permissionIds ≠ [] then
      let _ ← Dao.execute (insertPermissions roleId permissionIds)
  let _ ← Dao.execute ⟨.update, .users, "u SET token_version = u.token_version + 1 " ++
    "FROM user_roles ur WHERE u.id = ur.user_id AND ur.role_id = $1", [.text roleId]⟩
  getRoleById roleId

def deleteRole (roleId : String) : DaoProgram Unit :=
  Dao.transaction [
    ⟨.update, .users, "SET token_version = token_version + 1 " ++
      "WHERE id IN (SELECT user_id FROM user_roles WHERE role_id = $1)", [.text roleId]⟩,
    ⟨.delete, .roles, "WHERE id = $1", [.text roleId]⟩]

def getAllPermissions (limit : ℤ) (cursor : Option String) : DaoProgram (List Row) :=
  match cursor with
  | some cursor => Dao.fetch ⟨.select, .permissions,
      "* FROM permissions WHERE id < $1 ORDER BY id DESC LIMIT $2", [.text cursor, .int limit]⟩
  | none => Dao.fetch ⟨.select, .permissions, "* FROM permissions ORDER BY id DESC LIMIT $1",
      [.int limit]⟩

end RoleDAO
end FastapiTemplate.Sql
