import FastapiTemplate.Totp

/-!
# User, role and system configuration data access objects

The methods of `UserDAO`, `RoleDAO` and `SystemConfigDAO` as sequences of
statements. The `cache` and `cache_invalidate` decorators are modelled where
a cached value is read by the subsystem, which is the system configuration.
Published events and log lines are left out: nothing here reads them.
-/

namespace FastapiTemplate

namespace UserDAO

def getByUsername (username : String) : App (Option UserData) := App.ask (.selectUser (.username username))

def getById (user : UserId) : App (Option UserData) := App.ask (.selectUser (.id user))

def getByEmail (email : String) : App (Option UserData) := App.ask (.selectUser (.email email))

def getByGoogleSub (sub : String) : App (Option UserData) := App.ask (.selectUser (.googleSub sub))

def createUser (user : UserCreate) (hashedPassword : Option String) : App UserData := do
  App.ofDb (← App.ask (.insertUser user hashedPassword))

def addIdentity (user : UserId) (info : GoogleUserInfo) : App Unit := do
  App.ofDb (← App.ask (.insertIdentity user info))

def createUserOauth (user : UserCreate) (info : GoogleUserInfo) : App UserData := do
  let created ← createUser user none
  addIdentity created.id info
  pure created

def deleteUsers (ids : List UserId) : App ℕ := do
  if ids = [] then pure 0
  else
    let rows ← App.ask (.deleteUsers ids)
    pure rows.length

def upsertUserSession (data : UserSessionCreate) : App Unit := do
  App.ofDb (← App.ask (.upsertUserSession data))

def updateUser (user : UserId) (upd : UserUpdate) : App (Option UserData) := do
  App.ofDb (← App.ask (.updateUser user upd))
  getById user

def updatePassword (user : UserId) (hashedPassword : String) : App Unit :=
  App.ask (.updatePassword user hashedPassword)

/-- `if not row: return None`: a rounded ttl of zero counts as no row. -/
def revokeUserSession (user : UserId) (jti : ℕ) : App (Option ℤ) := do
  match ← App.ask (.deleteSession user jti) with
  | none => pure none
  | some ttl => pure (if ttl = 0 then none else some ttl)

def revokeAllUserSessions (user : UserId) : App (List (ℕ × ℤ)) := App.ask (.deleteAllSessions user)

/-- `asyncio.gather` of two statements: both run, then the first error is raised. -/
def assignRoles (user : UserId) (roleIds : List RoleId) : App Unit := do
  if roleIds = [] then pure ()
  else
    let inserted ← App.ask (.insertUserRoles user roleIds)
    App.ask (.bumpTokenVersion user)
    App.ofDb inserted

def getTwoFactor (user : UserId) : App (Option UserTwoFactorData) := App.ask (.selectTwoFactor user)

def upsertTwoFactor (user : UserId) (secretEncrypted : String) (backupCodes : List BackupCodeRecord)
    (isEnabled : Bool) : App Unit := do
  App.ofDb (← App.ask (.upsertTwoFactor ⟨user, isEnabled, secretEncrypted, backupCodes⟩))

def disableTwoFactor (user : UserId) : App Unit := App.ask (.disableTwoFactor user)

def updateTwoFactorBackupCodes (user : UserId) (backupCodes : List BackupCodeRecord) : App Unit :=
  App.ask (.updateBackupCodes user backupCodes)

end UserDAO

namespace RoleDAO

def getRoleById (role : RoleId) : App (Option RoleData) := App.ask (.selectRole role)

def insertPermissions (role : RoleId) (permissionIds : List PermissionId) : App Unit :=
  if permissionIds = [] then pure ()
  else do App.ofDb (← App.ask (.insertRolePermissions role permissionIds))

def createRole (roleCreate : RoleCreate) : App RoleData := do
  let role ← App.ofDb (← App.ask (.insertRole roleCreate.name roleCreate.description))
  insertPermissions role roleCreate.permissionIds
  match ← getRoleById role with
  | none => App.raise (.value "Failed to fetch created role")
  | some data => pure data

def updateFields (role : RoleId) (upd : RoleUpdate) : App Unit :=
  if upd.name.isNone ∧ upd.description.isNone then pure ()
  else do App.ofDb (← App.ask (.updateRoleFields role upd.name upd.description))

def replacePermissions (role : RoleId) : Option (List PermissionId) → App Unit
  | none => pure ()
  | some permissionIds => do
    App.ask (.deleteRolePermissions role)
    insertPermissions role permissionIds

/-- The parts of `update_role` are separate statements: an error in one leaves the earlier ones in
place and the later ones undone. -/
def updateRole (role : RoleId) (upd : RoleUpdate) : App (Option RoleData) := do
  updateFields role upd
  replacePermissions role upd.permissionIds
  App.ask (.bumpRoleHolders role)
  getRoleById role

def deleteRole (role : RoleId) : App Unit := App.ask (.deleteRoleTransaction role)

/-- The bulk deletion of the admin view; it does not touch `token_version`. -/
def deleteRoles (ids : List RoleId) : App ℕ := do
  if ids = [] then pure 0
  else
    let rows ← App.ask (.deleteRoles ids)
    pure rows.length

end RoleDAO

namespace SystemConfigDAO

/-- The undecorated `get_config`. -/
def fetchConfig : App Bool := do
  match ← App.ask .selectSystemConfig with
  | some enforceMfa => pure enforceMfa
  | none => App.ask .seedSystemConfig

/-- `get_config` under `@cache(expire=86400)`. -/
def getConfig : App Bool := do
  match ← Redis.get .systemConfigCache with
  | some (.enforceMfa b) => pure b
  | _ =>
    let b ← fetchConfig
    Redis.set .systemConfigCache (.enforceMfa b) 86400
    pure b

/-- `update_config` under `@cache_invalidate`. -/
def updateConfig (enforceMfa : Option Bool) : App (Option Bool) := do
  let res ← App.ask (.updateSystemConfig enforceMfa)
  Redis.delete .systemConfigCache
  pure res

end SystemConfigDAO
end FastapiTemplate
