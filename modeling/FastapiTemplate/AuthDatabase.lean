import FastapiTemplate.AuthData

/-!
# The SQL statements of the user and role data access objects

One definition for each statement of `api/apps/user/v0/dao`, as a function of
the tables under the constraints and the cascades of `api/migrations`. A
statement that a constraint rejects changes nothing. Columns that no modelled
statement reads are left out.
-/

namespace FastapiTemplate

structure UserRow where
  id : UserId
  username : String
  email : String
  hashedPassword : Option String
  fullName : Option String
  isActive : Bool
  tokenVersion : ℕ := 1
  deriving DecidableEq, Repr

structure IdentityRow where
  userId : UserId
  provider : String
  providerUserId : String
  email : Option String
  emailVerified : Bool
  deriving DecidableEq, Repr

structure RoleRow where
  id : RoleId
  name : String
  description : Option String
  deriving DecidableEq, Repr

instance : LawfulBEq (UserId × RoleId) := inferInstance

structure Database where
  users : List UserRow := []
  userIdentities : List IdentityRow := []
  userSessions : List UserSessionCreate := []
  userTwoFactor : List UserTwoFactorData := []
  roles : List RoleRow := []
  permissions : List PermissionData := []
  rolePermissions : List (RoleId × PermissionId) := []
  userRoles : List (UserId × RoleId) := []
  /-- `enforce_mfa` of the singleton row of `system_configurations`, when the row exists -/
  systemConfigurations : Option Bool := none
  deriving DecidableEq, Repr

inductive UserWhere
  | id (id : UserId)
  | username (username : String)
  | email (email : String)
  | googleSub (sub : String)
  deriving DecidableEq, Repr

namespace Database

variable (db : Database)

/-! ## Reading users and roles -/

def permissionsOf (role : RoleId) : List PermissionData :=
  db.permissions.filter (fun p => (role, p.id) ∈ db.rolePermissions)

def roleData (r : RoleRow) : RoleData := ⟨r.id, r.name, r.description, db.permissionsOf r.id⟩

def rolesOf (user : UserId) : List RoleData :=
  (db.roles.filter (fun r => (user, r.id) ∈ db.userRoles)).map db.roleData

def userData (u : UserRow) : UserData where
  id := u.id
  username := u.username
  email := u.email
  hashedPassword := u.hashedPassword
  fullName := u.fullName
  isActive := u.isActive
  roles := db.rolesOf u.id
  tokenVersion := u.tokenVersion

def matchesUser (w : UserWhere) (u : UserRow) : Bool :=
  match w with
  | .id id => u.id = id
  | .username name => u.username = name
  | .email email => u.email = email
  | .googleSub sub => db.userIdentities.any
      (fun i => i.userId = u.id && i.provider = "google" && i.providerUserId = sub)

def findUser (id : UserId) : Option UserRow := db.users.find? (·.id = id)

/-- `_get_user_with_roles` and `get_by_google_sub`. -/
def selectUser (w : UserWhere) : Option UserData :=
  (db.users.find? (db.matchesUser w)).map db.userData

def selectRole (role : RoleId) : Option RoleData :=
  (db.roles.find? (·.id = role)).map db.roleData

def selectTwoFactor (user : UserId) : Option UserTwoFactorData :=
  db.userTwoFactor.find? (·.userId = user)

/-! ## Users -/

def mapUsers (f : UserRow → UserRow) : Database := { db with users := db.users.map f }

def insertUser (id : UserId) (user : UserCreate) (hashedPassword : Option String) :
    Except DbError UserData × Database :=
  if user.username.length > 50 then (.error (.stringDataRightTruncation "username"), db)
  else if user.email.length > 255 then (.error (.stringDataRightTruncation "email"), db)
  else if (user.fullName.getD "").length > 255 then
    (.error (.stringDataRightTruncation "full_name"), db)
  else if db.users.any (·.username = user.username) then
    (.error (.uniqueViolation "users_username_key"), db)
  else if db.users.any (·.email = user.email) then
    (.error (.uniqueViolation "users_email_key"), db)
  else
    let row : UserRow := {
      id := id, username := user.username, email := user.email
      hashedPassword := hashedPassword, fullName := user.fullName
      isActive := user.isActive }
    (.ok { db.userData row with roles := [] }, { db with users := db.users ++ [row] })

def insertIdentity (user : UserId) (info : GoogleUserInfo) : Except DbError Unit × Database :=
  if (info.email.getD "").length > 255 then (.error (.stringDataRightTruncation "email"), db)
  else if db.users.all (·.id ≠ user) then
    (.error (.foreignKeyViolation "user_identities_user_id_fkey"), db)
  else if db.userIdentities.any (fun i => i.provider = "google" && i.providerUserId = info.sub) then
    (.error (.uniqueViolation "user_identities_provider_uid"), db)
  else if db.userIdentities.any (fun i => i.userId = user && i.provider = "google") then
    (.error (.uniqueViolation "user_identities_user_provider"), db)
  else
    let row : IdentityRow := ⟨user, "google", info.sub, info.email, info.emailVerified⟩
    (.ok (), { db with userIdentities := db.userIdentities ++ [row] })

/-- `UPDATE users SET email = COALESCE(..), username = .., full_name = ..`. -/
def updateUser (user : UserId) (upd : UserUpdate) : Except DbError Unit × Database :=
  if db.users.all (·.id ≠ user) then (.ok (), db)
  else if (upd.username.getD "").length > 50 then
    (.error (.stringDataRightTruncation "username"), db)
  else if (upd.email.getD "").length > 255 then (.error (.stringDataRightTruncation "email"), db)
  else if (upd.fullName.getD "").length > 255 then
    (.error (.stringDataRightTruncation "full_name"), db)
  else if db.users.any (fun u => u.id ≠ user && some u.username = upd.username) then
    (.error (.uniqueViolation "users_username_key"), db)
  else if db.users.any (fun u => u.id ≠ user && some u.email = upd.email) then
    (.error (.uniqueViolation "users_email_key"), db)
  else
    (.ok (), db.mapUsers (fun u => if u.id = user then { u with
      email := upd.email.getD u.email
      username := upd.username.getD u.username
      fullName := upd.fullName.or u.fullName } else u))

def updatePassword (user : UserId) (hashedPassword : String) : Database :=
  db.mapUsers (fun u => if u.id = user then { u with
    hashedPassword := some hashedPassword, tokenVersion := u.tokenVersion + 1 } else u)

def bumpTokenVersion (user : UserId) : Database :=
  db.mapUsers (fun u => if u.id = user then { u with tokenVersion := u.tokenVersion + 1 } else u)

/-- Deletes users; identities, sessions, roles and second factors cascade. -/
def deleteUsers (ids : List UserId) : List UserId × Database :=
  ((db.users.filter (·.id ∈ ids)).map (·.id),
    { db with
      users := db.users.filter (·.id ∉ ids)
      userIdentities := db.userIdentities.filter (·.userId ∉ ids)
      userSessions := db.userSessions.filter (·.userId ∉ ids)
      userTwoFactor := db.userTwoFactor.filter (·.userId ∉ ids)
      userRoles := db.userRoles.filter (·.1 ∉ ids) })

/-! ## Sessions -/

/-- The row that `ON CONFLICT (user_id, user_agent)` meets; a NULL `user_agent` conflicts with
nothing. -/
def sameAgent (new row : UserSessionCreate) : Bool :=
  row.userId = new.userId && row.userAgent.isSome && row.userAgent = new.userAgent

/-- A drawn `jti` is new, so the uniqueness of `jti` rejects nothing. -/
def upsertUserSession (new : UserSessionCreate) : Except DbError Unit × Database :=
  if (new.userAgent.getD "").length > 255 then
    (.error (.stringDataRightTruncation "user_agent"), db)
  else if db.users.all (·.id ≠ new.userId) then
    (.error (.foreignKeyViolation "user_sessions_user_id_fkey"), db)
  else if db.userSessions.any (sameAgent new) then
    (.ok (), { db with userSessions :=
      db.userSessions.map (fun row => if sameAgent new row then new else row) })
  else (.ok (), { db with userSessions := db.userSessions ++ [new] })

/-- `(extract(epoch FROM expires_at) - extract(epoch FROM now()))::integer`: the cast
rounds to the nearest second, halves away from zero. -/
def ttlSeconds (expiresAt now : ℕ) : ℤ :=
  let d : ℤ := (expiresAt : ℤ) - now
  if 0 ≤ d then (2 * d + second) / (2 * second) else -((2 * (-d) + second) / (2 * second))

def deleteSession (user : UserId) (jti : ℕ) (now : ℕ) : Option ℤ × Database :=
  ((db.userSessions.find? (fun r => r.jti = jti && r.userId = user)).map
      (fun r => ttlSeconds r.expiresAt now),
    { db with userSessions := db.userSessions.filter (fun r => ¬(r.jti = jti ∧ r.userId = user)) })

def deleteAllSessions (user : UserId) (now : ℕ) : List (ℕ × ℤ) × Database :=
  ((db.userSessions.filter (·.userId = user)).map (fun r => (r.jti, ttlSeconds r.expiresAt now)),
    { db with userSessions := db.userSessions.filter (·.userId ≠ user) })

/-! ## Roles -/

def insertUserRoles (user : UserId) (roleIds : List RoleId) : Except DbError Unit × Database :=
  if db.users.all (·.id ≠ user) then
    (.error (.foreignKeyViolation "user_roles_user_id_fkey"), db)
  else if roleIds.any (fun r => db.roles.all (·.id ≠ r)) then
    (.error (.foreignKeyViolation "user_roles_role_id_fkey"), db)
  else
    let new := (roleIds.map (fun r => (user, r))).filter (· ∉ db.userRoles)
    (.ok (), { db with userRoles := db.userRoles ++ new.dedup })

def insertRole (id : RoleId) (name : String) (description : Option String) :
    Except DbError RoleId × Database :=
  if name.length > 50 then (.error (.stringDataRightTruncation "name"), db)
  else if db.roles.any (·.name = name) then (.error (.uniqueViolation "roles_name_key"), db)
  else (.ok id, { db with roles := db.roles ++ [⟨id, name, description⟩] })

def updateRoleFields (role : RoleId) (name description : Option String) :
    Except DbError Unit × Database :=
  if db.roles.all (·.id ≠ role) then (.ok (), db)
  else if (name.getD "").length > 50 then (.error (.stringDataRightTruncation "name"), db)
  else if db.roles.any (fun r => r.id ≠ role && some r.name = name) then
    (.error (.uniqueViolation "roles_name_key"), db)
  else
    (.ok (), { db with roles := db.roles.map (fun r => if r.id = role then
      { r with name := name.getD r.name, description := description.or r.description } else r) })

def deleteRolePermissions (role : RoleId) : Database :=
  { db with rolePermissions := db.rolePermissions.filter (·.1 ≠ role) }

/-- `INSERT INTO role_permissions .. SELECT * FROM UNNEST(..)`: one bad pair rejects all. -/
def insertRolePermissions (role : RoleId) (permissionIds : List PermissionId) :
    Except DbError Unit × Database :=
  if db.roles.all (·.id ≠ role) then
    (.error (.foreignKeyViolation "role_permissions_role_id_fkey"), db)
  else if permissionIds.any (fun p => db.permissions.all (·.id ≠ p)) then
    (.error (.foreignKeyViolation "role_permissions_permission_id_fkey"), db)
  else if ¬ permissionIds.Nodup ∨ permissionIds.any (fun p => (role, p) ∈ db.rolePermissions) then
    (.error (.uniqueViolation "role_permissions_pkey"), db)
  else
    (.ok (), { db with rolePermissions :=
      db.rolePermissions ++ permissionIds.map (fun p => (role, p)) })

def bumpRoleHolders (role : RoleId) : Database :=
  db.mapUsers (fun u => if (u.id, role) ∈ db.userRoles then
    { u with tokenVersion := u.tokenVersion + 1 } else u)

/-- `DELETE FROM roles WHERE id = ANY($1) RETURNING id`; permissions and holders cascade. -/
def deleteRoles (ids : List RoleId) : List RoleId × Database :=
  ((db.roles.filter (·.id ∈ ids)).map (·.id),
    { db with
      roles := db.roles.filter (·.id ∉ ids)
      rolePermissions := db.rolePermissions.filter (·.1 ∉ ids)
      userRoles := db.userRoles.filter (·.2 ∉ ids) })

def deleteRoleTransaction (role : RoleId) : Database :=
  ((db.bumpRoleHolders role).deleteRoles [role]).2

/-! ## Second factors -/

def upsertTwoFactor (row : UserTwoFactorData) : Except DbError Unit × Database :=
  if db.users.all (·.id ≠ row.userId) then
    (.error (.foreignKeyViolation "user_two_factor_user_id_fkey"), db)
  else if db.userTwoFactor.any (·.userId = row.userId) then
    (.ok (), { db with userTwoFactor :=
      db.userTwoFactor.map (fun r => if r.userId = row.userId then row else r) })
  else (.ok (), { db with userTwoFactor := db.userTwoFactor ++ [row] })

def disableTwoFactor (user : UserId) : Database :=
  { db with userTwoFactor := db.userTwoFactor.map (fun r => if r.userId = user then
      { r with isEnabled := false, secretEncrypted := "", backupCodes := [] } else r) }

def updateBackupCodes (user : UserId) (codes : List BackupCodeRecord) : Database :=
  { db with userTwoFactor := db.userTwoFactor.map (fun r => if r.userId = user then
      { r with backupCodes := codes } else r) }

/-! ## What the fallible statements can do -/

theorem insertUser_cases (id : UserId) (user : UserCreate) (hash : Option String) :
    (∃ e, db.insertUser id user hash = (.error e, db)) ∨
      ∃ row : UserRow, row.id = id ∧ row.tokenVersion = 1 ∧ row.isActive = user.isActive ∧
        db.insertUser id user hash =
          (.ok { db.userData row with roles := [] }, { db with users := db.users ++ [row] }) := by
  rw [insertUser]
  by_cases hname : user.username.length > 50
  · rw [if_pos hname]
    exact .inl ⟨_, rfl⟩
  rw [if_neg hname]
  by_cases hemail : user.email.length > 255
  · rw [if_pos hemail]
    exact .inl ⟨_, rfl⟩
  rw [if_neg hemail]
  by_cases hfull : (user.fullName.getD "").length > 255
  · rw [if_pos hfull]
    exact .inl ⟨_, rfl⟩
  rw [if_neg hfull]
  by_cases hnames : db.users.any (·.username = user.username) = true
  · rw [if_pos hnames]
    exact .inl ⟨_, rfl⟩
  rw [if_neg hnames]
  by_cases hemails : db.users.any (·.email = user.email) = true
  · rw [if_pos hemails]
    exact .inl ⟨_, rfl⟩
  rw [if_neg hemails]
  exact .inr ⟨_, rfl, rfl, rfl, rfl⟩

theorem insertIdentity_cases (user : UserId) (info : GoogleUserInfo) :
    (∃ e, db.insertIdentity user info = (.error e, db)) ∨
      ∃ rows, db.insertIdentity user info = (.ok (), { db with userIdentities := rows }) := by
  unfold insertIdentity
  split_ifs
  · exact .inl ⟨_, rfl⟩
  · exact .inl ⟨_, rfl⟩
  · exact .inl ⟨_, rfl⟩
  · exact .inl ⟨_, rfl⟩
  · exact .inr ⟨_, rfl⟩

theorem updateUser_cases (user : UserId) (upd : UserUpdate) :
    (db.updateUser user upd).2 = db ∨
      ∃ f : UserRow → UserRow, (∀ u, (f u).id = u.id ∧ (f u).tokenVersion = u.tokenVersion ∧
          (f u).isActive = u.isActive ∧ (f u).hashedPassword = u.hashedPassword) ∧
        db.updateUser user upd = (.ok (), db.mapUsers f) := by
  rw [updateUser]
  by_cases habsent : db.users.all (·.id ≠ user) = true
  · rw [if_pos habsent]
    exact .inl rfl
  rw [if_neg habsent]
  by_cases hname : (upd.username.getD "").length > 50
  · rw [if_pos hname]
    exact .inl rfl
  rw [if_neg hname]
  by_cases hemail : (upd.email.getD "").length > 255
  · rw [if_pos hemail]
    exact .inl rfl
  rw [if_neg hemail]
  by_cases hfull : (upd.fullName.getD "").length > 255
  · rw [if_pos hfull]
    exact .inl rfl
  rw [if_neg hfull]
  by_cases hnames : db.users.any (fun u => u.id ≠ user && some u.username = upd.username) = true
  · rw [if_pos hnames]
    exact .inl rfl
  rw [if_neg hnames]
  by_cases hemails : db.users.any (fun u => u.id ≠ user && some u.email = upd.email) = true
  · rw [if_pos hemails]
    exact .inl rfl
  rw [if_neg hemails]
  refine .inr ⟨_, fun u => ?_, rfl⟩
  by_cases h : u.id = user <;> simp [h]

theorem upsertUserSession_cases (new : UserSessionCreate) :
    (∃ e, db.upsertUserSession new = (.error e, db)) ∨
      ∃ rows, (∀ row ∈ rows, row = new ∨ row ∈ db.userSessions) ∧ new ∈ rows ∧
        db.upsertUserSession new = (.ok (), { db with userSessions := rows }) := by
  unfold upsertUserSession
  split_ifs with hlen huser hany
  · exact .inl ⟨_, rfl⟩
  · exact .inl ⟨_, rfl⟩
  · refine .inr ⟨_, ?_, ?_, rfl⟩
    · intro row hrow
      obtain ⟨old, hold, rfl⟩ := List.mem_map.mp hrow
      by_cases hs : sameAgent new old = true
      · exact .inl (by simp [hs])
      · exact .inr (by simpa [hs] using hold)
    · obtain ⟨old, hold, hs⟩ := List.any_eq_true.mp hany
      exact List.mem_map.mpr ⟨old, hold, if_pos hs⟩
  · refine .inr ⟨_, fun row hrow => ?_, ?_, rfl⟩
    · rcases List.mem_append.mp hrow with hold | hnew
      · exact .inr hold
      · exact .inl (List.mem_singleton.mp hnew)
    · simp

theorem insertUserRoles_cases (user : UserId) (roleIds : List RoleId) :
    (∃ e, db.insertUserRoles user roleIds = (.error e, db)) ∨
      ∃ new, db.insertUserRoles user roleIds =
        (.ok (), { db with userRoles := db.userRoles ++ new }) := by
  unfold insertUserRoles
  split_ifs
  · exact .inl ⟨_, rfl⟩
  · exact .inl ⟨_, rfl⟩
  · exact .inr ⟨_, rfl⟩

theorem insertRole_cases (id : RoleId) (name : String) (description : Option String) :
    (∃ e, db.insertRole id name description = (.error e, db)) ∨
      db.insertRole id name description =
        (.ok id, { db with roles := db.roles ++ [⟨id, name, description⟩] }) := by
  unfold insertRole
  split_ifs
  · exact .inl ⟨_, rfl⟩
  · exact .inl ⟨_, rfl⟩
  · exact .inr rfl

theorem updateRoleFields_cases (role : RoleId) (name description : Option String) :
    (db.updateRoleFields role name description).2 = db ∨
      ∃ f : RoleRow → RoleRow, (∀ r, (f r).id = r.id) ∧
        db.updateRoleFields role name description =
          (.ok (), { db with roles := db.roles.map f }) := by
  unfold updateRoleFields
  split_ifs
  · exact .inl rfl
  · exact .inl rfl
  · exact .inl rfl
  · refine .inr ⟨_, fun r => ?_, rfl⟩
    by_cases h : r.id = role <;> simp [h]

theorem insertRolePermissions_cases (role : RoleId) (permissionIds : List PermissionId) :
    (∃ e, db.insertRolePermissions role permissionIds = (.error e, db)) ∨
      db.insertRolePermissions role permissionIds = (.ok (), { db with
        rolePermissions := db.rolePermissions ++ permissionIds.map (fun p => (role, p)) }) := by
  unfold insertRolePermissions
  split_ifs
  · exact .inl ⟨_, rfl⟩
  · exact .inl ⟨_, rfl⟩
  · exact .inl ⟨_, rfl⟩
  · exact .inr rfl

theorem upsertTwoFactor_cases (row : UserTwoFactorData) :
    (∃ e, db.upsertTwoFactor row = (.error e, db)) ∨
      ∃ rows, (∃ u ∈ db.users, u.id = row.userId) ∧
        (∀ r ∈ rows, r = row ∨ r ∈ db.userTwoFactor) ∧
        db.upsertTwoFactor row = (.ok (), { db with userTwoFactor := rows }) := by
  unfold upsertTwoFactor
  split_ifs with huser hany
  · exact .inl ⟨_, rfl⟩
  · refine .inr ⟨_, by simpa using huser, fun r hr => ?_, rfl⟩
    obtain ⟨old, hold, rfl⟩ := List.mem_map.mp hr
    by_cases hs : old.userId = row.userId
    · exact .inl (if_pos hs)
    · exact .inr (by simpa [hs] using hold)
  · refine .inr ⟨_, by simpa using huser, fun r hr => ?_, rfl⟩
    rcases List.mem_append.mp hr with hold | hnew
    · exact .inr hold
    · exact .inl (List.mem_singleton.mp hnew)

end Database
end FastapiTemplate
