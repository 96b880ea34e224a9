import FastapiTemplate.DatabaseHelpers
import FastapiTemplate.GatheredPrograms
import FastapiTemplate.UnreliableStatements
import FastapiTemplate.UserAdmin

/-!
# Writes of several statements

The methods of `RoleDAO`, `UserDAO` and `UserAdminView` that make more than one statement,
with the attempts of every statement. A helper of the database layer commits its
statement by itself, so what an earlier statement has done stays when a later one fails; only
`delete_role` opens a transaction.
-/

namespace FastapiTemplate.AccountWrites

/-! ## Tables and statements -/

/-- The tables, with what they hold beside the rows of `Database`. A trigger sets `updated_at` of
every user that an `UPDATE` meets, and so does the text of the one `UPDATE` of roles. -/
structure Tables where
  db : Database
  /-- how often `updated_at` of the user has been set -/
  userUpdates : UserId → ℕ := fun _ => 0
  /-- how often `updated_at` of the role has been set -/
  roleUpdates : RoleId → ℕ := fun _ => 0
  /-- the next identifier that `uuid_generate_v7` draws -/
  nextId : ℕ

inductive Statement
  | insertRole (name : String) (description : Option String)
  | insertRolePermissions (role : RoleId) (permissionIds : List PermissionId)
  | updateRoleFields (role : RoleId) (name description : Option String)
  | deleteRolePermissions (role : RoleId)
  | bumpRoleHolders (role : RoleId)
  | deleteRole (role : RoleId)
  | selectRole (role : RoleId)
  | insertUser (user : UserCreate) (hashedPassword : Option String)
  | insertIdentity (user : UserId) (info : GoogleUserInfo)
  | insertUserRoles (user : UserId) (roleIds : List RoleId)
  | bumpTokenVersion (user : UserId)
  | updateUser (user : UserId) (upd : UserUpdate)
  | updateFlags (user : UserId) (isActive isSuperuser : Option Bool)
  | selectUser (user : UserId)
  deriving DecidableEq, Repr

@[reducible] def Statement.Value : Statement → Type
  | .insertRole .. => RoleId
  | .selectRole _ => Option RoleData
  | .insertUser .. => UserData
  | .selectUser _ => Option UserData
  | _ => Unit

namespace Tables

variable (t : Tables)

def setDb (db : Database) : Tables := { t with db := db }

def touchUsers (p : UserId → Bool) (db : Database) : Tables :=
  { t with db := db, userUpdates := fun u => if p u then t.userUpdates u + 1 else t.userUpdates u }

def touchRole (role : RoleId) (db : Database) : Tables :=
  { t with
    db := db
    roleUpdates := fun r => if r = role then t.roleUpdates r + 1 else t.roleUpdates r }

def drawn (db : Database) : Tables := { t with db := db, nextId := t.nextId + 1 }

/-- A statement that a constraint rejects changes nothing. -/
def accept {α : Type} (r : Except DbError α × Database) (accepted : Database → Tables) :
    Except DbError α × Tables :=
  match r with
  | (.ok a, db) => (.ok a, accepted db)
  | (.error e, _) => (.error e, t)

end Tables

/-- The statements on the primary; the read pool answers from a replica if there is one, and else
from the primary. -/
def run (replica : Option Database) : (s : Statement) → Tables → Except DbError s.Value × Tables
  | .insertRole name description, t =>
    t.accept (t.db.insertRole t.nextId name description) t.drawn
  | .insertRolePermissions role permissionIds, t =>
    t.accept (t.db.insertRolePermissions role permissionIds) t.setDb
  | .updateRoleFields role name description, t =>
    t.accept (t.db.updateRoleFields role name description) (t.touchRole role)
  | .deleteRolePermissions role, t => (.ok (), t.setDb (t.db.deleteRolePermissions role))
  | .bumpRoleHolders role, t =>
    (.ok (), t.touchUsers (fun u => (u, role) ∈ t.db.userRoles) (t.db.bumpRoleHolders role))
  | .deleteRole role, t => (.ok (), t.setDb (t.db.deleteRoles [role]).2)
  | .selectRole role, t => (.ok ((replica.getD t.db).selectRole role), t)
  | .insertUser user hash, t => t.accept (t.db.insertUser t.nextId user hash) t.drawn
  | .insertIdentity user info, t => t.accept (t.db.insertIdentity user info) t.setDb
  | .insertUserRoles user roleIds, t => t.accept (t.db.insertUserRoles user roleIds) t.setDb
  | .bumpTokenVersion user, t =>
    (.ok (), t.touchUsers (· = user) (t.db.bumpTokenVersion user))
  | .updateUser user upd, t => t.accept (t.db.updateUser user upd) (t.touchUsers (· = user))
  -- no migration creates the column `is_superuser`
  | .updateFlags .., t => (.error (.undefinedColumn "is_superuser"), t)
  | .selectUser user, t => (.ok ((replica.getD t.db).selectUser (.id user)), t)

/-! ## The operations -/

abbrev Write (α : Type) := StatementProgram Statement.Value DbError Sql.DbError α

/-- `write`, `execute` and `fetch` of the database layer, which make at most three attempts. -/
def ask (s : Statement) : Write s.Value := statement Sql.DbError.retried s 2 0

namespace RoleDAO

def getRoleById (role : RoleId) : Write (Option RoleData) := ask (.selectRole role)

def insertPermissions (role : RoleId) (permissionIds : List PermissionId) : Write Unit :=
  if permissionIds = [] then pure () else ask (.insertRolePermissions role permissionIds)

def orNotFetched : Option RoleData → Write RoleData
  | none => .raise (.value "Failed to fetch created role")
  | some data => pure data

def createRole (roleCreate : RoleCreate) : Write RoleData := do
  let role ← ask (.insertRole roleCreate.name roleCreate.description)
  insertPermissions role roleCreate.permissionIds
  orNotFetched (← getRoleById role)

def updateFields (role : RoleId) (upd : RoleUpdate) : Write Unit :=
  if upd.name.isNone ∧ upd.description.isNone then pure ()
  else ask (.updateRoleFields role upd.name upd.description)

def replacePermissions (role : RoleId) : Option (List PermissionId) → Write Unit
  | none => pure ()
  | some permissionIds => do
    ask (.deleteRolePermissions role)
    insertPermissions role permissionIds

def updateRole (role : RoleId) (upd : RoleUpdate) : Write (Option RoleData) := do
  updateFields role upd
  replacePermissions role upd.permissionIds
  ask (.bumpRoleHolders role)
  getRoleById role

/-- The one operation in a transaction; its `UPDATE` meets the users that hold the role. -/
def deleteRole (role : RoleId) : Write Unit := transaction [.bumpRoleHolders role, .deleteRole role]

end RoleDAO

namespace UserDAO

def getById (user : UserId) : Write (Option UserData) := ask (.selectUser user)

def createUser (user : UserCreate) (hashedPassword : Option String) : Write UserData :=
  ask (.insertUser user hashedPassword)

def createUserOauth (user : UserCreate) (info : GoogleUserInfo) : Write UserData := do
  let created ← createUser user none
  ask (.insertIdentity created.id info)
  pure created

def updateUser (user : UserId) (upd : UserUpdate) : Write (Option UserData) := do
  ask (.updateUser user upd)
  getById user

/-- `asyncio.gather` of two statements in the order of the schedule; both run to their end even
if one fails. The event for a user that is found is published without a statement. -/
def assignRoles (user : UserId) (roleIds : List RoleId) (schedule : List Bool) : Write Unit :=
  if roleIds = [] then pure ()
  else do
    let _ ← Program.gather schedule (ask (.insertUserRoles user roleIds))
      (ask (.bumpTokenVersion user))
    let _ ← getById user
    pure ()

end UserDAO

namespace UserAdminView

def orNotFound (pk : UserId) : Option UserData → Write UserData
  | none => .raise (.value ("User with ID " ++ toString pk ++ " not found"))
  | some user => pure user

/-- `UserUpdate(full_name=.., email=.., username=..)`: the schema validates `email`. -/
def formUpdate [External] (form : UserAdminView.UserForm) : Write UserUpdate :=
  if form.email.any (fun email => ¬ External.emailValid email) then
    .raise (.value "value is not a valid email address")
  else pure { fullName := form.fullName, email := form.email, username := form.username }

/-- The flags are written by a statement of the view itself. -/
def updateFlags (pk : UserId) (form : UserAdminView.UserForm) (user : UserData) : Write UserData :=
  if form.isActive.isSome ∨ form.isSuperuser.isSome then do
    ask (.updateFlags pk form.isActive form.isSuperuser)
    orNotFound pk (← UserDAO.getById pk)
  else pure user

def edit [External] (pk : UserId) (form : UserAdminView.UserForm) : Write UserData := do
  let userUpdate ← formUpdate form
  let user ← orNotFound pk (← UserDAO.updateUser pk userUpdate)
  updateFlags pk form user

end UserAdminView
end FastapiTemplate.AccountWrites
