import FastapiTemplate.AccountDaos

/-!
# The user view of the admin portal

The edit form and the toggle-active action of `UserAdminView` in
`api/apps/user/admin_views/user.py`. Its deletion is `UserDAO.deleteUsers`, and its
listings only read.
-/

namespace FastapiTemplate.UserAdminView

structure UserForm where
  fullName : Option String := none
  email : Option String := none
  username : Option String := none
  isActive : Option Bool := none
  isSuperuser : Option Bool := none
  deriving DecidableEq, Repr

/-- `UPDATE users SET is_active = COALESCE($1, is_active), is_superuser = ..`: no migration
creates the column `is_superuser`, so the statement is rejected whatever its arguments. -/
def updateFlags (_isActive _isSuperuser : Option Bool) (_user : UserId) : App Unit :=
  App.ofDb (.error (.undefinedColumn "is_superuser"))

def orNotFound (pk : UserId) : Option UserData → App UserData
  | none => App.raise (.value ("User with ID " ++ toString pk ++ " not found"))
  | some user => pure user

/-- `UserUpdate(full_name=.., email=.., username=..)`: the schema validates `email`. -/
def formUpdate [External] (form : UserForm) : App UserUpdate :=
  if form.email.any (fun email => ¬ External.emailValid email) then
    App.raise (.value "value is not a valid email address")
  else pure { fullName := form.fullName, email := form.email, username := form.username }

def edit [External] (pk : UserId) (form : UserForm) : App UserData := do
  let userUpdate ← formUpdate form
  let user ← orNotFound pk (← UserDAO.updateUser pk userUpdate)
  if form.isActive.isSome ∨ form.isSuperuser.isSome then
    updateFlags form.isActive form.isSuperuser pk
    orNotFound pk (← UserDAO.getById pk)
  else pure user

/-- `UserUpdate(is_active=new_status)`: the schema has no such field and pydantic ignores it. -/
def activeUpdate (_newStatus : Bool) : UserUpdate := {}

def statusText (newStatus : Bool) : String := if newStatus then "activated" else "deactivated"

def toggleActiveAction (pk : UserId) : App String := do
  match ← UserDAO.getById pk with
  | none => App.raise (.value "User not found")
  | some user =>
    let _ ← UserDAO.updateUser pk (activeUpdate (!user.isActive))
    pure ("User '" ++ user.email ++ "' has been successfully " ++ statusText (!user.isActive) ++ ".")

end FastapiTemplate.UserAdminView
