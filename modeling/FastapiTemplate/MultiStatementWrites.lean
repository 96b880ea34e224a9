import FastapiTemplate.RoleWriteAtomicity
import FastapiTemplate.UserWriteAtomicity

/-!
# All multi-statement writes

The six operations as one family. Of them only the deletion of a role is a transaction; every other
one can raise with a part of its effects in place, also when no connection fails.
-/

namespace FastapiTemplate.AccountWrites

inductive Operation
  | createRole (roleCreate : RoleCreate)
  | updateRole (role : RoleId) (upd : RoleUpdate)
  | deleteRole (role : RoleId)
  | createUserOauth (user : UserCreate) (info : GoogleUserInfo)
  | assignRoles (user : UserId) (roleIds : List RoleId) (schedule : List Bool)
  | edit (pk : UserId) (form : UserAdminView.UserForm)

variable [External] (replica : Option Database) (fates : Fates Statement Sql.DbError) (t : Tables)

/-- What the call comes to from the tables `t`: nothing if a statement raises, else all effects. -/
def Operation.EndsAllOrNothing : Operation → Prop
  | .createRole roleCreate => AllOrNothing (Same t) (RoleCreated t roleCreate)
      ((RoleDAO.createRole roleCreate).exec replica fates t)
  | .updateRole role upd => AllOrNothing (Same t) (RoleUpdated t role upd)
      ((RoleDAO.updateRole role upd).exec replica fates t)
  | .deleteRole role => AllOrNothing (Same t) (RoleDeleted t role)
      ((RoleDAO.deleteRole role).exec replica fates t)
  | .createUserOauth user info => AllOrNothing (Same t) (UserCreated t user info)
      ((UserDAO.createUserOauth user info).exec replica fates t)
  | .assignRoles user roleIds schedule => AllOrNothing (Same t) (RolesAssigned t user roleIds)
      ((UserDAO.assignRoles user roleIds schedule).exec replica fates t)
  | .edit pk form => AllOrNothing (Same t) (UserEdited t pk form)
      ((UserAdminView.edit pk form).exec replica fates t)

def Operation.Safe : Operation → Prop
  | .createRole roleCreate => CreateRoleSafe fates t roleCreate
  | .updateRole role upd => UpdateRoleSafe fates t role upd
  | .deleteRole role => DeleteRoleSafe fates t role
  | .createUserOauth user info => CreateUserOauthSafe fates t user info
  | .assignRoles user roleIds _ => AssignRolesSafe fates t user roleIds
  | .edit pk form => EditSafe replica fates t pk form

end FastapiTemplate.AccountWrites
