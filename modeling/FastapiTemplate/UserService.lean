import FastapiTemplate.AccountDaos
import FastapiTemplate.Tokens

/-!
# The user service

`UserService` of `api/apps/user/v0/service/user.py`, without the listing of
sessions, which only reads.
-/

namespace FastapiTemplate.UserService

section
variable [External]

def createUser (userIn : UserCreate) : App UserData :=
  match userIn.password with
  | none => App.raise (.value "Password is required for user creation")
  | some password => do
    let hashedPassword ← getPasswordHash password
    UserDAO.createUser userIn (some hashedPassword)

end

def orNotFound (user : Option UserData) : App UserData :=
  match user with
  | none => App.httpError 404 (.trans "user.not_found")
  | some user => pure user

def getUserByUsername (username : String) : App UserData := do
  orNotFound (← UserDAO.getByUsername username)

def getUserById (user : UserId) : App UserData := do
  orNotFound (← UserDAO.getById user)

/-- `UserData.model_validate(None)` fails when the user does not exist. -/
def updateUser (user : UserId) (upd : UserUpdate) : App UserData := do
  match ← UserDAO.updateUser user upd with
  | none => App.raise (.value "Input should be a valid dictionary or instance of UserData")
  | some data => pure data

/-- Both markers are named after the `jti` of the session row. -/
def blacklistSession (jti : ℕ) (ttl : ℤ) : App Unit := do
  Redis.set (.blacklist .access jti) .one ttl
  Redis.set (.blacklist .refresh jti) .one ttl

def revokeUserSession (user : UserId) (jti : ℕ) : App Unit := do
  match ← UserDAO.revokeUserSession user jti with
  | none => App.httpError 404 (.trans "session.not_found")
  | some ttl => blacklistSession jti ttl

/-- The gathered `SET`s of `revoke_all_user_sessions`, for the rows with time left. -/
def blacklistSessions : List (ℕ × ℤ) → App Unit
  | [] => pure ()
  | (jti, ttl) :: rest =>
    if ttl > 0 then do
      blacklistSession jti ttl
      blacklistSessions rest
    else blacklistSessions rest

def revokeAllUserSessions (user : UserId) : App Unit := do
  blacklistSessions (← UserDAO.revokeAllUserSessions user)

def assignRolesToUser (user : UserId) (roleIds : List RoleId) : App Unit :=
  UserDAO.assignRoles user roleIds

def getTwoFactor (user : UserId) : App (Option UserTwoFactorData) := UserDAO.getTwoFactor user

end FastapiTemplate.UserService
