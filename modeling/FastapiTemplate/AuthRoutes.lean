import FastapiTemplate.AuthService
import FastapiTemplate.UserService

/-!
# Dependencies and routes

The authentication dependencies of `api/core/dependencies.py`, the routes of
`api/apps/user/v0/routes`, the notification stream and the login of the admin
portal. A route is its dependencies in the order of its signature and then its
body. The listing of sessions is left out: it only reads, and hands out no token.
-/

namespace FastapiTemplate

/-! ## Dependencies -/

def credentialsException {α : Type} : App α :=
  App.httpError 401 (.text "Could not validate credentials")

/-- The user of `get_current_user`, with the context variable `CURRENT_IMPERSONATOR_ID` it sets. -/
structure CurrentUser where
  user : UserData
  currentImpersonator : Option UserId
  deriving DecidableEq, Repr

def getCurrentUser (scopes : List String) (token : Jwt) : App CurrentUser := do
  let data ← verifyToken token .access
  if scopes.any (· ∉ data.scopes) then App.httpError 403 (.text "Not enough permissions")
  else
    let user ← UserService.getUserById data.id
    if user.tokenVersion ≠ data.tokenVersion then credentialsException
    else pure ⟨user, if data.isImpersonation then data.impersonatorId else none⟩

def getSudoUser (token : Jwt) : App UserData := do
  let data ← verifyToken token .sudo
  let user ← UserService.getUserById data.id
  if user.tokenVersion ≠ data.tokenVersion then credentialsException
  else if data.isImpersonation then
    App.httpError 403
      (.text "Sudo access cannot be performed during an active impersonation session.")
  else if data.type ≠ .sudo then App.httpError 403 (.text "Sudo access required")
  else pure user

def disallowImpersonation (token : Jwt) : App Unit := do
  let data ← verifyToken token .access
  if data.isImpersonation then
    App.httpError 403
      (.text "This operation cannot be performed during an active impersonation session.")
  else pure ()

variable [External]

/-! ## Google -/

def googleLogin : App ℕ := do
  let state ← App.draw
  Redis.set (.oauthStateGoogle state) .one 300
  pure state

/-- The callback. `state` is missing when a query parameter is; `exchange` is what the requests
to Google for the given code come to. -/
def googleCallback (state : Option ℕ) (exchange : Except Detail GoogleUserInfo)
    (request : Request) : App LoginResponse :=
  match state with
  | none => App.httpError 400 (.trans "auth.missing_callback_params")
  | some state => do
    match ← Redis.get (.oauthStateGoogle state) with
    | none => App.httpError 400 (.trans "auth.invalid_state")
    | some _ =>
      Redis.delete (.oauthStateGoogle state)
      match exchange with
      | .error detail => App.httpError 400 detail
      | .ok info =>
        let user ← AuthService.handleGoogleOauth info
        AuthService.authenticateOauthUser user request

/-- `UserData(username=.., id=.., is_active=True, hashed_password=None, email="", full_name=None)`:
the schema validates `email`. -/
def temporaryUserData (data : TokenData) : App UserData :=
  if ¬ External.emailValid "" then App.raise (.value "value is not a valid email address")
  else pure {
    id := data.id, username := data.username, email := "", hashedPassword := none
    fullName := none, isActive := true, roles := [], tokenVersion := 1 }

/-- `except (HTTPException, ValueError, TypeError)`. -/
def invalidAccessToken {α : Type} : AppError → App α
  | .http _ _ => App.httpError 401 (.trans "auth.invalid_access_token")
  | .value _ => App.httpError 401 (.trans "auth.invalid_access_token")
  | e => App.raise e

def googleSudoBody (accessToken : Jwt) : App SudoTokenResponse := do
  let user ← Program.handle
    (do let data ← verifyToken accessToken .access
        temporaryUserData data)
    invalidAccessToken
  AuthService.createSudoTokenOauth user

/-- The impersonation guard reads the header; the body carries the token that is exchanged. -/
def googleSudoToken (header accessToken : Jwt) : App SudoTokenResponse := do
  disallowImpersonation header
  googleSudoBody accessToken

/-! ## Notification stream -/

/-- `sse_notifications` up to the opening of the stream for the returned user. -/
def sseNotifications (token : Jwt) : App UserId := do
  let data ← verifyToken token .access
  match ← UserDAO.getById data.id with
  | none => App.httpError 401 (.text "Inactive or non-existent user")
  | some user =>
    if ¬ user.isActive then App.httpError 401 (.text "Inactive or non-existent user")
    else pure user.id

/-! ## Admin portal -/

def adminCredentials {α : Type} : App α :=
  App.raise (.loginFailed "Invalid username/email or password")

def findByEmailOrUsername (username : String) : App (Option UserData) := do
  match ← UserDAO.getByEmail username with
  | some user => pure (some user)
  | none => UserDAO.getByUsername username

/-- `AdminAuthProvider.login`; the answer is the user put into the admin session. -/
def adminLogin (username password : String) : App UserData := do
  match ← findByEmailOrUsername username with
  | none => adminCredentials
  | some user =>
    if user.hashedPassword.getD "" = "" then adminCredentials
    else if ¬ verifyPassword password user.hashedPassword then adminCredentials
    else if ¬ user.isActive then App.raise (.loginFailed "User account is inactive")
    else if ¬ user.roles.any (·.name = "Super Admin") then
      App.raise (.loginFailed "Access denied: Super Admin role required")
    else pure user

/-- The dictionary that the login puts under `"admin_user"` in the session. -/
structure AdminData where
  id : UserId
  email : String
  username : String
  fullName : Option String
  deriving DecidableEq, Repr

def adminData (user : UserData) : AdminData := ⟨user.id, user.email, user.username, user.fullName⟩

/-- The `AdminUser` of a request that is let through, with the context variable
`CURRENT_ACTOR_ID` it sets. -/
structure AdminAccess where
  username : String
  actorId : UserId
  deriving DecidableEq, Repr

/-- `a or b` on strings. -/
def orElse (a b : String) : String := if a = "" then b else a

/-- `AdminAuthProvider.authenticate` for the `"admin_user"` of the session. -/
def authenticate (adminData : Option AdminData) : Option AdminAccess :=
  adminData.map (fun d => {
    username := orElse (d.fullName.getD "") (orElse d.username (orElse d.email "Admin"))
    actorId := d.id })

/-! ## Routes of the user and authentication routers -/

inductive Response
  | done
  | user (user : UserData)
  | loggedIn (response : LoginResponse)
  | challenge (twoFactorToken : ℕ)
  | oauthState (state : ℕ)
  | sudo (response : SudoTokenResponse)
  | impersonation (response : ImpersonationResponse)
  | twoFactorStatus (response : TwoFactorStatusResponse)
  | twoFactorSetup (response : TwoFactorSetupResponse)
  | backupCodes (codes : List String)
  | adminSession (user : UserData)
  | message (text : String)
  deriving DecidableEq, Repr

def Response.tokens : Response → List Jwt
  | .loggedIn r => [r.token.accessToken, r.token.refreshToken]
  | .sudo r => [r.sudoToken]
  | .impersonation r => [r.accessToken]
  | _ => []

def Response.ofLogin : AuthService.LoginResult → Response
  | .loggedIn r => .loggedIn r
  | .challenge t => .challenge t

inductive Route
  | googleLogin
  | googleCallback (state : Option ℕ) (exchange : Except Detail GoogleUserInfo) (request : Request)
  | login (username password : String) (request : Request)
  | getTwoFactorStatus (header : Jwt)
  | setupTwoFactor (header : Jwt)
  | confirmTwoFactor (header : Jwt) (code : String)
  | verifyTwoFactor (twoFactorToken : ℕ) (code : String) (request : Request)
  | disableTwoFactor (header : Jwt) (code : String)
  | regenerateBackupCodes (header : Jwt) (code : String)
  | refreshAccessToken (refreshToken : Jwt) (request : Request)
  | createSudoToken (username password : String)
  | googleSudoToken (header accessToken : Jwt)
  | updatePassword (header : Jwt) (password : String)
  | registerUser (userIn : UserCreate)
  | me (header : Jwt)
  | updateUser (header : Jwt) (upd : UserUpdate)
  | revokeSession (header : Jwt) (jti : ℕ)
  | revokeAllSessions (header : Jwt)
  | assignRoles (header : Jwt) (user : UserId) (roleIds : List RoleId)
  | impersonateUser (header : Jwt) (target : UserId)
  | stopImpersonation (header : Jwt)

def stopImpersonation (header : Jwt) : App Unit := do
  let data ← verifyToken header .access
  if ¬ data.isImpersonation ∨ data.impersonatorId.isNone then
    App.httpError 400 (.text "Session is not an active impersonation session.")
  else AuthService.stopImpersonation data.jti

def Route.program : Route → App Response
  | .googleLogin => do pure (.oauthState (← FastapiTemplate.googleLogin))
  | .googleCallback state exchange request => do
    pure (.loggedIn (← FastapiTemplate.googleCallback state exchange request))
  | .login username password request => do
    pure (.ofLogin (← AuthService.authenticateUser username password request))
  | .getTwoFactorStatus header => do
    let current ← getCurrentUser [] header
    pure (.twoFactorStatus (← AuthService.getTwoFactorStatus current.user.id))
  | .setupTwoFactor header => do
    let current ← getCurrentUser [] header
    disallowImpersonation header
    pure (.twoFactorSetup (← AuthService.initiateTwoFactorSetup current.user))
  | .confirmTwoFactor header code => do
    let current ← getCurrentUser [] header
    disallowImpersonation header
    pure (.backupCodes (← AuthService.confirmTwoFactorSetup current.user code))
  | .verifyTwoFactor twoFactorToken code request => do
    pure (.loggedIn (← AuthService.verifyTwoFactorChallenge twoFactorToken code request))
  | .disableTwoFactor header code => do
    let user ← getSudoUser header
    AuthService.disableTwoFactor user code
    pure .done
  | .regenerateBackupCodes header code => do
    let user ← getSudoUser header
    pure (.backupCodes (← AuthService.regenerateTwoFactorBackupCodes user code))
  | .refreshAccessToken refreshToken request => do
    pure (.loggedIn (← AuthService.refreshToken refreshToken request))
  | .createSudoToken username password => do
    pure (.sudo (← AuthService.createSudoTokenUser username password))
  | .googleSudoToken header accessToken => do
    pure (.sudo (← FastapiTemplate.googleSudoToken header accessToken))
  | .updatePassword header password => do
    let user ← getSudoUser header
    AuthService.updatePassword user.id password
    pure .done
  | .registerUser userIn => do pure (.user (← UserService.createUser userIn))
  | .me header => do
    let current ← getCurrentUser [] header
    pure (.user current.user)
  | .updateUser header upd => do
    let current ← getCurrentUser [] header
    pure (.user (← UserService.updateUser current.user.id upd))
  | .revokeSession header jti => do
    let current ← getCurrentUser [] header
    disallowImpersonation header
    UserService.revokeUserSession current.user.id jti
    pure .done
  | .revokeAllSessions header => do
    let current ← getCurrentUser [] header
    disallowImpersonation header
    UserService.revokeAllUserSessions current.user.id
    pure .done
  | .assignRoles header user roleIds => do
    let _ ← getCurrentUser ["users:update"] header
    disallowImpersonation header
    UserService.assignRolesToUser user roleIds
    pure .done
  | .impersonateUser header target => do
    let current ← getCurrentUser ["users:impersonate"] header
    disallowImpersonation header
    pure (.impersonation
      (← AuthService.impersonateUser current.user target current.currentImpersonator))
  | .stopImpersonation header => do
    FastapiTemplate.stopImpersonation header
    pure .done

end FastapiTemplate
