import FastapiTemplate.AccountDaos
import FastapiTemplate.Tokens
import Mathlib.Algebra.Group.Nat.Defs

/-!
# The authentication service

`AuthService` of `api/apps/user/v0/service/auth.py`, method by method.
-/

namespace FastapiTemplate.AuthService

variable [External]

/-! ## Sessions -/

def checkMfaEnforcement (user : UserId) : App Unit := do
  let enforceMfa ← SystemConfigDAO.getConfig
  if enforceMfa then
    match ← UserDAO.getTwoFactor user with
    | none => App.httpError 428 (.trans "auth.mfa_enforced")
    | some record =>
      if record.isEnabled then pure () else App.httpError 428 (.trans "auth.mfa_enforced")

/-- `_get_user_scopes`: the set of the permission names of the roles. -/
def getUserScopes (roles : List RoleData) : List String :=
  (roles.flatMap (fun role => role.permissions.map (·.name))).dedup

def sessionClaims (user : UserData) : TokenClaims where
  sub := user.username
  id := user.id
  scopes := some (getUserScopes user.roles)
  tokenVersion := some user.tokenVersion

def sessionRow (user : UserData) (access : TokenDetails) (issuedAt : ℕ) (request : Request) :
    UserSessionCreate where
  jti := access.jti
  userId := user.id
  issuedAt := issuedAt
  expiresAt := access.expiresAt
  ipAddress := request.clientHost
  userAgent := request.userAgent

/-- Both tokens draw a `jti` of their own; the session row stores that of the access token. -/
def issueTokensAndSession (user : UserData) (request : Request) : App LoginResponse := do
  let access ← createAccessToken (sessionClaims user)
  let refresh ← createRefreshToken (sessionClaims user)
  let issuedAt ← App.now
  UserDAO.upsertUserSession (sessionRow user access issuedAt request)
  pure ⟨⟨access.token, refresh⟩, user⟩

def authenticateOauthUser (user : UserData) (request : Request) : App LoginResponse :=
  issueTokensAndSession user request

inductive LoginResult
  | loggedIn (response : LoginResponse)
  | challenge (twoFactorToken : ℕ)
  deriving DecidableEq, Repr

def createChallenge (user : UserId) : App ℕ := do
  let challengeToken ← App.draw
  Redis.set (.twoFactorChallenge challengeToken) (.userId user)
    (settings.twoFactorChallengeExpireMinutes * 60)
  pure challengeToken

def authenticateUser (username password : String) (request : Request) : App LoginResult := do
  match ← UserDAO.getByUsername username with
  | none => App.httpError 401 (.trans "auth.invalid_credentials")
  | some user =>
    if ¬ verifyPassword password user.hashedPassword then
      App.httpError 401 (.trans "auth.invalid_credentials")
    else
      let twoFactorData ← UserDAO.getTwoFactor user.id
      if twoFactorData.any (·.isEnabled) then
        let challengeToken ← createChallenge user.id
        pure (.challenge challengeToken)
      else
        let response ← issueTokensAndSession user request
        pure (.loggedIn response)

def refreshToken (token : Jwt) (request : Request) : App LoginResponse := do
  let data ← verifyToken token .refresh
  match ← UserDAO.getById data.id with
  | none => App.httpError 401 (.trans "auth.invalid_refresh_user")
  | some user =>
    if user.tokenVersion ≠ data.tokenVersion then
      App.httpError 401 (.trans "auth.token_version_mismatch")
    else
      checkMfaEnforcement user.id
      issueTokensAndSession user request

/-! ## Google accounts -/

/-- The `username` of `_generate_unique_username` before the uniqueness check. -/
def slugify (baseName : String) : String :=
  let step (acc : List Char) (c : Char) : List Char :=
    if ('a' ≤ c ∧ c ≤ 'z') ∨ ('0' ≤ c ∧ c ≤ '9') then c :: acc
    else if acc.head? = some '-' then acc else '-' :: acc
  let slug := (External.lower baseName).toList.foldl step []
  String.ofList ((slug.dropWhile (· = '-')).reverse.dropWhile (· = '-'))

/-- Four characters of `string.ascii_lowercase + string.digits`. -/
def drawnSuffix (seed : ℕ) : String :=
  let alphabet := "abcdefghijklmnopqrstuvwxyz0123456789".toList
  String.ofList ((List.range 4).map (fun i => alphabet.getD (seed / 36 ^ i % 36) 'a'))

/-- The suffix loop with `attempts` attempts left. -/
def findFreeUsername (username : String) : ℕ → App String
  | 0 => App.raise (.value "Could not generate a unique username after 100 attempts.")
  | attempts + 1 => do
    let seed ← App.draw
    let newUsername := username ++ "-" ++ drawnSuffix seed
    match ← UserDAO.getByUsername newUsername with
    | none => pure newUsername
    | some _ => findFreeUsername username attempts

def generateUniqueUsername (baseName : String) : App String := do
  let slug := slugify baseName
  let username := if slug = "" then "user" else slug
  match ← UserDAO.getByUsername username with
  | none => pure username
  | some _ => findFreeUsername username 100

def requireEmail (info : GoogleUserInfo) : App String :=
  match info.email with
  | none => App.raise (.key "email")
  | some email => pure email

/-- `user_info["email"].split("@")[0]`. -/
def emailLocalPart (info : GoogleUserInfo) : App String := do
  let email ← requireEmail info
  pure (String.ofList (email.toList.takeWhile (· ≠ '@')))

/-- `user_info.get("name") or user_info["email"].split("@")[0]`. -/
def baseName (info : GoogleUserInfo) : App String :=
  match info.name with
  | none => emailLocalPart info
  | some name => if name = "" then emailLocalPart info else pure name

/-- The third step of `handle_google_oauth`: a new account. -/
def createGoogleUser (info : GoogleUserInfo) : App UserData := do
  let username ← generateUniqueUsername (← baseName info)
  let email ← requireEmail info
  if ¬ External.emailValid email then App.raise (.value "value is not a valid email address")
  else UserDAO.createUserOauth ⟨username, email, none, info.name, true⟩ info

def handleGoogleOauth (info : GoogleUserInfo) : App UserData := do
  match ← UserDAO.getByGoogleSub info.sub with
  | some user => pure user
  | none =>
    match info.email with
    | none => createGoogleUser info
    | some email =>
      if email = "" then createGoogleUser info
      else
        match ← UserDAO.getByEmail email with
        | none => createGoogleUser info
        | some user =>
          if info.emailVerified then
            UserDAO.addIdentity user.id info
            pure user
          else createGoogleUser info

/-! ## Sudo tokens and passwords -/

def sudoClaims (username : String) (user : UserId) : TokenClaims := { sub := username, id := user }

def sudoResponse (username : String) (user : UserId) : App SudoTokenResponse := do
  let sudoToken ← createSudoToken (sudoClaims username user)
  pure ⟨sudoToken, settings.sudoTokenExpireMinutes * 60⟩

def createSudoTokenOauth (user : UserData) : App SudoTokenResponse :=
  sudoResponse user.username user.id

def createSudoTokenUser (username password : String) : App SudoTokenResponse := do
  match ← UserDAO.getByUsername username with
  | none => App.httpError 401 (.trans "auth.invalid_credentials")
  | some user =>
    if ¬ verifyPassword password user.hashedPassword then
      App.httpError 401 (.trans "auth.invalid_credentials")
    else sudoResponse user.username user.id

def updatePassword (user : UserId) (password : String) : App Unit := do
  let hashedPassword ← getPasswordHash password
  UserDAO.updatePassword user hashedPassword

/-! ## Second factor -/

def getTwoFactorStatus (user : UserId) : App TwoFactorStatusResponse := do
  match ← UserDAO.getTwoFactor user with
  | none => pure ⟨false, 0⟩
  | some record =>
    if ¬ record.isEnabled then pure ⟨false, 0⟩
    else pure ⟨true, (record.backupCodes.filter (fun c => ¬ c.used)).length⟩

def initiateTwoFactorSetup (user : UserData) : App TwoFactorSetupResponse := do
  let secret ← generateTotpSecret
  let encrypted ← encryptSecret secret
  Redis.set (.twoFactorSetup user.id) (.encryptedSecret encrypted) 600
  pure ⟨secret⟩

def confirmTwoFactorSetup (user : UserData) (code : String) : App (List String) := do
  match ← Redis.get (.twoFactorSetup user.id) with
  | some (.encryptedSecret encrypted) =>
    let secret ← decryptSecret encrypted
    let valid ← verifyTotp secret code
    if ¬ valid then App.httpError 400 (.trans "auth.two_factor_invalid_code")
    else
      let (plaintextCodes, hashedRecords) ← generateBackupCodes 10
      UserDAO.upsertTwoFactor user.id encrypted hashedRecords true
      Redis.delete (.twoFactorSetup user.id)
      pure plaintextCodes
  | _ => App.httpError 400 (.trans "auth.two_factor_setup_expired")

/-- The code check that `disable_two_factor` and `regenerate_two_factor_backup_codes` share. -/
def requireCurrentCode (record : UserTwoFactorData) (code : String) : App Unit := do
  let secret ← decryptSecret record.secretEncrypted
  let valid ← verifyTotp secret (strip code)
  if valid then pure ()
  else
    let (validBackup, _) ← verifyAndConsumeBackupCode record.backupCodes (strip code)
    if validBackup then pure ()
    else App.httpError 400 (.trans "auth.two_factor_invalid_code_or_backup")

def requireEnabled (user : UserId) : App UserTwoFactorData := do
  match ← UserDAO.getTwoFactor user with
  | none => App.httpError 400 (.trans "auth.two_factor_not_enabled")
  | some record =>
    if record.isEnabled then pure record
    else App.httpError 400 (.trans "auth.two_factor_not_enabled")

def disableTwoFactor (user : UserData) (code : String) : App Unit := do
  let record ← requireEnabled user.id
  requireCurrentCode record code
  UserDAO.disableTwoFactor user.id

def regenerateTwoFactorBackupCodes (user : UserData) (code : String) : App (List String) := do
  let record ← requireEnabled user.id
  requireCurrentCode record code
  let (plaintextCodes, hashedRecords) ← generateBackupCodes 10
  UserDAO.updateTwoFactorBackupCodes user.id hashedRecords
  pure plaintextCodes

/-- The replay key is made of the step of the current time, not of the step of the code. -/
def recordTotpUse (user : UserId) : App Unit := do
  let now ← App.now
  match ← Redis.get (.twoFactorReplay user (timeStep now)) with
  | some _ => App.httpError 400 (.trans "auth.two_factor_replay_detected")
  | none => Redis.set (.twoFactorReplay user (timeStep now)) .one 60

def verify2faCodeOrBackup (user : UserId) (record : UserTwoFactorData) (cleanedCode : String) :
    App Unit := do
  let secret ← decryptSecret record.secretEncrypted
  let valid ← verifyTotp secret cleanedCode
  if valid then recordTotpUse user
  else
    let (validBackup, updatedCodes) ← verifyAndConsumeBackupCode record.backupCodes cleanedCode
    if ¬ validBackup then App.httpError 400 (.trans "auth.two_factor_invalid_code_or_backup")
    else UserDAO.updateTwoFactorBackupCodes user updatedCodes

/-- The end of a challenge verification: the challenge is deleted and tokens are issued. -/
def completeChallenge (twoFactorToken : ℕ) (user : UserId) (request : Request) :
    App LoginResponse := do
  Redis.delete (.twoFactorChallenge twoFactorToken)
  match ← UserDAO.getById user with
  | none => App.httpError 404 (.trans "user.not_found")
  | some data => issueTokensAndSession data request

def verifyTwoFactorChallenge (twoFactorToken : ℕ) (code : String) (request : Request) :
    App LoginResponse := do
  match ← Redis.get (.twoFactorChallenge twoFactorToken) with
  | some (.userId user) =>
    let record ← requireEnabled user
    verify2faCodeOrBackup user record (strip code)
    completeChallenge twoFactorToken user request
  | _ => App.httpError 401 (.trans "auth.two_factor_challenge_expired")

/-! ## Impersonation -/

def isPrivileged (user : UserData) : Bool :=
  user.roles.any (fun r => r.name = "Super Admin" || r.name = "Admin")

def impersonationClaims (admin target : UserData) : TokenClaims where
  sub := target.username
  id := target.id
  scopes := some (getUserScopes target.roles)
  tokenVersion := some target.tokenVersion
  isImpersonation := some true
  act := some ⟨admin.id, admin.username⟩

/-- `impersonate_user`; `currentImpersonator` is the context variable `CURRENT_IMPERSONATOR_ID`. -/
def impersonateUser (admin : UserData) (target : UserId) (currentImpersonator : Option UserId)
    (durationMinutes : ℕ := 30) : App ImpersonationResponse := do
  if currentImpersonator.isSome then App.httpError 400 (.trans "auth.cannot_nest_impersonation")
  else if admin.id = target then App.httpError 400 (.trans "auth.cannot_impersonate_self")
  else
    match ← UserDAO.getById target with
    | none => App.httpError 404 (.trans "user.not_found")
    | some targetUser =>
      if ¬ targetUser.isActive then
        App.httpError 400 (.trans "auth.cannot_impersonate_inactive_user")
      else if isPrivileged targetUser then
        App.httpError 403 (.trans "auth.cannot_impersonate_admin")
      else
        let details ← createImpersonationToken (impersonationClaims admin targetUser) durationMinutes
        Redis.set (.impersonationSession details.jti) (.sessionMeta admin.id targetUser.id)
          (durationMinutes * 60)
        pure ⟨details.token, targetUser, admin.id, admin.username, details.expiresAt⟩

def stopImpersonation (jti : ℕ) : App Unit := do
  Redis.set (.blacklist .access jti) .one 3600
  match ← Redis.get (.impersonationSession jti) with
  | some _ => Redis.delete (.impersonationSession jti)
  | none => pure ()

end FastapiTemplate.AuthService
