import FastapiTemplate.LoginPaths
import FastapiTemplate.TransitionRuns

/-!
# The system of accounts, sessions and tokens

The operations of the routes, the role and user administration and the admin
portal, each run to its end before the next. A `World` is the state together with
the log of the operations that succeeded and their answers. A token that carries a
valid signature can be presented only after it has been handed out.
-/

namespace FastapiTemplate

inductive Op
  | registerUser (userIn : UserCreate)
  | googleLogin
  | googleCallback (state : Option ℕ) (exchange : Except Detail GoogleUserInfo) (request : Request)
  | authenticateUser (username password : String) (request : Request)
  | verifyTwoFactorChallenge (twoFactorToken : ℕ) (code : String) (request : Request)
  | refreshToken (token : Jwt) (request : Request)
  | createSudoTokenUser (username password : String)
  | googleSudoToken (header accessToken : Jwt)
  | initiateTwoFactorSetup (user : UserData)
  | confirmTwoFactorSetup (user : UserData) (code : String)
  | disableTwoFactor (user : UserData) (code : String)
  | regenerateTwoFactorBackupCodes (user : UserData) (code : String)
  | updatePassword (user : UserId) (password : String)
  | updateUser (user : UserId) (upd : UserUpdate)
  | revokeUserSession (user : UserId) (jti : ℕ)
  | revokeAllUserSessions (user : UserId)
  | assignRoles (user : UserId) (roleIds : List RoleId)
  | createRole (roleCreate : RoleCreate)
  | updateRole (role : RoleId) (upd : RoleUpdate)
  | deleteRole (role : RoleId)
  | deleteRoles (ids : List RoleId)
  | impersonateUser (admin : UserData) (target : UserId) (currentImpersonator : Option UserId)
  | stopImpersonation (header : Jwt)
  | deleteUsers (ids : List UserId)
  | editUser (pk : UserId) (form : UserAdminView.UserForm)
  | toggleActive (pk : UserId)
  | adminLogin (username password : String)
  | updateConfig (enforceMfa : Option Bool)

def Op.presented : Op → List Jwt
  | .refreshToken token _ => [token]
  | .googleSudoToken header accessToken => [header, accessToken]
  | .stopImpersonation header => [header]
  | _ => []

def Response.pair : Response → Option LoginResponse
  | .loggedIn r => some r
  | _ => none

def Op.areas : Op → List Area
  | .registerUser _ => [.supply, .accounts]
  | .googleLogin => [.supply, .oauthStates]
  | .googleCallback .. => [.supply, .accounts, .sessions, .oauthStates]
  | .authenticateUser .. => [.supply, .sessions, .challenges]
  | .verifyTwoFactorChallenge .. => [.supply, .sessions, .factors, .replays, .challenges]
  | .refreshToken .. => [.supply, .sessions, .config, .markers]
  | .createSudoTokenUser .. => [.supply]
  | .googleSudoToken .. => [.supply]
  | .initiateTwoFactorSetup _ => [.supply, .markers]
  | .confirmTwoFactorSetup .. => [.supply, .factors, .markers]
  | .disableTwoFactor .. => [.factors]
  | .regenerateTwoFactorBackupCodes .. => [.supply, .factors]
  | .updatePassword .. => [.supply, .versions]
  | .updateUser .. => [.accounts]
  | .revokeUserSession .. => [.revocation, .blacklist .access, .blacklist .refresh]
  | .revokeAllUserSessions _ => [.revocation, .blacklist .access, .blacklist .refresh]
  | .assignRoles .. => [.grants, .versions]
  | .createRole _ => [.grants]
  | .updateRole .. => [.grants, .withdrawal, .versions]
  | .deleteRole _ => [.roleRemoval]
  | .deleteRoles _ => [.withdrawal]
  | .impersonateUser .. => [.supply, .markers]
  | .stopImpersonation _ => [.blacklist .access, .markers]
  | .deleteUsers _ => [.removal]
  | .editUser .. => [.accounts]
  | .toggleActive _ => [.accounts]
  | .adminLogin .. => []
  | .updateConfig _ => [.config, .markers]

variable [External]

def Op.program : Op → App Response
  | .registerUser userIn => do pure (.user (← UserService.createUser userIn))
  | .googleLogin => do pure (.oauthState (← FastapiTemplate.googleLogin))
  | .googleCallback state exchange request => do
    pure (.loggedIn (← FastapiTemplate.googleCallback state exchange request))
  | .authenticateUser username password request => do
    pure (.ofLogin (← AuthService.authenticateUser username password request))
  | .verifyTwoFactorChallenge twoFactorToken code request => do
    pure (.loggedIn (← AuthService.verifyTwoFactorChallenge twoFactorToken code request))
  | .refreshToken token request => do
    pure (.loggedIn (← AuthService.refreshToken token request))
  | .createSudoTokenUser username password => do
    pure (.sudo (← AuthService.createSudoTokenUser username password))
  | .googleSudoToken header accessToken => do
    pure (.sudo (← FastapiTemplate.googleSudoToken header accessToken))
  | .initiateTwoFactorSetup user => do
    pure (.twoFactorSetup (← AuthService.initiateTwoFactorSetup user))
  | .confirmTwoFactorSetup user code => do
    pure (.backupCodes (← AuthService.confirmTwoFactorSetup user code))
  | .disableTwoFactor user code => do
    AuthService.disableTwoFactor user code
    pure .done
  | .regenerateTwoFactorBackupCodes user code => do
    pure (.backupCodes (← AuthService.regenerateTwoFactorBackupCodes user code))
  | .updatePassword user password => do
    AuthService.updatePassword user password
    pure .done
  | .updateUser user upd => do pure (.user (← UserService.updateUser user upd))
  | .revokeUserSession user jti => do
    UserService.revokeUserSession user jti
    pure .done
  | .revokeAllUserSessions user => do
    UserService.revokeAllUserSessions user
    pure .done
  | .assignRoles user roleIds => do
    UserService.assignRolesToUser user roleIds
    pure .done
  | .createRole roleCreate => do
    let _ ← RoleDAO.createRole roleCreate
    pure .done
  | .updateRole role upd => do
    let _ ← RoleDAO.updateRole role upd
    pure .done
  | .deleteRole role => do
    RoleDAO.deleteRole role
    pure .done
  | .deleteRoles ids => do
    let _ ← RoleDAO.deleteRoles ids
    pure .done
  | .impersonateUser admin target currentImpersonator => do
    pure (.impersonation (← AuthService.impersonateUser admin target currentImpersonator))
  | .stopImpersonation header => do
    FastapiTemplate.stopImpersonation header
    pure .done
  | .deleteUsers ids => do
    let _ ← UserDAO.deleteUsers ids
    pure .done
  | .editUser pk form => do pure (.user (← UserAdminView.edit pk form))
  | .toggleActive pk => do pure (.message (← UserAdminView.toggleActiveAction pk))
  | .adminLogin username password => do
    pure (.adminSession (← FastapiTemplate.adminLogin username password))
  | .updateConfig enforceMfa => do
    let _ ← SystemConfigDAO.updateConfig enforceMfa
    pure .done

theorem Op.program_writes (op : Op) : WritesOnly op.areas op.program := by
  cases op with
  | registerUser userIn => exact .bind (createUser_writes _) (fun _ => .pure _)
  | googleLogin =>
    exact .bind (.bind (.draw (by simp [areas])) (fun _ =>
      .bind (.redisSet (by simp [areas, RedisKey.area]) _ _) (fun _ => .pure _))) (fun _ => .pure _)
  | googleCallback => exact .bind (googleCallback_writes _ _ _) (fun _ => .pure _)
  | authenticateUser => exact .bind (AuthService.authenticateUser_writes _ _ _) (fun _ => .pure _)
  | verifyTwoFactorChallenge =>
    exact .bind (AuthService.verifyTwoFactorChallenge_writes _ _ _) (fun _ => .pure _)
  | refreshToken => exact .bind (AuthService.refreshToken_writes _ _) (fun _ => .pure _)
  | createSudoTokenUser =>
    exact .bind (AuthService.createSudoTokenUser_writes _ _) (fun _ => .pure _)
  | googleSudoToken => exact .bind (googleSudoToken_writes _ _) (fun _ => .pure _)
  | initiateTwoFactorSetup =>
    exact .bind (AuthService.initiateTwoFactorSetup_writes _) (fun _ => .pure _)
  | confirmTwoFactorSetup =>
    exact .bind (AuthService.confirmTwoFactorSetup_writes _ _) (fun _ => .pure _)
  | disableTwoFactor => exact .bind (AuthService.disableTwoFactor_writes _ _) (fun _ => .pure _)
  | regenerateTwoFactorBackupCodes =>
    exact .bind (AuthService.regenerateTwoFactorBackupCodes_writes _ _) (fun _ => .pure _)
  | updatePassword => exact .bind (AuthService.updatePassword_writes _ _) (fun _ => .pure _)
  | updateUser => exact .bind (updateUser_writes _ _) (fun _ => .pure _)
  | revokeUserSession => exact .bind (revokeUserSession_writes _ _) (fun _ => .pure _)
  | revokeAllUserSessions => exact .bind (revokeAllUserSessions_writes _) (fun _ => .pure _)
  | assignRoles => exact .bind (assignRoles_writes _ _) (fun _ => .pure _)
  | createRole => exact .bind (createRole_writes _) (fun _ => .pure _)
  | updateRole => exact .bind (updateRole_writes _ _) (fun _ => .pure _)
  | deleteRole => exact .bind (.write rfl (by simp [areas])) (fun _ => .pure _)
  | deleteRoles => exact .bind (deleteRoles_writes _) (fun _ => .pure _)
  | impersonateUser => exact .bind (AuthService.impersonateUser_writes _ _ _ _) (fun _ => .pure _)
  | stopImpersonation => exact .bind (stopImpersonation_writes _) (fun _ => .pure _)
  | deleteUsers => exact .bind (deleteUsers_writes _) (fun _ => .pure _)
  | editUser => exact .bind (UserAdminView.edit_writes _ _) (fun _ => .pure _)
  | toggleActive => exact .bind (UserAdminView.toggleActiveAction_writes _) (fun _ => .pure _)
  | adminLogin => exact .bind (adminLogin_writes _ _) (fun _ => .pure _)
  | updateConfig => exact .bind (updateConfig_writes _) (fun _ => .pure _)

/-! ## Worlds -/

structure World where
  state : State
  log : List (Op × Response)

inductive Event
  | advance (d : ℕ)
  | call (op : Op)

namespace World

omit [External] in
def tokens (w : World) : List Jwt := w.log.flatMap (fun entry => entry.2.tokens)

def logins (w : World) : List LoginResponse := w.log.filterMap (fun entry => entry.2.pair)

def record (log : List (Op × Response)) (op : Op) : Except AppError Response × State → World
  | (.ok r, t) => ⟨t, log ++ [(op, r)]⟩
  | (.error _, t) => ⟨t, log⟩

def step (w : World) : Event → World
  | .advance d => { w with state := w.state.advance d }
  | .call op => record w.log op (op.program.exec w.state)

/-- Signatures cannot be forged. -/
def Unforged (w : World) : Event → Prop
  | .advance _ => True
  | .call op => ∀ token ∈ op.presented, token ∈ w.tokens ∨ ∃ text, token = .unsigned text

/-- Accounts and roles may exist before the first operation, sessions and tokens do not. -/
structure Initial (w : World) : Prop where
  wellFormed : w.state.WellFormed
  userSessions : w.state.db.userSessions = []
  redis : w.state.redis = .empty
  log : w.log = []

def start (db : Database) (nextId : ℕ) : World where
  state := { db := db, redis := .empty, clock := 0, nextId := nextId }
  log := []

def testUser : UserRow where
  id := 0
  username := "testuser"
  email := "test@example.com"
  hashedPassword := some "$2a$05$CCCCCCCCCCCCCCCCCCCCC.E5YPO9kmyuRGyh0XouQYb4YMJKvyOeW"
  fullName := none
  isActive := true

omit [External] in
/-- A deployment whose accounts respect the supply is a possible start. -/
theorem start_initial {db : Database} {nextId : ℕ} (hnodup : (db.users.map (·.id)).Nodup)
    (huser : ∀ u ∈ db.users, u.id < nextId ∧ 1 ≤ u.tokenVersion)
    (hfactor : ∀ r ∈ db.userTwoFactor, r.userId < nextId) (hsessions : db.userSessions = []) :
    Initial (start db nextId) :=
  ⟨⟨hnodup, fun u hu => (huser u hu).1, fun u hu => (huser u hu).2, hfactor⟩, hsessions, rfl, rfl⟩

def Later (w w' : World) : Prop := RunsWhere step Unforged w w'

def Reachable (w : World) : Prop := ∃ w₀, Initial w₀ ∧ Later w₀ w

theorem Initial.reachable {w : World} (h : Initial w) : Reachable w := ⟨w, h, .refl⟩

theorem Initial.reachable_run {w : World} (h : Initial w) (events : List Event)
    (hunforged : EveryStep step Unforged w events) : Reachable (run step w events) :=
  ⟨w, h, hunforged.runsWhere⟩

theorem Reachable.step {w : World} (h : Reachable w) {e : Event} (hunforged : Unforged w e) :
    Reachable (w.step e) := by
  obtain ⟨w₀, hinitial, hrun⟩ := h
  exact ⟨w₀, hinitial, .tail e hrun hunforged⟩

def loginWorld : World :=
  letI := External.plain
  (start { users := [testUser] } 1).step (.call (.authenticateUser "testuser" "U*U" {}))

omit [External] in
theorem loginWorld_reachable : @Reachable External.plain loginWorld :=
  letI := External.plain
  (start_initial (by simp) (by simp [testUser]) (by simp) rfl).reachable.step
    (by simp [Unforged, Op.presented])

end World
end FastapiTemplate
