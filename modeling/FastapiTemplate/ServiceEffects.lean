import FastapiTemplate.AuthRoutes
import FastapiTemplate.UserAdmin
import FastapiTemplate.CallEffects

/-!
# What the services write

The areas of the data access and service functions that write, each from those of the
functions it calls.
-/

namespace FastapiTemplate

/-! ## Data access -/

section dao

theorem createUserOauth_writes (user : UserCreate) (info : GoogleUserInfo) :
    WritesOnly [.accounts] (UserDAO.createUserOauth user info) :=
  .bind (.bind (.write rfl (by simp)) (fun _ => .ofDb _)) (fun _ =>
    .bind (.bind (.write rfl (by simp)) (fun _ => .ofDb _)) (fun _ => .pure _))

theorem deleteUsers_writes (ids : List UserId) : WritesOnly [.removal] (UserDAO.deleteUsers ids) := by
  unfold UserDAO.deleteUsers
  split
  · exact .pure _
  · exact .bind (.write rfl (by simp)) (fun _ => .pure _)

theorem assignRoles_writes (user : UserId) (roleIds : List RoleId) :
    WritesOnly [.grants, .versions] (UserDAO.assignRoles user roleIds) := by
  unfold UserDAO.assignRoles
  split
  · exact .pure _
  · exact .bind (.write rfl (by simp)) (fun _ =>
      .bind (.write rfl (by simp)) (fun _ => .ofDb _))

theorem revokeUserSession_dao_writes (user : UserId) (jti : ℕ) :
    WritesOnly [.revocation] (UserDAO.revokeUserSession user jti) := by
  refine .bind (.write rfl (by simp)) (fun ttl => ?_)
  cases ttl with
  | none => exact .pure _
  | some ttl => exact .pure _

theorem insertPermissions_writes (role : RoleId) (permissionIds : List PermissionId) :
    WritesOnly [.grants] (RoleDAO.insertPermissions role permissionIds) := by
  unfold RoleDAO.insertPermissions
  split
  · exact .pure _
  · exact .bind (.write rfl (by simp)) (fun _ => .ofDb _)

theorem createRole_writes (roleCreate : RoleCreate) :
    WritesOnly [.grants] (RoleDAO.createRole roleCreate) := by
  refine .bind (.write rfl (by simp)) (fun inserted => .bind (.ofDb _) (fun role =>
    .bind (insertPermissions_writes _ _) (fun _ => .bind (.read rfl) (fun found => ?_))))
  cases found with
  | none => exact .raise _
  | some data => exact .pure _

theorem updateFields_writes (role : RoleId) (upd : RoleUpdate) :
    WritesOnly [.grants] (RoleDAO.updateFields role upd) := by
  unfold RoleDAO.updateFields
  split
  · exact .pure _
  · exact .bind (.write rfl (by simp)) (fun _ => .ofDb _)

theorem updateRole_writes (role : RoleId) (upd : RoleUpdate) :
    WritesOnly [.grants, .withdrawal, .versions] (RoleDAO.updateRole role upd) := by
  refine .bind ((updateFields_writes _ _).mono (by simp)) (fun _ => .bind ?_ (fun _ =>
    .bind (.write rfl (by simp)) (fun _ => .read rfl)))
  unfold RoleDAO.replacePermissions
  split
  · exact .pure _
  · exact .bind (.write rfl (by simp)) (fun _ => (insertPermissions_writes _ _).mono (by simp))

theorem deleteRoles_writes (ids : List RoleId) :
    WritesOnly [.withdrawal] (RoleDAO.deleteRoles ids) := by
  unfold RoleDAO.deleteRoles
  split
  · exact .pure _
  · exact .bind (.write rfl (by simp)) (fun _ => .pure _)

theorem getConfig_writes : WritesOnly [.config, .markers] SystemConfigDAO.getConfig := by
  have fetch : WritesOnly [.config, .markers] SystemConfigDAO.fetchConfig := by
    refine .bind (.read rfl) (fun row => ?_)
    cases row with
    | none => exact .write rfl (by simp)
    | some b => exact .pure _
  refine .bind (.redisGet _) (fun cached => ?_)
  split
  · exact .pure _
  · exact .bind fetch (fun _ => .bind (.redisSet (by simp [RedisKey.area]) _ _) (fun _ => .pure _))

theorem updateConfig_writes (enforceMfa : Option Bool) :
    WritesOnly [.config, .markers] (SystemConfigDAO.updateConfig enforceMfa) :=
  .bind (.write rfl (by simp)) (fun _ =>
    .bind (.redisDelete (by simp [RedisKey.area])) (fun _ => .pure _))

end dao

/-! ## Tokens and codes -/

section tokens

theorem verifyToken_writes {areas : List Area} (token : Jwt) (type : TokenTypes) :
    WritesOnly areas (verifyToken token type) := by
  refine .bind .now (fun now => ?_)
  split
  · exact .httpError _ _
  · split
    · exact .httpError _ _
    · split
      · exact .httpError _ _
      · refine .bind (.redisGet _) (fun found => ?_)
        cases found with
        | none => exact .pure _
        | some _ => exact .httpError _ _

theorem createToken_writes (data : TokenClaims) (expire : ℕ) (type : TokenTypes) :
    WritesOnly [.supply] (createToken data expire type) :=
  .bind (.draw (by simp)) (fun _ => .pure _)

theorem createAccessToken_writes (data : TokenClaims) :
    WritesOnly [.supply] (createAccessToken data) :=
  .bind .now (fun _ => createToken_writes _ _ _)

theorem createImpersonationToken_writes (data : TokenClaims) (expireMinutes : ℕ) :
    WritesOnly [.supply] (createImpersonationToken data expireMinutes) :=
  .bind .now (fun _ => createToken_writes _ _ _)

theorem createRefreshToken_writes (data : TokenClaims) :
    WritesOnly [.supply] (createRefreshToken data) :=
  .bind .now (fun _ => .bind (createToken_writes _ _ _) (fun _ => .pure _))

theorem createSudoToken_writes (data : TokenClaims) :
    WritesOnly [.supply] (createSudoToken data) :=
  .bind .now (fun _ => .bind (createToken_writes _ _ _) (fun _ => .pure _))

variable [External]

theorem decryptSecret_writes {areas : List Area} (encrypted : String) :
    WritesOnly areas (decryptSecret encrypted) := by
  unfold decryptSecret
  split
  · exact .pure _
  · exact .raise _

theorem verifyTotp_writes {areas : List Area} (secret code : String) :
    WritesOnly areas (verifyTotp secret code) :=
  .bind .now (fun _ => .pure _)

theorem verifyAndConsumeBackupCode_writes {areas : List Area} (codes : List BackupCodeRecord)
    (code : String) : WritesOnly areas (verifyAndConsumeBackupCode codes code) :=
  .bind .now (fun _ => .pure _)

theorem generateBackupCodes_writes (count : ℕ) :
    WritesOnly [.supply] (generateBackupCodes count) :=
  .bind (.draw (by simp)) (fun _ => .pure _)

end tokens

/-! ## The authentication service -/

namespace AuthService

theorem checkMfaEnforcement_writes (user : UserId) :
    WritesOnly [.config, .markers] (checkMfaEnforcement user) := by
  refine .bind getConfig_writes (fun enforceMfa => ?_)
  split
  · refine .bind (.read rfl) (fun found => ?_)
    cases found with
    | none => exact .httpError _ _
    | some record =>
      dsimp only
      split
      · exact .pure _
      · exact .httpError _ _
  · exact .pure _

theorem issueTokensAndSession_writes (user : UserData) (request : Request) :
    WritesOnly [.supply, .sessions] (issueTokensAndSession user request) :=
  .bind ((createAccessToken_writes _).mono (by simp)) (fun _ =>
    .bind ((createRefreshToken_writes _).mono (by simp)) (fun _ =>
      .bind .now (fun _ => .bind (.bind (.write rfl (by simp)) (fun _ => .ofDb _)) (fun _ => .pure _))))

variable [External]

theorem authenticateUser_writes (username password : String) (request : Request) :
    WritesOnly [.supply, .sessions, .challenges] (authenticateUser username password request) := by
  refine .bind (.read rfl) (fun found => ?_)
  cases found with
  | none => exact .httpError _ _
  | some user =>
    dsimp only
    split
    · exact .httpError _ _
    · refine .bind (.read rfl) (fun factor => ?_)
      split
      · exact .bind (.bind (.draw (by simp)) (fun _ =>
          .bind (.redisSet (by simp [RedisKey.area]) _ _) (fun _ => .pure _))) (fun _ => .pure _)
      · exact .bind ((issueTokensAndSession_writes _ _).mono (by simp)) (fun _ => .pure _)

omit [External] in
theorem refreshToken_writes (token : Jwt) (request : Request) :
    WritesOnly [.supply, .sessions, .config, .markers] (refreshToken token request) := by
  refine .bind (verifyToken_writes _ _) (fun data => .bind (.read rfl) (fun found => ?_))
  cases found with
  | none => exact .httpError _ _
  | some user =>
    dsimp only
    split
    · exact .httpError _ _
    · exact .bind ((checkMfaEnforcement_writes _).mono (by simp)) (fun _ =>
        (issueTokensAndSession_writes _ _).mono (by simp))

theorem generateUniqueUsername_writes (baseName : String) :
    WritesOnly [.supply] (generateUniqueUsername baseName) := by
  have loop (username : String) (attempts : ℕ) :
      WritesOnly [.supply] (findFreeUsername username attempts) := by
    induction attempts with
    | zero => exact .raise _
    | succ attempts ih =>
      refine .bind (.draw (by simp)) (fun seed => .bind (.read rfl) (fun found => ?_))
      cases found with
      | none => exact .pure _
      | some _ => exact ih
  refine .bind (.read rfl) (fun found => ?_)
  cases found with
  | none => exact .pure _
  | some _ => exact loop _ 100

theorem createGoogleUser_writes (info : GoogleUserInfo) :
    WritesOnly [.supply, .accounts] (createGoogleUser info) := by
  have email : WritesOnly [.supply, .accounts] (requireEmail info) := by
    unfold requireEmail
    split
    · exact .raise _
    · exact .pure _
  have localPart : WritesOnly [.supply, .accounts] (emailLocalPart info) :=
    .bind email (fun _ => .pure _)
  refine .bind ?_ (fun name => .bind ((generateUniqueUsername_writes _).mono (by simp))
    (fun username => .bind email (fun _ => ?_)))
  · unfold baseName
    split
    · exact localPart
    · split
      · exact localPart
      · exact .pure _
  · split
    · exact .raise _
    · exact (createUserOauth_writes _ _).mono (by simp)

theorem handleGoogleOauth_writes (info : GoogleUserInfo) :
    WritesOnly [.supply, .accounts] (handleGoogleOauth info) := by
  refine .bind (.read rfl) (fun bySub => ?_)
  cases bySub with
  | some user => exact .pure _
  | none =>
    dsimp only
    split
    · exact createGoogleUser_writes info
    · split
      · exact createGoogleUser_writes info
      · refine .bind (.read rfl) (fun byEmail => ?_)
        cases byEmail with
        | none => exact createGoogleUser_writes info
        | some user =>
          dsimp only
          split
          · exact .bind (.bind (.write rfl (by simp)) (fun _ => .ofDb _)) (fun _ => .pure _)
          · exact createGoogleUser_writes info

theorem createSudoTokenUser_writes (username password : String) :
    WritesOnly [.supply] (createSudoTokenUser username password) := by
  refine .bind (.read rfl) (fun found => ?_)
  cases found with
  | none => exact .httpError _ _
  | some user =>
    dsimp only
    split
    · exact .httpError _ _
    · exact .bind (createSudoToken_writes _) (fun _ => .pure _)

theorem updatePassword_writes (user : UserId) (password : String) :
    WritesOnly [.supply, .versions] (updatePassword user password) :=
  .bind (.bind (.draw (by simp)) (fun _ => .pure _)) (fun _ => .write rfl (by simp))

theorem initiateTwoFactorSetup_writes (user : UserData) :
    WritesOnly [.supply, .markers] (initiateTwoFactorSetup user) :=
  .bind (.bind (.draw (by simp)) (fun _ => .pure _)) (fun _ =>
    .bind (.bind (.draw (by simp)) (fun _ => .pure _)) (fun _ =>
      .bind (.redisSet (by simp [RedisKey.area]) _ _) (fun _ => .pure _)))

theorem confirmTwoFactorSetup_writes (user : UserData) (code : String) :
    WritesOnly [.supply, .factors, .markers] (confirmTwoFactorSetup user code) := by
  refine .bind (.redisGet _) (fun pending => ?_)
  split
  · refine .bind (decryptSecret_writes _) (fun secret => .bind (verifyTotp_writes _ _)
      (fun valid => ?_))
    split
    · exact .httpError _ _
    · exact .bind ((generateBackupCodes_writes 10).mono (by simp)) (fun _ =>
        .bind (.bind (.write rfl (by simp)) (fun _ => .ofDb _)) (fun _ =>
          .bind (.redisDelete (by simp [RedisKey.area])) (fun _ => .pure _)))
  · exact .httpError _ _

theorem requireCurrentCode_writes {areas : List Area} (record : UserTwoFactorData) (code : String) :
    WritesOnly areas (requireCurrentCode record code) := by
  refine .bind (decryptSecret_writes _) (fun secret => .bind (verifyTotp_writes _ _)
    (fun valid => ?_))
  split
  · exact .pure _
  · refine .bind (verifyAndConsumeBackupCode_writes _ _) (fun r => ?_)
    dsimp only
    split
    · exact .pure _
    · exact .httpError _ _

omit [External] in
theorem requireEnabled_writes {areas : List Area} (user : UserId) :
    WritesOnly areas (requireEnabled user) := by
  refine .bind (.read rfl) (fun found => ?_)
  cases found with
  | none => exact .httpError _ _
  | some record =>
    dsimp only
    split
    · exact .pure _
    · exact .httpError _ _

theorem disableTwoFactor_writes (user : UserData) (code : String) :
    WritesOnly [.factors] (disableTwoFactor user code) :=
  .bind (requireEnabled_writes _) (fun _ =>
    .bind (requireCurrentCode_writes _ _) (fun _ => .write rfl (by simp)))

theorem regenerateTwoFactorBackupCodes_writes (user : UserData) (code : String) :
    WritesOnly [.supply, .factors] (regenerateTwoFactorBackupCodes user code) :=
  .bind (requireEnabled_writes _) (fun _ => .bind (requireCurrentCode_writes _ _) (fun _ =>
    .bind ((generateBackupCodes_writes 10).mono (by simp)) (fun _ =>
      .bind (.write rfl (by simp)) (fun _ => .pure _))))

theorem verify2faCodeOrBackup_writes (user : UserId) (record : UserTwoFactorData) (code : String) :
    WritesOnly [.factors, .replays] (verify2faCodeOrBackup user record code) := by
  refine .bind (decryptSecret_writes _) (fun secret => .bind (verifyTotp_writes _ _)
    (fun valid => ?_))
  split
  · refine .bind .now (fun now => .bind (.redisGet _) (fun found => ?_))
    cases found with
    | none => exact .redisSet (by simp [RedisKey.area]) _ _
    | some _ => exact .httpError _ _
  · refine .bind (verifyAndConsumeBackupCode_writes _ _) (fun r => ?_)
    dsimp only
    split
    · exact .httpError _ _
    · exact .write rfl (by simp)

omit [External] in
theorem completeChallenge_writes (twoFactorToken : ℕ) (user : UserId) (request : Request) :
    WritesOnly [.supply, .sessions, .challenges] (completeChallenge twoFactorToken user request) := by
  refine .bind (.redisDelete (by simp [RedisKey.area])) (fun _ => .bind (.read rfl)
    (fun found => ?_))
  cases found with
  | none => exact .httpError _ _
  | some data => exact (issueTokensAndSession_writes _ _).mono (by simp)

theorem verifyTwoFactorChallenge_writes (twoFactorToken : ℕ) (code : String) (request : Request) :
    WritesOnly [.supply, .sessions, .factors, .replays, .challenges]
      (verifyTwoFactorChallenge twoFactorToken code request) := by
  refine .bind (.redisGet _) (fun found => ?_)
  split
  · exact .bind (requireEnabled_writes _) (fun _ =>
      .bind ((verify2faCodeOrBackup_writes _ _ _).mono (by simp)) (fun _ =>
        (completeChallenge_writes _ _ _).mono (by simp)))
  · exact .httpError _ _

omit [External] in
theorem impersonateUser_writes (admin : UserData) (target : UserId) (current : Option UserId)
    (durationMinutes : ℕ) :
    WritesOnly [.supply, .markers] (impersonateUser admin target current durationMinutes) := by
  unfold impersonateUser
  split
  · exact .httpError _ _
  · split
    · exact .httpError _ _
    · refine .bind (.read rfl) (fun found => ?_)
      cases found with
      | none => exact .httpError _ _
      | some targetUser =>
        dsimp only
        split
        · exact .httpError _ _
        · split
          · exact .httpError _ _
          · exact .bind ((createImpersonationToken_writes _ _).mono (by simp)) (fun _ =>
              .bind (.redisSet (by simp [RedisKey.area]) _ _) (fun _ => .pure _))

omit [External] in
theorem stopImpersonation_writes (jti : ℕ) :
    WritesOnly [.blacklist .access, .markers] (stopImpersonation jti) := by
  refine .bind (.redisSet (by simp [RedisKey.area]) _ _) (fun _ => .bind (.redisGet _)
    (fun found => ?_))
  cases found with
  | none => exact .pure _
  | some _ => exact .redisDelete (by simp [RedisKey.area])

end AuthService

/-! ## The user service and the routes -/

section routes

theorem updateUser_dao_writes (user : UserId) (upd : UserUpdate) :
    WritesOnly [.accounts] (UserDAO.updateUser user upd) :=
  .bind (.write rfl (by simp)) (fun _ => .bind (.ofDb _) (fun _ => .read rfl))

theorem updateUser_writes (user : UserId) (upd : UserUpdate) :
    WritesOnly [.accounts] (UserService.updateUser user upd) := by
  apply WritesOnly.bind (updateUser_dao_writes user upd)
  intro found
  cases found with
  | none => exact .raise _
  | some data => exact .pure _

theorem blacklistSession_writes (jti : ℕ) (ttl : ℤ) :
    WritesOnly [.blacklist .access, .blacklist .refresh] (UserService.blacklistSession jti ttl) :=
  .bind (.redisSet (by simp [RedisKey.area]) _ _) (fun _ =>
    .redisSet (by simp [RedisKey.area]) _ _)

theorem blacklistSessions_writes (rows : List (ℕ × ℤ)) :
    WritesOnly [.blacklist .access, .blacklist .refresh] (UserService.blacklistSessions rows) := by
  induction rows with
  | nil => exact .pure _
  | cons row rest ih =>
    unfold UserService.blacklistSessions
    split
    · exact .bind (blacklistSession_writes _ _) (fun _ => ih)
    · exact ih

theorem revokeUserSession_writes (user : UserId) (jti : ℕ) :
    WritesOnly [.revocation, .blacklist .access, .blacklist .refresh] (UserService.revokeUserSession user jti) := by
  refine .bind ((revokeUserSession_dao_writes _ _).mono (by simp)) (fun ttl => ?_)
  cases ttl with
  | none => exact .httpError _ _
  | some ttl => exact (blacklistSession_writes _ _).mono (by simp)

theorem revokeAllUserSessions_writes (user : UserId) :
    WritesOnly [.revocation, .blacklist .access, .blacklist .refresh] (UserService.revokeAllUserSessions user) :=
  .bind (.write rfl (by simp)) (fun _ => (blacklistSessions_writes _).mono (by simp))

theorem disallowImpersonation_writes {areas : List Area} (token : Jwt) :
    WritesOnly areas (disallowImpersonation token) := by
  refine .bind (verifyToken_writes _ _) (fun data => ?_)
  split
  · exact .httpError _ _
  · exact .pure _

theorem stopImpersonation_writes (header : Jwt) :
    WritesOnly [.blacklist .access, .markers] (stopImpersonation header) := by
  refine .bind (verifyToken_writes _ _) (fun data => ?_)
  split
  · exact .httpError _ _
  · exact AuthService.stopImpersonation_writes _

variable [External]

theorem createUser_writes (userIn : UserCreate) :
    WritesOnly [.supply, .accounts] (UserService.createUser userIn) := by
  unfold UserService.createUser
  split
  · exact .raise _
  · exact .bind (.bind (.draw (by simp)) (fun _ => .pure _)) (fun _ =>
      .bind (.write rfl (by simp)) (fun _ => .ofDb _))

theorem googleCallback_writes (state : Option ℕ) (exchange : Except Detail GoogleUserInfo)
    (request : Request) :
    WritesOnly [.supply, .accounts, .sessions, .oauthStates]
      (googleCallback state exchange request) := by
  unfold googleCallback
  split
  · exact .httpError _ _
  · refine .bind (.redisGet _) (fun found => ?_)
    cases found with
    | none => exact .httpError _ _
    | some _ =>
      refine .bind (.redisDelete (by simp [RedisKey.area])) (fun _ => ?_)
      split
      · exact .httpError _ _
      · exact .bind ((AuthService.handleGoogleOauth_writes _).mono (by simp)) (fun _ =>
          (AuthService.issueTokensAndSession_writes _ _).mono (by simp))

theorem googleSudoBody_writes (accessToken : Jwt) :
    WritesOnly [.supply] (googleSudoBody accessToken) := by
  refine .bind (.handle (.bind (verifyToken_writes _ _) (fun data => ?_)) (fun e => ?_)) (fun _ =>
    .bind (createSudoToken_writes _) (fun _ => .pure _))
  · unfold temporaryUserData
    split
    · exact .raise _
    · exact .pure _
  · cases e with
    | http => exact .httpError _ _
    | value => exact .httpError _ _
    | _ => exact .raise _

theorem googleSudoToken_writes (header accessToken : Jwt) :
    WritesOnly [.supply] (googleSudoToken header accessToken) :=
  .bind (disallowImpersonation_writes _) (fun _ => googleSudoBody_writes _)

theorem adminLogin_writes {areas : List Area} (username password : String) :
    WritesOnly areas (adminLogin username password) := by
  refine .bind (.bind (.read rfl) (fun byEmail => ?_)) (fun found => ?_)
  · cases byEmail with
    | none => exact .read rfl
    | some user => exact .pure _
  · cases found with
    | none => exact .raise _
    | some user =>
      dsimp only
      split
      · exact .raise _
      · split
        · exact .raise _
        · split
          · exact .raise _
          · split
            · exact .raise _
            · exact .pure _

theorem UserAdminView.edit_writes (pk : UserId) (form : UserAdminView.UserForm) :
    WritesOnly [.accounts] (UserAdminView.edit pk form) := by
  have hnotFound (user : Option UserData) :
      WritesOnly [.accounts] (UserAdminView.orNotFound pk user) := by
    cases user with
    | none => exact .raise _
    | some user => exact .pure _
  have hform : WritesOnly [.accounts] (UserAdminView.formUpdate form) := by
    unfold UserAdminView.formUpdate
    split
    · exact .raise _
    · exact .pure _
  unfold UserAdminView.edit
  apply WritesOnly.bind hform
  intro upd
  apply WritesOnly.bind (updateUser_dao_writes pk upd)
  intro found
  apply WritesOnly.bind (hnotFound found)
  intro user
  split
  · exact .bind (.ofDb _) (fun _ => .bind (.read rfl) hnotFound)
  · exact .pure _

omit [External] in
theorem UserAdminView.toggleActiveAction_writes (pk : UserId) :
    WritesOnly [.accounts] (UserAdminView.toggleActiveAction pk) := by
  apply WritesOnly.bind (.read rfl)
  intro found
  cases found with
  | none => exact .raise _
  | some user => exact .bind (updateUser_dao_writes _ _) (fun _ => .pure _)

end routes
end FastapiTemplate
