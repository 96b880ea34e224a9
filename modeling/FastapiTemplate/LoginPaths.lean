import FastapiTemplate.IssuedTokens

/-!
# The paths that issue a pair of tokens

Password login, challenge verification, Google callback and refresh, each shown to
have a `LoginEffect`: it ends in one login of a user that it has just read or
created, or leaves the sessions alone.
-/

namespace FastapiTemplate

variable {s t : State}

theorem wellFormed_of_exec {α : Type} {p : App α} {r : Except AppError α} (hwf : s.WellFormed)
    (h : p.exec s = (r, t)) : t.WellFormed := by
  have := exec_wellFormed p s hwf
  rwa [h] at this

/-! ## The account of a Google profile -/

/-- The existing account of a profile: the linked one, else the one with its verified email. -/
def Database.googleAccount (db : Database) (info : GoogleUserInfo) : Option UserData :=
  match db.selectUser (.googleSub info.sub) with
  | some user => some user
  | none =>
    match info.email with
    | none => none
    | some email =>
      if email ≠ "" ∧ info.emailVerified = true then db.selectUser (.email email) else none

theorem Database.googleAccount_eq_some {db : Database} {info : GoogleUserInfo} {user : UserData}
    (h : db.googleAccount info = some user) : ∃ w, db.selectUser w = some user := by
  unfold googleAccount at h
  split at h
  case h_1 found hfound =>
    cases h
    exact ⟨_, hfound⟩
  case h_2 =>
    split at h
    · cases h
    · split at h
      · exact ⟨_, h⟩
      · cases h

structure CreatedAfter (s t : State) (user : UserData) : Prop where
  fresh : s.nextId ≤ user.id
  lt : user.id < t.nextId
  roles : user.roles = []
  version : user.tokenVersion = 1

theorem createUserOauth_ok {userIn : UserCreate} {info : GoogleUserInfo} {user : UserData}
    (h : (UserDAO.createUserOauth userIn info).exec s = (.ok user, t)) : CreatedAfter s t user := by
  obtain ⟨created, u, hcreate, h⟩ := exec_bind_ok.mp h
  obtain ⟨_, v, hidentity, h⟩ := exec_bind_ok.mp h
  cases h
  rw [UserDAO.createUser, exec_ask_bind, exec_ofDb_ok] at hcreate
  obtain ⟨hrow, rfl⟩ := hcreate
  have hnext : s.nextId + 1 ≤ t.nextId := by
    have := exec_nextId (UserDAO.addIdentity user.id info)
      (handler (.insertUser userIn none) s).2
    rwa [hidentity] at this
  simp only [handler] at hrow
  rcases s.db.insertUser_cases s.nextId userIn none with ⟨e, hc⟩ | ⟨row, hid, hversion, -, hc⟩
  · rw [hc] at hrow
    cases hrow
  · rw [hc] at hrow
    cases hrow
    exact ⟨hid.ge, hid.trans_lt hnext, rfl, hversion⟩

theorem CreatedAfter.earlier {s₀ : State} {user : UserData} (h : CreatedAfter s t user)
    (hle : s₀.nextId ≤ s.nextId) : CreatedAfter s₀ t user :=
  ⟨hle.trans h.fresh, h.lt, h.roles, h.version⟩

theorem CreatedAfter.current {user : UserData} (h : CreatedAfter s t user) (hwf : t.WellFormed) :
    Current t (AuthService.sessionClaims user) := by
  refine .of_noScopes ⟨h.lt, fun u hu _ => ?_⟩ ?_
  · have := hwf.version_pos u hu
    simpa [AuthService.sessionClaims, h.version] using this
  · simp [AuthService.sessionClaims, AuthService.getUserScopes, h.roles]

variable [External]

theorem createGoogleUser_ok {info : GoogleUserInfo} {user : UserData}
    (h : (AuthService.createGoogleUser info).exec s = (.ok user, t)) : CreatedAfter s t user := by
  obtain ⟨name, u, hname, h⟩ := exec_bind_ok.mp h
  obtain ⟨username, v, husername, h⟩ := exec_bind_ok.mp h
  obtain ⟨email, w, hemail, h⟩ := exec_bind_ok.mp h
  have hle : s.nextId ≤ w.nextId := by
    have h1 := exec_nextId (AuthService.baseName info) s
    have h2 := exec_nextId (AuthService.generateUniqueUsername name) u
    have h3 := exec_nextId (AuthService.requireEmail info) v
    rw [hname] at h1
    rw [husername] at h2
    rw [hemail] at h3
    exact h1.trans (h2.trans h3)
  split at h
  · cases h
  · exact (createUserOauth_ok h).earlier hle

/-- The callback's user is the existing account of the profile, or a new one if there is none. -/
theorem handleGoogleOauth_ok {info : GoogleUserInfo} {user : UserData}
    (h : (AuthService.handleGoogleOauth info).exec s = (.ok user, t)) :
    s.db.googleAccount info = some user ∨
      s.db.googleAccount info = none ∧ CreatedAfter s t user := by
  rw [AuthService.handleGoogleOauth, UserDAO.getByGoogleSub, exec_ask_bind] at h
  simp only [handler] at h
  unfold Database.googleAccount
  cases hsub : s.db.selectUser (.googleSub info.sub) with
  | some found =>
    rw [hsub] at h
    cases h
    exact .inl rfl
  | none =>
    rw [hsub] at h
    dsimp only at h ⊢
    cases hemail : info.email with
    | none =>
      rw [hemail] at h
      exact .inr ⟨rfl, createGoogleUser_ok h⟩
    | some email =>
      rw [hemail] at h
      dsimp only at h ⊢
      split at h
      case isTrue he => exact .inr ⟨by simp [he], createGoogleUser_ok h⟩
      case isFalse he =>
        rw [UserDAO.getByEmail, exec_ask_bind] at h
        simp only [handler] at h
        cases hfound : s.db.selectUser (.email email) with
        | none =>
          rw [hfound] at h
          exact .inr ⟨by simp, createGoogleUser_ok h⟩
        | some found =>
          rw [hfound] at h
          dsimp only at h
          split at h
          case isTrue hv =>
            obtain ⟨_, u, _, h⟩ := exec_bind_ok.mp h
            cases h
            exact .inl (by simp [he, hv])
          case isFalse hv => exact .inr ⟨by simp [hv], createGoogleUser_ok h⟩

theorem handleGoogleOauth_current {info : GoogleUserInfo} {user : UserData} (hwf : s.WellFormed)
    (h : (AuthService.handleGoogleOauth info).exec s = (.ok user, t)) :
    Current t (AuthService.sessionClaims user) := by
  have hsafe : PrivilegeSafe s t := by
    have := (AuthService.handleGoogleOauth_writes info).exec_privilegeSafe (by simp) s
    rwa [h] at this
  rcases handleGoogleOauth_ok h with hfound | ⟨-, hcreated⟩
  · obtain ⟨w, hw⟩ := Database.googleAccount_eq_some hfound
    exact (selectUser_current hwf hw).mono hsafe
  · exact hcreated.current (wellFormed_of_exec hwf h)

/-! ## Effects of the paths -/

def AuthService.LoginResult.pair : AuthService.LoginResult → Option LoginResponse
  | .loggedIn r => some r
  | .challenge _ => none

omit [External] in
/-- A login that issued tokens, as an effect on its pair. -/
theorem LoginEffect.loggedIn {r : LoginResponse}
    (h : LoginEffect AuthService.LoginResult.pair s (.ok (.loggedIn r)) t) :
    LoginEffect some s (.ok r) t := by
  cases h with
  | issued user request hquiet hcurrent hpair hrow =>
    exact .issued user request hquiet hcurrent hpair hrow
  | quiet hpair _ => exact absurd (hpair _ rfl) (by simp [AuthService.LoginResult.pair])

theorem authenticateUser_effect (hwf : s.WellFormed) (username password : String)
    (request : Request) :
    LoginEffect AuthService.LoginResult.pair s
      ((AuthService.authenticateUser username password request).exec s).1
      ((AuthService.authenticateUser username password request).exec s).2 := by
  refine .read rfl ?_
  simp only [handler]
  cases hfound : s.db.selectUser (.username username) with
  | none => exact .error _ (.refl s)
  | some user =>
    dsimp only
    split
    · exact .error _ (.refl s)
    · refine .read rfl ?_
      split
      · refine .quiet (fun a ha => ?_) ?_
        · obtain ⟨_, _, h⟩ := exec_map_ok.mp (Prod.ext ha rfl)
          rw [← h]
          rfl
        · exact (WritesOnly.bind (.bind (.draw (by simp)) (fun _ => .bind
            (@WritesOnly.redisSet [.supply, .challenges] _ (by simp [RedisKey.area]) _ _)
            (fun _ => .pure _))) (fun _ => .pure _)).exec_quiet (by simp) s
      · exact .map (fun _ => rfl)
          (issueTokensAndSession_effect request (selectUser_current hwf hfound))

omit [External] in
theorem refreshToken_effect (hwf : s.WellFormed) (token : Jwt) (request : Request) :
    LoginEffect some s ((AuthService.refreshToken token request).exec s).1
      ((AuthService.refreshToken token request).exec s).2 := by
  refine .bind ((@verifyToken_writes [] _ _).exec_quiet (by simp) s)
    (fun data u hu => ?_)
  have hwfu := wellFormed_of_exec hwf hu
  refine .read rfl ?_
  simp only [handler]
  cases hfound : u.db.selectUser (.id data.id) with
  | none => exact .error _ (.refl u)
  | some user =>
    dsimp only
    split
    · exact .error _ (.refl u)
    · have hcheck := (AuthService.checkMfaEnforcement_writes user.id).exec_quiet (by simp) u
      refine .bind hcheck (fun _ v hv => issueTokensAndSession_effect request ?_)
      rw [hv] at hcheck
      exact (selectUser_current hwfu hfound).mono hcheck.safe

omit [External] in
theorem completeChallenge_effect (hwf : s.WellFormed) (twoFactorToken : ℕ) (user : UserId)
    (request : Request) :
    LoginEffect some s ((AuthService.completeChallenge twoFactorToken user request).exec s).1
      ((AuthService.completeChallenge twoFactorToken user request).exec s).2 := by
  refine .bind ((@WritesOnly.redisDelete [.challenges] _ (by simp [RedisKey.area])).exec_quiet
    (by simp) s) (fun _ u hu => ?_)
  have hwfu := wellFormed_of_exec hwf hu
  refine .read rfl ?_
  simp only [handler]
  cases hfound : u.db.selectUser (.id user) with
  | none => exact .error _ (.refl u)
  | some data => exact issueTokensAndSession_effect request (selectUser_current hwfu hfound)

theorem verifyTwoFactorChallenge_effect (hwf : s.WellFormed) (twoFactorToken : ℕ) (code : String)
    (request : Request) :
    LoginEffect some s
      ((AuthService.verifyTwoFactorChallenge twoFactorToken code request).exec s).1
      ((AuthService.verifyTwoFactorChallenge twoFactorToken code request).exec s).2 := by
  refine .read rfl ?_
  split
  · refine .bind ((@AuthService.requireEnabled_writes [] _).exec_quiet (by simp) s)
      (fun record u hu => ?_)
    refine .bind ((AuthService.verify2faCodeOrBackup_writes _ _ _).exec_quiet (by simp) u)
      (fun _ v hv => ?_)
    exact completeChallenge_effect (wellFormed_of_exec (wellFormed_of_exec hwf hu) hv) _ _ _
  · exact .error _ (.refl s)

theorem googleCallback_effect (hwf : s.WellFormed) (state : Option ℕ)
    (exchange : Except Detail GoogleUserInfo) (request : Request) :
    LoginEffect some s ((googleCallback state exchange request).exec s).1
      ((googleCallback state exchange request).exec s).2 := by
  unfold googleCallback
  split
  · exact .error _ (.refl s)
  · refine .read rfl ?_
    split
    · exact .error _ (.refl s)
    · refine .bind ((@WritesOnly.redisDelete [.oauthStates] _
        (by simp [RedisKey.area])).exec_quiet (by simp) s) (fun _ u hu => ?_)
      split
      · exact .error _ (.refl u)
      · refine .bind ((AuthService.handleGoogleOauth_writes _).exec_quiet (by simp) u)
          (fun user v hv => ?_)
        exact issueTokensAndSession_effect request
          (handleGoogleOauth_current (wellFormed_of_exec hwf hu) hv)

end FastapiTemplate
