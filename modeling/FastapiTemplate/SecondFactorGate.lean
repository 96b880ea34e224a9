import FastapiTemplate.SecondFactor
import FastapiTemplate.TokenLedger

/-!
# The second factor at login

Four paths log a user in. The password login hands out a challenge instead of
tokens when the second factor is enabled, and the challenge is answered only with
an accepted code. The Google callback and the login of the admin portal do not look
at the second factor at all: a run is gated exactly if neither of them lets in a
user whose second factor is enabled.
-/

namespace FastapiTemplate

variable {s t : State}

/-! ## What the paths let in -/

theorem issueTokensAndSession_user {user : UserData} {request : Request} {r : LoginResponse}
    (h : (AuthService.issueTokensAndSession user request).exec s = (.ok r, t)) : r.user = user := by
  rw [issueTokensAndSession_exec] at h
  split at h
  · cases h
    rfl
  · cases h

theorem issueTokensAndSession_isOk {user : UserData} {request : Request}
    (hagent : (request.userAgent.getD "").length ≤ 255) (huser : ∃ u ∈ s.db.users, u.id = user.id) :
    (AuthService.issueTokensAndSession user request).exec s =
      (.ok (loginResponse user s.clock s.nextId), s.afterLogin user request) := by
  have hrow : (s.db.upsertUserSession (loginRow user s.clock s.nextId request)).1 = .ok () := by
    obtain ⟨u, hu, hid⟩ := huser
    unfold Database.upsertUserSession
    rw [if_neg (by simpa [loginRow] using hagent), if_neg]
    · split_ifs <;> rfl
    · simp only [loginRow, List.all_eq_true, not_forall]
      exact ⟨u, hu, by simp [hid]⟩
  rw [issueTokensAndSession_exec, hrow]

variable [External]

/-- A password login issues tokens only to a user whose second factor is not enabled. -/
theorem authenticateUser_loggedIn {username password : String} {request : Request}
    {r : LoginResponse}
    (h : (AuthService.authenticateUser username password request).exec s = (.ok (.loggedIn r), t)) :
    ¬ s.db.TwoFactorEnabled r.user.id := by
  rw [AuthService.authenticateUser, UserDAO.getByUsername, exec_ask_bind] at h
  simp only [handler] at h
  cases hfound : s.db.selectUser (.username username) with
  | none =>
    rw [hfound] at h
    cases h
  | some user =>
    rw [hfound] at h
    dsimp only at h
    split at h
    · cases h
    · rw [UserDAO.getTwoFactor, exec_ask_bind] at h
      split at h
      case isTrue =>
        obtain ⟨_, -, hchallenge⟩ := exec_map_ok.mp h
        cases hchallenge
      case isFalse hdisabled =>
        obtain ⟨response, hissue, hresponse⟩ := exec_map_ok.mp h
        cases hresponse
        rw [issueTokensAndSession_user hissue]
        rintro ⟨record, hrecord, henabled⟩
        simp [handler, hrecord, henabled] at hdisabled

theorem verifyTwoFactorChallenge_ok {twoFactorToken : ℕ} {code : String} {request : Request}
    {r : LoginResponse}
    (h : (AuthService.verifyTwoFactorChallenge twoFactorToken code request).exec s = (.ok r, t)) :
    s.redis.get s.clock (.twoFactorChallenge twoFactorToken) = some (.userId r.user.id) ∧
      ∃ record, s.db.selectTwoFactor r.user.id = some record ∧
        AcceptsCode s.clock record (strip code) := by
  rw [AuthService.verifyTwoFactorChallenge, Redis.get, exec_ask_bind] at h
  simp only [handler] at h
  split at h
  case h_1 user hchallenge =>
    obtain ⟨record, u, hrecord, hrest⟩ := exec_bind_ok.mp h
    obtain ⟨rfl, hfound, -⟩ := requireEnabled_ok.mp hrecord
    obtain ⟨_, v, hcode, hcomplete⟩ := exec_bind_ok.mp hrest
    obtain ⟨_, x, -, hissue⟩ := exec_bind_ok.mp hcomplete
    rw [UserDAO.getById, exec_ask_bind] at hissue
    simp only [handler] at hissue
    cases huser : x.db.selectUser (.id user) with
    | none =>
      rw [huser] at hissue
      cases hissue
    | some data =>
      rw [huser] at hissue
      obtain ⟨u', -, hmatch, rfl⟩ := selectUser_eq_some huser
      have hid : (x.db.userData u').id = user := of_decide_eq_true hmatch
      rw [issueTokensAndSession_user hissue, hid]
      exact ⟨hchallenge, record, hfound, verify2faCodeOrBackup_ok hcode⟩
  case h_2 => cases h

/-! ## The admin portal -/

def Database.adminAccount (db : Database) (username : String) : Option UserData :=
  (db.selectUser (.email username)).or (db.selectUser (.username username))

structure AdminSignIn (s : State) (username password : String) (user : UserData) : Prop where
  account : s.db.adminAccount username = some user
  hashed : user.hashedPassword.getD "" ≠ ""
  password : verifyPassword password user.hashedPassword = true
  active : user.isActive = true
  role : user.roles.any (·.name = "Super Admin") = true

omit [External] in
theorem findByEmailOrUsername_exec (username : String) (s : State) :
    (findByEmailOrUsername username).exec s = (.ok (s.db.adminAccount username), s) := by
  rw [findByEmailOrUsername, UserDAO.getByEmail, exec_ask_bind]
  unfold Database.adminAccount
  simp only [handler]
  cases s.db.selectUser (.email username) with
  | none => rfl
  | some user => rfl

theorem adminLogin_ok_iff {username password : String} {user : UserData} :
    (adminLogin username password).exec s = (.ok user, t) ↔
      t = s ∧ AdminSignIn s username password user := by
  rw [adminLogin, exec_bind_of_ok (findByEmailOrUsername_exec username s)]
  constructor
  · intro h
    cases haccount : s.db.adminAccount username with
    | none =>
      rw [haccount] at h
      cases h
    | some found =>
      rw [haccount] at h
      dsimp only at h
      split_ifs at h with hhash hpassword hactive hrole
      · cases h
      · cases h
        exact ⟨rfl, haccount, hhash, hpassword, hactive, hrole⟩
      · cases h
      · cases h
      · cases h
  · rintro ⟨rfl, haccount, hhash, hpassword, hactive, hrole⟩
    rw [haccount]
    simp only [hhash, hpassword, hactive, hrole, not_true_eq_false, if_false]
    rfl

/-! ## The Google callback -/

/-- The account is linked to the profile, or can be. -/
def Database.Links (db : Database) (info : GoogleUserInfo) (user : UserId) : Prop :=
  db.selectUser (.googleSub info.sub) = none → (db.insertIdentity user info).1 = .ok ()

/-- All that the callback asks for when the profile is that of an existing account. -/
structure GoogleSignIn (s : State) (state : Option ℕ) (exchange : Except Detail GoogleUserInfo)
    (request : Request) (user : UserData) : Prop where
  state : ∃ n, state = some n ∧ s.redis.get s.clock (.oauthStateGoogle n) ≠ none
  account : ∃ info, exchange = .ok info ∧ s.db.googleAccount info = some user ∧
    s.db.Links info user.id
  agent : (request.userAgent.getD "").length ≤ 255

theorem handleGoogleOauth_existing {info : GoogleUserInfo} {user : UserData}
    (h : s.db.googleAccount info = some user) :
    (s.db.Links info user.id → ∃ t, (AuthService.handleGoogleOauth info).exec s = (.ok user, t) ∧
        t.db.users = s.db.users) ∧
      ∀ r t, (AuthService.handleGoogleOauth info).exec s = (.ok r, t) → s.db.Links info user.id := by
  rw [AuthService.handleGoogleOauth, UserDAO.getByGoogleSub, exec_ask_bind]
  unfold Database.googleAccount at h
  unfold Database.Links
  simp only [handler]
  cases hsub : s.db.selectUser (.googleSub info.sub) with
  | some found =>
    rw [hsub] at h
    cases h
    exact ⟨fun _ => ⟨s, rfl, rfl⟩, fun _ _ _ hnone => by cases hnone⟩
  | none =>
    rw [hsub] at h
    dsimp only at h
    cases hemail : info.email with
    | none =>
      rw [hemail] at h
      cases h
    | some email =>
      rw [hemail] at h
      dsimp only at h ⊢
      split_ifs at h with hverified
      rw [if_neg hverified.1, UserDAO.getByEmail, exec_ask_bind]
      simp only [handler, h, hverified.2, if_true]
      constructor
      · intro hlinks
        have hidentity : (UserDAO.addIdentity user.id info).exec s =
            (.ok (), s.setDb (s.db.insertIdentity user.id info).2) := by
          rw [UserDAO.addIdentity, exec_ask_bind, exec_ofDb_ok]
          exact ⟨hlinks trivial, rfl⟩
        rw [exec_bind_of_ok hidentity]
        refine ⟨_, rfl, ?_⟩
        rcases s.db.insertIdentity_cases user.id info with ⟨e, hc⟩ | ⟨rows, hc⟩ <;> rw [hc] <;> rfl
      · intro r t hok _
        obtain ⟨_, u, hidentity, -⟩ := exec_bind_ok.mp hok
        rw [UserDAO.addIdentity, exec_ask_bind, exec_ofDb_ok] at hidentity
        exact hidentity.1

omit [External] in
theorem issueTokensAndSession_agent {user : UserData} {request : Request} {r : LoginResponse}
    (h : (AuthService.issueTokensAndSession user request).exec s = (.ok r, t)) :
    (request.userAgent.getD "").length ≤ 255 := by
  rw [issueTokensAndSession_exec] at h
  by_contra hlong
  rw [Database.upsertUserSession, if_pos (by simpa [loginRow] using hlong)] at h
  cases h

/-- A callback that succeeds has signed an existing account in or created a new one. -/
theorem googleCallback_ok {state : Option ℕ} {exchange : Except Detail GoogleUserInfo}
    {request : Request} {r : LoginResponse}
    (h : (googleCallback state exchange request).exec s = (.ok r, t)) :
    GoogleSignIn s state exchange request r.user ∨ s.nextId ≤ r.user.id := by
  unfold googleCallback at h
  cases state with
  | none => cases h
  | some n =>
    dsimp only at h
    rw [Redis.get, exec_ask_bind] at h
    simp only [handler] at h
    cases hmarker : s.redis.get s.clock (.oauthStateGoogle n) with
    | none =>
      rw [hmarker] at h
      cases h
    | some v =>
      rw [hmarker, Redis.delete] at h
      dsimp only at h
      rw [exec_ask_bind] at h
      cases exchange with
      | error detail => cases h
      | ok info =>
        obtain ⟨user, u, huser, hissue⟩ := exec_bind_ok.mp h
        rw [issueTokensAndSession_user hissue]
        rcases handleGoogleOauth_ok huser with hfound | ⟨-, hcreated⟩
        · exact .inl ⟨⟨n, rfl, by rw [hmarker]; simp⟩,
            ⟨info, rfl, hfound, (handleGoogleOauth_existing hfound).2 _ _ huser⟩,
            issueTokensAndSession_agent hissue⟩
        · exact .inr hcreated.fresh

theorem googleCallback_signIn {state : Option ℕ} {exchange : Except Detail GoogleUserInfo}
    {request : Request} {user : UserData} (h : GoogleSignIn s state exchange request user) :
    ∃ r, ((googleCallback state exchange request).exec s).1 = .ok r ∧ r.user = user := by
  obtain ⟨⟨n, rfl, hmarker⟩, ⟨info, rfl, haccount, hlinks⟩, hagent⟩ := h
  obtain ⟨w, hw⟩ := Database.googleAccount_eq_some haccount
  obtain ⟨u, hu, -, rfl⟩ := selectUser_eq_some hw
  let deleted : State := { s with redis := s.redis.delete (.oauthStateGoogle n) }
  obtain ⟨t, hoauth, husers⟩ := (handleGoogleOauth_existing (s := deleted) haccount).1 hlinks
  have hissue : (AuthService.issueTokensAndSession (s.db.userData u) request).exec t = _ :=
    issueTokensAndSession_isOk hagent ⟨u, husers ▸ hu, rfl⟩
  have hexec : (googleCallback (some n) (.ok info) request).exec s =
      (.ok (loginResponse (s.db.userData u) t.clock t.nextId),
        t.afterLogin (s.db.userData u) request) := by
    unfold googleCallback
    dsimp only
    rw [Redis.get, exec_ask_bind]
    simp only [handler]
    cases hget : s.redis.get s.clock (.oauthStateGoogle n) with
    | none => exact absurd hget hmarker
    | some v =>
      dsimp only
      rw [Redis.delete, exec_ask_bind]
      exact (exec_bind_of_ok hoauth).trans hissue
  exact ⟨_, congrArg Prod.fst hexec, rfl⟩

/-! ## The gate -/

omit [External] in
theorem not_enabled_of_fresh (hwf : s.WellFormed) {user : UserId} (h : s.nextId ≤ user) :
    ¬ s.db.TwoFactorEnabled user := by
  rintro ⟨record, hrecord, -⟩
  have hid : record.userId = user := by
    have hmatch := List.find?_some hrecord
    exact of_decide_eq_true hmatch
  have hlt := hwf.factorId_lt record (List.mem_of_find?_eq_some hrecord)
  exact absurd (hid ▸ hlt) (Nat.not_lt.mpr h)

def Response.admitted : Response → Option UserId
  | .loggedIn r => some r.user.id
  | .adminSession data => some data.id
  | _ => none

/-- The four login paths. -/
def Op.isLogin : Op → Bool
  | .googleCallback .. => true
  | .authenticateUser .. => true
  | .verifyTwoFactorChallenge .. => true
  | .adminLogin .. => true
  | _ => false

def Op.CodeAccepted (s : State) (user : UserId) : Op → Prop
  | .verifyTwoFactorChallenge twoFactorToken code _ =>
    s.redis.get s.clock (.twoFactorChallenge twoFactorToken) = some (.userId user) ∧
      ∃ record, s.db.selectTwoFactor user = some record ∧ AcceptsCode s.clock record (strip code)
  | _ => False

namespace World

/-- If the step is a login of a user whose second factor is enabled, a code was accepted in it. -/
def Gated (w : World) : Event → Prop
  | .advance _ => True
  | .call op => op.isLogin = true → ∀ r user, (op.program.exec w.state).1 = .ok r →
      r.admitted = some user → w.state.db.TwoFactorEnabled user → op.CodeAccepted w.state user

/-- The callback or the admin portal signs in a user whose second factor is enabled. -/
def SkipsFactor (w : World) : Event → Prop
  | .call (.googleCallback state exchange request) =>
    ∃ user, GoogleSignIn w.state state exchange request user ∧
      w.state.db.TwoFactorEnabled user.id
  | .call (.adminLogin username password) =>
    ∃ user, AdminSignIn w.state username password user ∧ w.state.db.TwoFactorEnabled user.id
  | _ => False

theorem gated_iff {w : World} (hwf : w.state.WellFormed) (e : Event) :
    Gated w e ↔ ¬ SkipsFactor w e := by
  cases e with
  | advance d => simp [Gated, SkipsFactor]
  | call op =>
    cases op with
    | googleCallback state exchange request =>
      constructor
      · rintro hgated ⟨user, hsignIn, henabled⟩
        obtain ⟨r, hr, huser⟩ := googleCallback_signIn hsignIn
        exact hgated rfl (.loggedIn r) user.id
          (congrArg Prod.fst (exec_map_ok.mpr ⟨r, Prod.ext hr rfl, rfl⟩)) (by rw [← huser]; rfl)
          henabled
      · intro hspares _ r user hok hadmitted henabled
        obtain ⟨l, hl, rfl⟩ := exec_map_ok.mp (Prod.ext hok rfl)
        cases hadmitted
        rcases googleCallback_ok hl with hsignIn | hfresh
        · exact hspares ⟨l.user, hsignIn, henabled⟩
        · exact not_enabled_of_fresh hwf hfresh henabled
    | adminLogin username password =>
      constructor
      · rintro hgated ⟨user, hsignIn, henabled⟩
        have hok := adminLogin_ok_iff.mpr ⟨rfl, hsignIn⟩
        exact hgated rfl (.adminSession user) user.id
          (congrArg Prod.fst (exec_map_ok.mpr ⟨user, hok, rfl⟩)) rfl henabled
      · intro hspares _ r user hok hadmitted henabled
        obtain ⟨l, hl, rfl⟩ := exec_map_ok.mp (Prod.ext hok rfl)
        cases hadmitted
        exact hspares ⟨l, (adminLogin_ok_iff.mp hl).2, henabled⟩
    | authenticateUser username password request =>
      refine ⟨fun _ => id, fun _ _ r user hok hadmitted henabled => ?_⟩
      obtain ⟨l, hl, rfl⟩ := exec_map_ok.mp (Prod.ext hok rfl)
      cases l with
      | challenge token => cases hadmitted
      | loggedIn l =>
        cases hadmitted
        exact authenticateUser_loggedIn hl henabled
    | verifyTwoFactorChallenge twoFactorToken code request =>
      refine ⟨fun _ => id, fun _ _ r user hok hadmitted _ => ?_⟩
      obtain ⟨l, hl, rfl⟩ := exec_map_ok.mp (Prod.ext hok rfl)
      cases hadmitted
      exact verifyTwoFactorChallenge_ok hl
    | _ => exact ⟨fun _ => id, fun _ hlogin => by cases hlogin⟩

/-- The second factor is skipped nowhere in a run exactly if no step of it signs in a user whose
second factor is enabled through the Google callback or the admin portal. -/
theorem everyLogin_gated_iff {w₀ : World} (hinitial : Initial w₀) {events : List Event}
    (hunforged : EveryStep step Unforged w₀ events) :
    EveryStep step Gated w₀ events ↔ EveryStep step (fun w e => ¬ SkipsFactor w e) w₀ events :=
  hunforged.congr hinitial.tokenLedger (fun _ _ hok hledger => hledger.step hok)
    (fun _ e _ hledger => gated_iff hledger.wellFormed e)

def twoFactorTables : Database where
  users := [testUser]
  userIdentities := [⟨0, "google", "sub", some "test@example.com", true⟩]
  userTwoFactor := [⟨0, true, "GEZDGNBVGY3TQOJQGEZDGNBVGY3TQOJQ", [{ codeHash := "AAAABBBB" }]⟩]
  roles := [⟨1, "Super Admin", none⟩]
  userRoles := [(0, 1)]

omit [External] in
theorem twoFactorTables_initial : Initial (start twoFactorTables 2) :=
  start_initial (by simp [twoFactorTables]) (by simp [twoFactorTables, testUser])
    (by simp [twoFactorTables]) rfl

def challengeLogin : List Event :=
  [.call (.authenticateUser "testuser" "U*U" {}), .call (.verifyTwoFactorChallenge 2 "755224" {})]

omit [External] in
theorem everyLogin_gated_challengeLogin :
    letI := External.plain
    (run step (start twoFactorTables 2) challengeLogin).logins.length = 1 ∧
      EveryStep step Gated (start twoFactorTables 2) challengeLogin := by
  let _ := External.plain
  have hunforged : EveryStep step Unforged (start twoFactorTables 2) challengeLogin := by
    simp [challengeLogin, Unforged, Op.presented]
  exact ⟨rfl, (everyLogin_gated_iff twoFactorTables_initial hunforged).mpr
    (by simp [challengeLogin, SkipsFactor])⟩

omit [External] in
/-- Both the callback and the admin portal let the user in without a code. -/
theorem everyLogin_not_gated :
    letI := External.plain
    let info : GoogleUserInfo := ⟨"sub", some "test@example.com", true, none⟩
    Initial (start twoFactorTables 2) ∧
      ¬ EveryStep step Gated (start twoFactorTables 2)
        [.call .googleLogin, .call (.googleCallback (some 2) (.ok info) {})] ∧
      ¬ EveryStep step Gated (start twoFactorTables 2)
        [.call (.adminLogin "testuser" "U*U")] := by
  refine ⟨twoFactorTables_initial, fun h => ?_, fun h => ?_⟩
  · exact h.2.1 rfl _ 0 rfl rfl (by decide)
  · exact h.1 rfl _ 0 rfl rfl (by decide)

end World
end FastapiTemplate
