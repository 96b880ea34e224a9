import FastapiTemplate.TokenLedger

/-!
# Entry points that take a token

Each entry point verifies the token and then decides by itself what else to check.
Most of them compare the version of the token with the stored one, after which the
token `Vouches` for its user; the notification stream does not.
-/

namespace FastapiTemplate

variable {s t : State}

/-- What `verifyToken` hands on about the token. -/
theorem verifyToken_reads {token : Jwt} {type : TokenTypes} {data : TokenData}
    (h : (verifyToken token type).exec s = (.ok data, t)) :
    t = s ∧ token.userId = some data.id ∧ token.tokenVersion = data.tokenVersion ∧
      token.scopes = data.scopes ∧ token.isImpersonation = data.isImpersonation := by
  obtain ⟨rfl, payload, keys, rfl, hkeys, -, -, rfl⟩ := verifyToken_ok h
  exact ⟨rfl, (requiredKeys_eq_some hkeys).2.1, rfl, rfl, rfl⟩

/-- The token was accepted for its type, and the version of its user is that of the token. -/
structure Vouches (s : State) (token : Jwt) (type : TokenTypes) (user : UserData) : Prop where
  accepted : Accepted s token type
  stored : ∃ u ∈ s.db.users, user = s.db.userData u
  id : token.userId = some user.id
  version : user.tokenVersion = token.tokenVersion

theorem selectUser_id {db : Database} {id : UserId} {user : UserData}
    (h : db.selectUser (.id id) = some user) :
    user.id = id ∧ ∃ u ∈ db.users, user = db.userData u := by
  obtain ⟨u, hu, hmatch, rfl⟩ := selectUser_eq_some h
  exact ⟨of_decide_eq_true hmatch, u, hu, rfl⟩

theorem selectUser_of_mem (hwf : s.WellFormed) {u : UserRow} (hu : u ∈ s.db.users) {id : UserId}
    (hid : u.id = id) : s.db.selectUser (.id id) = some (s.db.userData u) := by
  cases hfind : s.db.users.find? (s.db.matchesUser (.id id)) with
  | none =>
    have hnot := List.find?_eq_none.mp hfind u hu
    simp [Database.matchesUser, hid] at hnot
  | some v =>
    have hmatch := List.find?_some hfind
    have hv : v.id = id := of_decide_eq_true hmatch
    have huv : v = u := List.inj_on_of_nodup_map hwf.nodup (List.mem_of_find?_eq_some hfind) hu
      (hv.trans hid.symm)
    rw [Database.selectUser, hfind, huv]
    rfl

theorem getUserById_ok {id : UserId} {user : UserData}
    (h : (UserService.getUserById id).exec s = (.ok user, t)) :
    t = s ∧ s.db.selectUser (.id id) = some user := by
  rw [UserService.getUserById, UserDAO.getById, exec_ask_bind] at h
  simp only [handler] at h
  cases hfound : s.db.selectUser (.id id) with
  | none =>
    rw [hfound] at h
    cases h
  | some found =>
    rw [hfound] at h
    cases h
    exact ⟨rfl, rfl⟩

theorem vouches_of_checks {token : Jwt} {type : TokenTypes} {data : TokenData} {user : UserData}
    (hdata : (verifyToken token type).exec s = (.ok data, t))
    (huser : s.db.selectUser (.id data.id) = some user)
    (hversion : user.tokenVersion = data.tokenVersion) : Vouches s token type user := by
  obtain ⟨-, hid, htoken, -⟩ := verifyToken_reads hdata
  obtain ⟨hfound, hstored⟩ := selectUser_id huser
  exact ⟨⟨data, congrArg Prod.fst hdata⟩, hstored, by rw [hid, hfound], hversion.trans htoken.symm⟩

theorem getCurrentUser_ok {scopes : List String} {token : Jwt} {current : CurrentUser}
    (h : (getCurrentUser scopes token).exec s = (.ok current, t)) :
    t = s ∧ Vouches s token .access current.user ∧ ∀ scope ∈ scopes, scope ∈ token.scopes := by
  obtain ⟨data, u, hdata, hrest⟩ := exec_bind_ok.mp h
  obtain ⟨rfl, hreads⟩ := verifyToken_reads hdata
  split at hrest
  case isTrue => cases hrest
  case isFalse hscopes =>
    obtain ⟨user, v, huser, hcheck⟩ := exec_bind_ok.mp hrest
    obtain ⟨rfl, hfound⟩ := getUserById_ok huser
    split at hcheck
    case isTrue => cases hcheck
    case isFalse hversion =>
      cases hcheck
      refine ⟨rfl, vouches_of_checks hdata hfound (by simpa using hversion), fun scope hscope => ?_⟩
      rw [hreads.2.2.1]
      by_contra hnot
      exact hscopes (List.any_eq_true.mpr ⟨scope, hscope, by simpa using hnot⟩)

theorem getSudoUser_ok {token : Jwt} {user : UserData}
    (h : (getSudoUser token).exec s = (.ok user, t)) :
    t = s ∧ Vouches s token .sudo user ∧ token.isImpersonation = false := by
  obtain ⟨data, u, hdata, hrest⟩ := exec_bind_ok.mp h
  obtain ⟨rfl, hreads⟩ := verifyToken_reads hdata
  obtain ⟨found, v, huser, hcheck⟩ := exec_bind_ok.mp hrest
  obtain ⟨rfl, hfound⟩ := getUserById_ok huser
  split at hcheck
  case isTrue => cases hcheck
  case isFalse hversion =>
    split at hcheck
    case isTrue => cases hcheck
    case isFalse himp =>
      split at hcheck
      case isTrue => cases hcheck
      case isFalse =>
        cases hcheck
        exact ⟨rfl, vouches_of_checks hdata hfound (by simpa using hversion),
          hreads.2.2.2.trans (by simpa using himp)⟩

/-- A refresh that succeeds was made with a refresh token that vouches for its user. -/
theorem refreshToken_ok {token : Jwt} {request : Request} {r : LoginResponse}
    (h : (AuthService.refreshToken token request).exec s = (.ok r, t)) :
    ∃ user, Vouches s token .refresh user := by
  obtain ⟨data, u, hdata, hrest⟩ := exec_bind_ok.mp h
  obtain ⟨rfl, -⟩ := verifyToken_ok hdata
  rw [UserDAO.getById, exec_ask_bind] at hrest
  simp only [handler] at hrest
  cases hfound : u.db.selectUser (.id data.id) with
  | none =>
    rw [hfound] at hrest
    cases hrest
  | some user =>
    rw [hfound] at hrest
    dsimp only at hrest
    split at hrest
    case isTrue => cases hrest
    case isFalse hversion =>
      exact ⟨user, vouches_of_checks hdata hfound (by simpa using hversion)⟩

/-- What the stream looks at: an unexpired access token that is not blacklisted, and an active
user. -/
structure StreamReads (s : State) (token : Jwt) (user : UserId) : Prop where
  type : token.type = some .access
  unexpired : ¬ token.ExpiredAt s.clock
  blacklist : ∀ jti, token.jti = some jti → s.redis.get s.clock (.blacklist .access jti) = none
  active : ∃ u ∈ s.db.users, u.id = user ∧ u.isActive = true

theorem sseNotifications_isOk {token : Jwt} :
    ((sseNotifications token).exec s).1.isOk ↔ ∃ data user,
      (verifyToken token .access).exec s = (.ok data, s) ∧
        s.db.selectUser (.id data.id) = some user ∧ user.isActive = true := by
  rw [sseNotifications, App.exec, Program.execute_bind]
  rcases hdata : (verifyToken token .access).exec s with ⟨e | data, t⟩
  · rw [App.exec] at hdata
    rw [hdata]
    simp [Except.isOk, Except.toBool]
  · obtain ⟨rfl, -⟩ := verifyToken_reads hdata
    rw [App.exec] at hdata
    rw [hdata]
    dsimp only
    rw [UserDAO.getById, Program.execute_perform_bind]
    simp only [handler]
    cases hfound : t.db.selectUser (.id data.id) with
    | none => simp_all [App.httpError, App.raise, Except.isOk, Except.toBool]
    | some user =>
      cases hactive : user.isActive <;>
        simp_all [App.httpError, App.raise, Except.isOk, Except.toBool]

/-- The stream opens for an issued token exactly if what it looks at is in order. -/
theorem sseNotifications_encode_isOk (hwf : s.WellFormed) (claims : TokenClaims) (exp : ℕ)
    (type : TokenTypes) (jti : ℕ) :
    ((sseNotifications (.signed (encode claims exp type jti))).exec s).1.isOk ↔
      StreamReads s (.signed (encode claims exp type jti)) claims.id := by
  rw [sseNotifications_isOk]
  constructor
  · rintro ⟨data, user, hdata, hfound, hactive⟩
    obtain ⟨⟨htype, hlt, hblacklist⟩, rfl, -⟩ :=
      (verifyToken_encode_ok_iff claims exp type .access jti s s data).mp hdata
    obtain ⟨hid, u, hu, rfl⟩ := selectUser_id hfound
    refine ⟨congrArg some htype, by simpa using hlt, ?_, u, hu, hid, hactive⟩
    rintro _ ⟨⟩
    exact hblacklist
  · rintro ⟨htype, hunexpired, hblacklist, u, hu, hid, hactive⟩
    refine ⟨_, s.db.userData u, (verifyToken_encode_ok_iff claims exp type .access jti s s _).mpr
      ⟨⟨Option.some.inj htype, by simpa using hunexpired, hblacklist jti rfl⟩, rfl, rfl⟩, ?_,
      hactive⟩
    exact selectUser_of_mem hwf hu hid

/-! ## The entry points together -/

inductive EntryPoint
  | currentUser (scopes : List String)
  | sudoUser
  | refreshToken (request : Request)
  | googleSudoBody
  | sseNotifications

variable [External]

def EntryPoint.admits (s : State) (token : Jwt) : EntryPoint → Bool
  | .currentUser scopes => ((getCurrentUser scopes token).exec s).1.isOk
  | .sudoUser => ((getSudoUser token).exec s).1.isOk
  | .refreshToken request => ((AuthService.refreshToken token request).exec s).1.isOk
  | .googleSudoBody => ((FastapiTemplate.googleSudoBody token).exec s).1.isOk
  | .sseNotifications => ((FastapiTemplate.sseNotifications token).exec s).1.isOk

omit [External] in
theorem ok_of_isOk {α : Type} {p : App α} (h : (p.exec s).1.isOk = true) :
    ∃ a t, p.exec s = (.ok a, t) := by
  rcases hr : p.exec s with ⟨e | a, t⟩
  · rw [hr] at h
    cases h
  · exact ⟨a, t, rfl⟩

/-- Every entry point but the stream needs a token of the stored version. -/
theorem EntryPoint.admits_vouches (hemail : External.emailValid "" = false) {token : Jwt}
    {e : EntryPoint} (hstream : e ≠ .sseNotifications) (h : e.admits s token = true) :
    ∃ type user, Vouches s token type user := by
  cases e with
  | currentUser scopes =>
    obtain ⟨_, _, hr⟩ := ok_of_isOk h
    exact ⟨_, _, (getCurrentUser_ok hr).2.1⟩
  | sudoUser =>
    obtain ⟨_, _, hr⟩ := ok_of_isOk h
    exact ⟨_, _, (getSudoUser_ok hr).2.1⟩
  | refreshToken request =>
    obtain ⟨_, _, hr⟩ := ok_of_isOk h
    obtain ⟨user, hvouches⟩ := refreshToken_ok hr
    exact ⟨_, _, hvouches⟩
  | googleSudoBody =>
    -- the body compares no versions, but its temporary user is never valid
    obtain ⟨_, _, hr⟩ := ok_of_isOk h
    have hvalid := (googleSudoBody_ok hr).1
    rw [hemail] at hvalid
    cases hvalid
  | sseNotifications => exact absurd rfl hstream

end FastapiTemplate
