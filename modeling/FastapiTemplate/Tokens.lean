import FastapiTemplate.AuthCalls
import Mathlib.Data.Nat.Basic

/-!
# Creation and verification of tokens

`api/core/auth.py`. `verifyToken` looks at the payload, the clock and the
blacklist; it does not read the database, so comparing a token's version with the
stored one is left to each caller.
-/

namespace FastapiTemplate

def verifyPassword [External] (plainPassword : String) (hashedPassword : Option String) : Bool :=
  match hashedPassword with
  | none => false
  | some hash => External.checkpw plainPassword hash

def getPasswordHash [External] (password : String) : App String := do
  let salt ← App.draw
  pure (External.hashpw password salt)

/-! ## Creation -/

def encode (data : TokenClaims) (exp : ℕ) (type : TokenTypes) (jti : ℕ) : Payload where
  sub := some data.sub
  id := some data.id
  exp := some exp
  jti := some jti
  type := some type
  scopes := data.scopes
  tokenVersion := data.tokenVersion
  isImpersonation := data.isImpersonation
  act := data.act

/-- JWT numeric dates are whole seconds: the microseconds of `expire` are cut off. -/
def createToken (data : TokenClaims) (expire : ℕ) (type : TokenTypes) : App TokenDetails := do
  let jti ← App.draw
  pure ⟨.signed (encode data (expire / second) type jti), expire, jti⟩

def createAccessToken (data : TokenClaims) : App TokenDetails := do
  let now ← App.now
  createToken data (now + minutes settings.accessTokenExpireMinutes) .access

def createImpersonationToken (data : TokenClaims) (expireMinutes : ℕ) : App TokenDetails := do
  let now ← App.now
  createToken data (now + minutes expireMinutes) .access

def createRefreshToken (data : TokenClaims) : App Jwt := do
  let now ← App.now
  let details ← createToken data (now + days settings.refreshTokenExpireDays) .refresh
  pure details.token

def createSudoToken (data : TokenClaims) : App Jwt := do
  let now ← App.now
  let details ← createToken data (now + minutes settings.sudoTokenExpireMinutes) .sudo
  pure details.token

def State.drawn (s : State) : State := { s with nextId := s.nextId + 1 }

@[simp] theorem State.drawn_db (s : State) : s.drawn.db = s.db := rfl
@[simp] theorem State.drawn_redis (s : State) : s.drawn.redis = s.redis := rfl
@[simp] theorem State.drawn_clock (s : State) : s.drawn.clock = s.clock := rfl
@[simp] theorem State.drawn_nextId (s : State) : s.drawn.nextId = s.nextId + 1 := rfl

theorem createImpersonationToken_exec (data : TokenClaims) (expireMinutes : ℕ) (s : State) :
    (createImpersonationToken data expireMinutes).exec s =
      (.ok ⟨.signed (encode data ((s.clock + minutes expireMinutes) / second) .access s.nextId),
        s.clock + minutes expireMinutes, s.nextId⟩, s.drawn) := rfl

theorem createSudoToken_exec (data : TokenClaims) (s : State) :
    (createSudoToken data).exec s =
      (.ok (.signed (encode data ((s.clock + minutes settings.sudoTokenExpireMinutes) / second)
        .sudo s.nextId)), s.drawn) := rfl

/-! ## Verification -/

/-- `jwt.decode`: only a signed token that has not expired decodes. -/
def decodeJwt (token : Jwt) (now : ℕ) : Option Payload :=
  match token with
  | .unsigned _ => none
  | .signed payload =>
    match payload.exp with
    | none => some payload
    | some exp => if exp * second ≤ now then none else some payload

def revokedMessage : TokenTypes → String
  | .access => "Access token has been revoked."
  | .refresh => "Refresh token has been revoked."
  | .sudo => "Sudo token has been revoked."

def invalidCredentials {α : Type} : App α :=
  App.httpError 401 (.text "Invalid authentication credentials")

structure RequiredKeys where
  username : String
  id : UserId
  exp : ℕ
  jti : ℕ
  type : TokenTypes

def requiredKeys (payload : Payload) : Option RequiredKeys := do
  let username ← payload.sub
  let id ← payload.id
  let exp ← payload.exp
  let jti ← payload.jti
  let type ← payload.type
  pure ⟨username, id, exp, jti, type⟩

def tokenData (payload : Payload) (keys : RequiredKeys) : TokenData where
  username := keys.username
  id := keys.id
  exp := keys.exp
  jti := keys.jti
  type := keys.type
  scopes := payload.scopes.getD []
  tokenVersion := payload.tokenVersion.getD 1
  isImpersonation := payload.isImpersonation.getD false
  impersonatorId := payload.act.map (·.id)
  impersonatorUsername := payload.act.map (·.sub)

def verifyToken (token : Jwt) (tokenType : TokenTypes) : App TokenData := do
  let now ← App.now
  match decodeJwt token now with
  | none => invalidCredentials
  | some payload =>
    match requiredKeys payload with
    | none => invalidCredentials
    | some keys =>
      if keys.type ≠ tokenType then invalidCredentials
      else
        match ← Redis.get (.blacklist tokenType keys.jti) with
        | some _ => App.httpError 401 (.text (revokedMessage tokenType))
        | none => pure (tokenData payload keys)

/-! ## Reading a token -/

namespace Jwt

def payload : Jwt → Option Payload
  | .signed payload => some payload
  | .unsigned _ => none

variable (token : Jwt)

def userId : Option UserId := token.payload.bind (·.id)

def jti : Option ℕ := token.payload.bind (·.jti)

def type : Option TokenTypes := token.payload.bind (·.type)

def scopes : List String := (token.payload.bind (·.scopes)).getD []

def tokenVersion : ℕ := (token.payload.bind (·.tokenVersion)).getD 1

def isImpersonation : Bool := (token.payload.bind (·.isImpersonation)).getD false

def ExpiredAt (now : ℕ) : Prop := ∃ exp, token.payload.bind (·.exp) = some exp ∧ exp * second ≤ now

variable {token}

theorem ExpiredAt.later {t u : ℕ} (h : token.ExpiredAt t) (hle : t ≤ u) : token.ExpiredAt u := by
  obtain ⟨exp, hexp, he⟩ := h
  exact ⟨exp, hexp, he.trans hle⟩

/-- What decodes is signed and has not expired. -/
theorem decodeJwt_eq_some {now : ℕ} {payload : Payload} :
    decodeJwt token now = some payload ↔ token = .signed payload ∧ ¬ token.ExpiredAt now := by
  cases token with
  | unsigned text => simp [decodeJwt]
  | signed p =>
    have hexpired : (Jwt.signed p).ExpiredAt now ↔ ∃ exp, p.exp = some exp ∧ exp * second ≤ now :=
      Iff.rfl
    rw [hexpired, decodeJwt]
    cases hexp : p.exp with
    | none => simp
    | some exp =>
      by_cases hle : exp * second ≤ now
      · simp [hle]
      · simp [hle]

@[simp] theorem expiredAt_encode (data : TokenClaims) (exp : ℕ) (type : TokenTypes) (jti now : ℕ) :
    (Jwt.signed (encode data exp type jti)).ExpiredAt now ↔ exp * second ≤ now := by
  simp [ExpiredAt, payload, encode]

end Jwt

/-! ## Specification -/

def Accepted (s : State) (token : Jwt) (tokenType : TokenTypes) : Prop :=
  ∃ data, ((verifyToken token tokenType).exec s).1 = .ok data

def verifyOutcome (payload : Option Payload) (tokenType : TokenTypes) (s : State) :
    Except AppError TokenData :=
  match payload with
  | none => .error (.http 401 (.text "Invalid authentication credentials"))
  | some payload =>
    match requiredKeys payload with
    | none => .error (.http 401 (.text "Invalid authentication credentials"))
    | some keys =>
      if keys.type ≠ tokenType then .error (.http 401 (.text "Invalid authentication credentials"))
      else
        match s.redis.get s.clock (.blacklist tokenType keys.jti) with
        | some _ => .error (.http 401 (.text (revokedMessage tokenType)))
        | none => .ok (tokenData payload keys)

/-- Verification answers from payload, clock and blacklist, and changes nothing. -/
theorem verifyToken_exec (token : Jwt) (tokenType : TokenTypes) (s : State) :
    (verifyToken token tokenType).exec s =
      (verifyOutcome (decodeJwt token s.clock) tokenType s, s) := by
  simp only [verifyToken, verifyOutcome, App.exec, App.now, App.ask, Program.execute_perform_bind,
    handler]
  cases decodeJwt token s.clock with
  | none => rfl
  | some payload =>
    dsimp only
    cases requiredKeys payload with
    | none => rfl
    | some keys =>
      dsimp only
      split
      · rfl
      · simp only [Redis.get, App.ask, Program.execute_perform_bind, handler]
        cases s.redis.get s.clock (.blacklist tokenType keys.jti) <;> rfl

def encodedKeys (data : TokenClaims) (exp : ℕ) (type : TokenTypes) (jti : ℕ) : RequiredKeys :=
  ⟨data.sub, data.id, exp, jti, type⟩

@[simp] theorem requiredKeys_encode (data : TokenClaims) (exp : ℕ) (type : TokenTypes) (jti : ℕ) :
    requiredKeys (encode data exp type jti) = some (encodedKeys data exp type jti) := rfl

/-- An encoded token is accepted exactly for its own type, before its expiry and
while its `jti` is not blacklisted for that type. -/
theorem verifyToken_encode_ok_iff (data : TokenClaims) (exp : ℕ) (type tokenType : TokenTypes)
    (jti : ℕ) (s t : State) (td : TokenData) :
    (verifyToken (.signed (encode data exp type jti)) tokenType).exec s = (.ok td, t) ↔
      (type = tokenType ∧ s.clock < exp * second ∧
        s.redis.get s.clock (.blacklist tokenType jti) = none) ∧
      td = tokenData (encode data exp type jti) (encodedKeys data exp type jti) ∧ t = s := by
  rw [verifyToken_exec]
  by_cases hexp : exp * second ≤ s.clock
  · have hdecode : decodeJwt (.signed (encode data exp type jti)) s.clock = none := if_pos hexp
    rw [hdecode]
    simp only [verifyOutcome, Prod.mk.injEq, reduceCtorEq, false_and, false_iff]
    rintro ⟨⟨_, hlt, _⟩, _⟩
    omega
  · have hdecode : decodeJwt (.signed (encode data exp type jti)) s.clock =
        some (encode data exp type jti) := if_neg hexp
    have hlt : s.clock < exp * second := by omega
    rw [hdecode]
    simp only [verifyOutcome, requiredKeys_encode, encodedKeys]
    by_cases htype : type = tokenType
    · cases hb : s.redis.get s.clock (.blacklist tokenType jti) with
      | none => simp [htype, hlt, eq_comm]
      | some v => simp [htype]
    · simp [htype]

theorem accepted_encode_iff (data : TokenClaims) (exp : ℕ) (type tokenType : TokenTypes) (jti : ℕ)
    (s : State) :
    Accepted s (.signed (encode data exp type jti)) tokenType ↔
      type = tokenType ∧ s.clock < exp * second ∧
        s.redis.get s.clock (.blacklist tokenType jti) = none := by
  constructor
  · rintro ⟨td, h⟩
    exact ((verifyToken_encode_ok_iff data exp type tokenType jti s _ td).mp (Prod.ext h rfl)).1
  · intro h
    exact ⟨_, congrArg Prod.fst
      ((verifyToken_encode_ok_iff data exp type tokenType jti s s _).mpr ⟨h, rfl, rfl⟩)⟩

/-- What an accepted token carries. -/
theorem verifyToken_ok {token : Jwt} {tokenType : TokenTypes} {s t : State} {td : TokenData}
    (h : (verifyToken token tokenType).exec s = (.ok td, t)) :
    t = s ∧ ∃ payload keys, token = .signed payload ∧ requiredKeys payload = some keys ∧
      keys.type = tokenType ∧ s.redis.get s.clock (.blacklist tokenType keys.jti) = none ∧
      td = tokenData payload keys := by
  rw [verifyToken_exec] at h
  obtain ⟨hok, rfl⟩ := Prod.mk.inj h
  refine ⟨rfl, ?_⟩
  cases hdecode : decodeJwt token s.clock with
  | none =>
    rw [hdecode] at hok
    cases hok
  | some payload =>
    rw [hdecode] at hok
    simp only [verifyOutcome] at hok
    cases hkeys : requiredKeys payload with
    | none =>
      rw [hkeys] at hok
      cases hok
    | some keys =>
      rw [hkeys] at hok
      dsimp only at hok
      split at hok
      · cases hok
      · split at hok
        · cases hok
        · exact ⟨payload, keys, (Jwt.decodeJwt_eq_some.mp hdecode).1, hkeys, by simp_all, ‹_›,
            (Except.ok.inj hok).symm⟩

theorem requiredKeys_eq_some {payload : Payload} {keys : RequiredKeys}
    (h : requiredKeys payload = some keys) :
    payload.sub = some keys.username ∧ payload.id = some keys.id ∧ payload.exp = some keys.exp ∧
      payload.jti = some keys.jti ∧ payload.type = some keys.type := by
  simp only [requiredKeys, Option.bind_eq_bind, Option.bind_eq_some_iff] at h
  obtain ⟨username, h1, id, h2, exp, h3, jti, h4, type, h5, hk⟩ := h
  cases hk
  exact ⟨h1, h2, h3, h4, h5⟩

/-- What acceptance says about the token. -/
theorem Accepted.checked {s : State} {token : Jwt} {tokenType : TokenTypes}
    (h : Accepted s token tokenType) : token.type = some tokenType ∧ ¬ token.ExpiredAt s.clock := by
  obtain ⟨td, h⟩ := h
  obtain ⟨-, payload, keys, rfl, hkeys, htype, -, -⟩ := verifyToken_ok (Prod.ext h rfl)
  refine ⟨htype ▸ (requiredKeys_eq_some hkeys).2.2.2.2, ?_⟩
  intro hexpired
  cases hdecode : decodeJwt (.signed payload) s.clock with
  | none =>
    rw [verifyToken_exec, hdecode] at h
    cases h
  | some decoded => exact (Jwt.decodeJwt_eq_some.mp hdecode).2 hexpired

end FastapiTemplate
