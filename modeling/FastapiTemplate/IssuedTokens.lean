import FastapiTemplate.AccountInvariants
import FastapiTemplate.ServiceEffects
import Mathlib.Data.List.Dedup

/-!
# The tokens that the services issue

A login and a refresh issue a pair of tokens that is a function of the user as it
was read, the clock and the next free number (`loginResponse`). The claims of every
issued token are `Current` when it is handed out: their version is at most the
stored one, and their scopes are held as long as the two are equal.
-/

namespace FastapiTemplate

/-! ## Inversion of executions -/

section inversion
variable {α β : Type} {s t : State}

theorem exec_bind_ok {p : App β} {f : β → App α} {a : α} :
    (p >>= f).exec s = (.ok a, t) ↔
      ∃ b u, p.exec s = (.ok b, u) ∧ (f b).exec u = (.ok a, t) :=
  Program.execute_bind_ok handler

theorem exec_bind_of_ok {p : App β} {f : β → App α} {b : β} (h : p.exec s = (.ok b, t)) :
    (p >>= f).exec s = (f b).exec t := by
  rw [App.exec] at h
  rw [App.exec, Program.execute_bind, h]

theorem exec_bind_of_error {p : App β} {f : β → App α} {e : AppError}
    (h : p.exec s = (.error e, t)) : (p >>= f).exec s = (.error e, t) := by
  rw [App.exec] at h
  rw [App.exec, Program.execute_bind, h]

@[simp] theorem exec_ask_bind (c : Call) (f : c.Answer → App α) (s : State) :
    (App.ask c >>= f).exec s = (f (handler c s).1).exec (handler c s).2 := rfl

@[simp] theorem exec_pure (a : α) (s : State) : (pure a : App α).exec s = (.ok a, s) := rfl

@[simp] theorem exec_raise (e : AppError) (s : State) :
    (App.raise e : App α).exec s = (.error e, s) := rfl

@[simp] theorem exec_httpError (n : ℕ) (d : Detail) (s : State) :
    (App.httpError n d : App α).exec s = (.error (.http n d), s) := rfl

theorem exec_ofDb_ok {r : Except DbError α} {a : α} :
    (App.ofDb r).exec s = (.ok a, t) ↔ r = .ok a ∧ t = s := by
  cases r with
  | ok b => simp [App.ofDb, eq_comm]
  | error e => simp [App.ofDb]

theorem exec_map_ok {p : App β} {f : β → α} {a : α} :
    (p >>= fun b => pure (f b)).exec s = (.ok a, t) ↔ ∃ b, p.exec s = (.ok b, t) ∧ f b = a := by
  rw [exec_bind_ok]
  constructor
  · rintro ⟨b, u, hp, h⟩
    cases h
    exact ⟨b, hp, rfl⟩
  · rintro ⟨b, hp, rfl⟩
    exact ⟨b, t, hp, rfl⟩

theorem exec_map_state (p : App β) (f : β → α) (s : State) :
    ((p >>= fun b => pure (f b)).exec s).2 = (p.exec s).2 := by
  rw [App.exec, Program.execute_bind]
  rcases h : Program.execute handler p s with ⟨_ | b, u⟩ <;> simp [App.exec, h]

end inversion

/-! ## Claims -/

/-- The claims' version is at most the stored one of their user, who exists or never will again. -/
def ClaimsBounded (s : State) (data : TokenClaims) : Prop :=
  data.id < s.nextId ∧
    ∀ u ∈ s.db.users, u.id = data.id → data.tokenVersion.getD 1 ≤ u.tokenVersion

theorem ClaimsBounded.mono {s t : State} {data : TokenClaims} (h : ClaimsBounded s data)
    (hgrow : VersionsGrow s t) : ClaimsBounded t data := by
  refine ⟨h.1.trans_le hgrow.1, fun v hv hid => ?_⟩
  obtain ⟨u, hu, huid, hle⟩ := hgrow.2 v hv (hid ▸ h.1)
  exact (h.2 u hu (huid.trans hid)).trans hle

/-- The user holds the scopes while the stored version is that of the claims. -/
def ScopesHeld (s : State) (data : TokenClaims) : Prop :=
  ∀ u ∈ s.db.users, u.id = data.id → data.tokenVersion.getD 1 = u.tokenVersion →
    ∀ scope ∈ data.scopes.getD [], s.db.Grants data.id scope

theorem ScopesHeld.mono {s t : State} {data : TokenClaims} (h : ScopesHeld s data)
    (hbound : ClaimsBounded s data) (hsafe : PrivilegeSafe s t) : ScopesHeld t data := by
  intro v hv hid hversion scope hscope
  obtain ⟨u, hu, huid, hle, hgrants⟩ := hsafe.2 v hv (hid ▸ hbound.1)
  have hle' := hbound.2 u hu (huid.trans hid)
  have heq : u.tokenVersion = v.tokenVersion := le_antisymm hle (hversion ▸ hle')
  rw [hid] at hgrants
  exact hgrants heq scope (h u hu (huid.trans hid) (hversion.trans heq.symm) scope hscope)

def Current (s : State) (data : TokenClaims) : Prop := ClaimsBounded s data ∧ ScopesHeld s data

theorem PrivilegeSafe.versionsGrow {s t : State} (h : PrivilegeSafe s t) : VersionsGrow s t :=
  ⟨h.1, fun v hv hlt => by
    obtain ⟨u, hu, hid, hle, -⟩ := h.2 v hv hlt
    exact ⟨u, hu, hid, hle⟩⟩

theorem Current.mono {s t : State} {data : TokenClaims} (h : Current s data)
    (hsafe : PrivilegeSafe s t) : Current t data :=
  ⟨h.1.mono hsafe.versionsGrow, h.2.mono h.1 hsafe⟩

/-- Claims without scopes are current as soon as they are bounded. -/
theorem Current.of_noScopes {s : State} {data : TokenClaims} (h : ClaimsBounded s data)
    (hscopes : data.scopes.getD [] = []) : Current s data :=
  ⟨h, fun _ _ _ _ scope hscope => by rw [hscopes] at hscope; cases hscope⟩

theorem selectUser_eq_some {db : Database} {w : UserWhere} {user : UserData}
    (h : db.selectUser w = some user) :
    ∃ u ∈ db.users, db.matchesUser w u = true ∧ user = db.userData u := by
  obtain ⟨u, hu, rfl⟩ := Option.map_eq_some_iff.mp h
  exact ⟨u, List.mem_of_find?_eq_some hu, List.find?_some hu, rfl⟩

theorem mem_getUserScopes {db : Database} {user : UserId} {name : String} :
    name ∈ AuthService.getUserScopes (db.rolesOf user) ↔ db.Grants user name := by
  rw [Database.grants_iff]
  simp [AuthService.getUserScopes]

/-- What was just read of a user bounds its claims, and its scopes are those held. -/
theorem readUser_current {s : State} (hwf : s.WellFormed) {u : UserRow} (hu : u ∈ s.db.users)
    {data : TokenClaims} (hid : data.id = u.id) (hversion : data.tokenVersion = some u.tokenVersion)
    (hscopes : data.scopes = some (AuthService.getUserScopes (s.db.rolesOf u.id))) :
    Current s data := by
  have unique (v : UserRow) (hv : v ∈ s.db.users) (hvid : v.id = data.id) : v = u :=
    List.inj_on_of_nodup_map hwf.nodup hv hu (hvid.trans hid)
  refine ⟨⟨hid ▸ hwf.userId_lt u hu, fun v hv hvid => ?_⟩, fun v hv hvid _ scope hscope => ?_⟩
  · rw [unique v hv hvid, hversion]
    exact le_refl _
  · rw [hscopes, Option.getD_some] at hscope
    rw [hid]
    exact mem_getUserScopes.mp hscope

theorem selectUser_current {s : State} (hwf : s.WellFormed) {w : UserWhere} {user : UserData}
    (h : s.db.selectUser w = some user) : Current s (AuthService.sessionClaims user) := by
  obtain ⟨u, hu, -, rfl⟩ := selectUser_eq_some h
  exact readUser_current hwf hu rfl rfl rfl

theorem selectUser_impersonation_current {s : State} (hwf : s.WellFormed) {w : UserWhere}
    {user : UserData} (h : s.db.selectUser w = some user) (admin : UserData) :
    Current s (AuthService.impersonationClaims admin user) := by
  obtain ⟨u, hu, -, rfl⟩ := selectUser_eq_some h
  exact readUser_current hwf hu rfl rfl rfl

theorem selectUser_sudo_current {s : State} (hwf : s.WellFormed) {w : UserWhere} {user : UserData}
    (h : s.db.selectUser w = some user) (name : String) :
    Current s (AuthService.sudoClaims name user.id) := by
  obtain ⟨u, hu, -, rfl⟩ := selectUser_eq_some h
  exact .of_noScopes ⟨hwf.userId_lt u hu, fun v hv _ => hwf.version_pos v hv⟩ rfl

/-! ## The pair of a login -/

def loginResponse (user : UserData) (now jti : ℕ) : LoginResponse where
  token := {
    accessToken := .signed (encode (AuthService.sessionClaims user)
      ((now + minutes settings.accessTokenExpireMinutes) / second) .access jti)
    refreshToken := .signed (encode (AuthService.sessionClaims user)
      ((now + days settings.refreshTokenExpireDays) / second) .refresh (jti + 1)) }
  user := user

def loginRow (user : UserData) (now jti : ℕ) (request : Request) : UserSessionCreate where
  jti := jti
  userId := user.id
  issuedAt := now
  expiresAt := now + minutes settings.accessTokenExpireMinutes
  ipAddress := request.clientHost
  userAgent := request.userAgent

def State.afterLogin (s : State) (user : UserData) (request : Request) : State :=
  s.drawn.drawn.setDb (s.db.upsertUserSession (loginRow user s.clock s.nextId request)).2

theorem issueTokensAndSession_exec (user : UserData) (request : Request) (s : State) :
    (AuthService.issueTokensAndSession user request).exec s =
      ((match (s.db.upsertUserSession (loginRow user s.clock s.nextId request)).1 with
        | .ok () => .ok (loginResponse user s.clock s.nextId)
        | .error e => .error (.db e)), s.afterLogin user request) := by
  have h : (AuthService.issueTokensAndSession user request).exec s =
      ((App.ofDb (s.db.upsertUserSession (loginRow user s.clock s.nextId request)).1 >>= fun _ =>
        pure (loginResponse user s.clock s.nextId)) : App LoginResponse).exec
        (s.afterLogin user request) := rfl
  rw [h]
  cases (s.db.upsertUserSession (loginRow user s.clock s.nextId request)).1 <;> rfl

theorem afterLogin_safe (s : State) (user : UserData) (request : Request) :
    PrivilegeSafe s (s.afterLogin user request) := by
  have h := (AuthService.issueTokensAndSession_writes user request).exec_privilegeSafe
    (by simp) s
  rwa [issueTokensAndSession_exec] at h

/-! ## Executions that may log in -/

structure SessionQuiet (s t : State) : Prop where
  userSessions : t.db.userSessions = s.db.userSessions
  blacklist : ∀ type jti, t.redis (.blacklist type jti) = s.redis (.blacklist type jti)
  clock : t.clock = s.clock
  safe : PrivilegeSafe s t

theorem SessionQuiet.refl (s : State) : SessionQuiet s s := ⟨rfl, fun _ _ => rfl, rfl, .refl s⟩

theorem SessionQuiet.trans {s t u : State} (h : SessionQuiet s t) (h' : SessionQuiet t u) :
    SessionQuiet s u :=
  ⟨h'.userSessions.trans h.userSessions,
    fun type jti => (h'.blacklist type jti).trans (h.blacklist type jti),
    h'.clock.trans h.clock, h.safe.trans h'.safe⟩

theorem WritesOnly.exec_quiet {α : Type} {areas : List Area} {p : App α} (hp : WritesOnly areas p)
    (hd : ∀ a ∈ [Area.sessions, .revocation, .removal, .withdrawal, .blacklist .access,
      .blacklist .refresh, .blacklist .sudo], a ∉ areas)
    (s : State) : SessionQuiet s (p.exec s).2 where
  userSessions := hp.exec_userSessions (fun a ha => hd a (by simp at ha ⊢; tauto)) s
  blacklist type := hp.exec_blacklist (hd (.blacklist type) (by cases type <;> simp)) s
  clock := exec_clock p s
  safe := hp.exec_privilegeSafe (hd .withdrawal (by simp)) s

/-- An execution either ends in a login of a user whose claims were current, or leaves the
sessions alone. `pair` picks the tokens out of the answer. -/
inductive LoginEffect {α : Type} (pair : α → Option LoginResponse) (s : State) :
    Except AppError α → State → Prop
  | issued {s₁ : State} {a : α} (user : UserData) (request : Request) (hquiet : SessionQuiet s s₁)
      (hcurrent : Current s₁ (AuthService.sessionClaims user))
      (hpair : pair a = some (loginResponse user s₁.clock s₁.nextId))
      (hrow : (s₁.db.upsertUserSession (loginRow user s₁.clock s₁.nextId request)).1 = .ok ()) :
      LoginEffect pair s (.ok a) (s₁.afterLogin user request)
  | quiet {r : Except AppError α} {t : State} (hpair : ∀ a, r = .ok a → pair a = none)
      (hquiet : SessionQuiet s t) : LoginEffect pair s r t

section loginEffect
variable {α β : Type} {pair : α → Option LoginResponse} {s s₁ t : State}

theorem LoginEffect.after {r : Except AppError α} (hquiet : SessionQuiet s s₁)
    (h : LoginEffect pair s₁ r t) : LoginEffect pair s r t := by
  cases h with
  | issued user request hq hcurrent hpair hrow =>
    exact .issued user request (hquiet.trans hq) hcurrent hpair hrow
  | quiet hpair hq => exact .quiet hpair (hquiet.trans hq)

theorem LoginEffect.error (e : AppError) (hquiet : SessionQuiet s t) :
    LoginEffect pair s (.error e) t :=
  .quiet (fun _ he => by cases he) hquiet

theorem LoginEffect.bind {p : App β} {f : β → App α} (hp : SessionQuiet s (p.exec s).2)
    (hf : ∀ b u, p.exec s = (.ok b, u) →
      LoginEffect pair u ((f b).exec u).1 ((f b).exec u).2) :
    LoginEffect pair s ((p >>= f).exec s).1 ((p >>= f).exec s).2 := by
  rw [App.exec, Program.execute_bind]
  rcases hps : p.exec s with ⟨_ | b, u⟩
  · rw [App.exec] at hps
    rw [hps]
    exact .error _ (by simpa [App.exec, hps] using hp)
  · have := hf b u hps
    rw [hps] at hp
    rw [App.exec] at hps
    rw [hps]
    exact .after hp this

/-- A read in front of an execution. -/
theorem LoginEffect.read {c : Call} {f : c.Answer → App α} (hstate : (handler c s).2 = s)
    (hf : LoginEffect pair s ((f (handler c s).1).exec s).1 ((f (handler c s).1).exec s).2) :
    LoginEffect pair s ((App.ask c >>= f).exec s).1 ((App.ask c >>= f).exec s).2 := by
  rw [exec_ask_bind, hstate]
  exact hf

theorem LoginEffect.map {p : App β} {pair' : β → Option LoginResponse} {f : β → α}
    (hf : ∀ b, pair (f b) = pair' b) (h : LoginEffect pair' s (p.exec s).1 (p.exec s).2) :
    LoginEffect pair s ((p >>= fun b => pure (f b)).exec s).1
      ((p >>= fun b => pure (f b)).exec s).2 := by
  rw [App.exec, Program.execute_bind]
  rw [App.exec] at h
  generalize Program.execute handler p s = x at h
  obtain ⟨r, u⟩ := x
  cases h with
  | issued user request hquiet hcurrent hpair hrow =>
    exact .issued user request hquiet hcurrent ((hf _).trans hpair) hrow
  | quiet hpair hquiet =>
    cases r with
    | error e => exact .error e hquiet
    | ok b =>
      refine .quiet (fun a ha => ?_) hquiet
      cases ha
      exact (hf b).trans (hpair b rfl)

theorem issueTokensAndSession_effect {user : UserData} (request : Request)
    (hcurrent : Current s (AuthService.sessionClaims user)) :
    LoginEffect some s ((AuthService.issueTokensAndSession user request).exec s).1
      ((AuthService.issueTokensAndSession user request).exec s).2 := by
  rw [issueTokensAndSession_exec]
  rcases s.db.upsertUserSession_cases (loginRow user s.clock s.nextId request) with
    ⟨e, h⟩ | ⟨rows, -, -, h⟩
  · rw [h]
    refine .error _ ⟨?_, fun _ _ => rfl, rfl, afterLogin_safe s user request⟩
    simp [State.afterLogin, h]
  · rw [h]
    exact .issued user request (.refl s) hcurrent rfl (by rw [h])

end loginEffect
end FastapiTemplate
