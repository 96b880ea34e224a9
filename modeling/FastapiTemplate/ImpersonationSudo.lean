import FastapiTemplate.EntryPoints

/-!
# Impersonation and sudo tokens

An administrator who impersonates a target calls the routes in any order with the
tokens he has obtained, while everybody else goes on. Sudo tokens come from two
routes. One asks for the password of the account. The other exchanges the access
token in its body, which may be an impersonation token although the header is not;
it is stopped only by the empty email address of its temporary user, which the
schema refuses.
-/

namespace FastapiTemplate

variable {s t : State}

def Route.presented : Route → List Jwt
  | .getTwoFactorStatus header => [header]
  | .setupTwoFactor header => [header]
  | .confirmTwoFactor header _ => [header]
  | .disableTwoFactor header _ => [header]
  | .regenerateBackupCodes header _ => [header]
  | .refreshAccessToken refreshToken _ => [refreshToken]
  | .googleSudoToken header accessToken => [header, accessToken]
  | .updatePassword header _ => [header]
  | .me header => [header]
  | .updateUser header _ => [header]
  | .revokeSession header _ => [header]
  | .revokeAllSessions header => [header]
  | .assignRoles header _ _ => [header]
  | .impersonateUser header _ => [header]
  | .stopImpersonation header => [header]
  | _ => []

def Route.password : Route → Option String
  | .login _ password _ => some password
  | .createSudoToken _ password => some password
  | _ => none

/-! ## Where sudo tokens come from -/

theorem loginResponse_not_sudo {r : LoginResponse} (h : LoginEffect some s (.ok r) t) :
    ∀ token ∈ (Response.loggedIn r).tokens, token.type ≠ some .sudo := by
  obtain ⟨-, now, jti, hr⟩ := loginEffect_pair h
  intro token htoken
  rw [hr] at htoken
  simp only [Response.tokens, List.mem_cons, List.not_mem_nil, or_false] at htoken
  rcases htoken with rfl | rfl <;> simp [loginResponse, Jwt.type, Jwt.payload, encode]

/-- A program whose answers carry no tokens hands out none. -/
theorem not_mem_tokens {p : App Response} {a : Response} {token : Jwt}
    (hp : p.Ensures handler (fun _ => True) (fun a _ => a.tokens = [])) (h : p.exec s = (.ok a, t)) :
    token ∉ a.tokens := by
  rw [hp s trivial a t h]
  exact List.not_mem_nil

variable [External]

/-- A sudo token is handed out only for a password of its user. -/
theorem Route.sudo_token (hemail : External.emailValid "" = false) (hwf : s.WellFormed) {r : Route}
    {a : Response} (h : r.program.exec s = (.ok a, t)) {token : Jwt} (htoken : token ∈ a.tokens)
    (hsudo : token.type = some .sudo) :
    ∃ password user, r.password = some password ∧ (∃ u ∈ s.db.users, user = s.db.userData u) ∧
      verifyPassword password user.hashedPassword = true ∧ token.userId = some user.id := by
  cases r with
  | googleCallback state exchange request =>
    obtain ⟨l, hl, rfl⟩ := exec_map_ok.mp h
    exact absurd hsudo
      (loginResponse_not_sudo (of_exec (googleCallback_effect hwf _ _ _) hl) token htoken)
  | verifyTwoFactor twoFactorToken code request =>
    obtain ⟨l, hl, rfl⟩ := exec_map_ok.mp h
    exact absurd hsudo
      (loginResponse_not_sudo (of_exec (verifyTwoFactorChallenge_effect hwf _ _ _) hl) token htoken)
  | refreshAccessToken refreshToken request =>
    obtain ⟨l, hl, rfl⟩ := exec_map_ok.mp h
    exact absurd hsudo
      (loginResponse_not_sudo (of_exec (refreshToken_effect hwf _ _) hl) token htoken)
  | login username password request =>
    obtain ⟨l, hl, rfl⟩ := exec_map_ok.mp h
    cases l with
    | challenge twoFactorToken => cases htoken
    | loggedIn l =>
      have heffect := of_exec (authenticateUser_effect hwf _ _ _) hl
      exact absurd hsudo (loginResponse_not_sudo heffect.loggedIn token htoken)
  | createSudoToken username password =>
    obtain ⟨l, hl, rfl⟩ := exec_map_ok.mp h
    obtain ⟨user, exp, hfound, hpassword, hanswer⟩ := createSudoTokenUser_ok hl
    obtain ⟨u, hu, -, rfl⟩ := selectUser_eq_some hfound
    refine ⟨password, _, rfl, ⟨u, hu, rfl⟩, hpassword, ?_⟩
    rw [List.mem_singleton.mp htoken, hanswer]
    rfl
  | googleSudoToken header accessToken =>
    obtain ⟨l, hl, rfl⟩ := exec_map_ok.mp h
    have hvalid := (googleSudoToken_ok hl).1
    rw [hemail] at hvalid
    cases hvalid
  | impersonateUser header target =>
    obtain ⟨current, u, -, hguarded⟩ := exec_bind_ok.mp h
    obtain ⟨_, v, -, hrest⟩ := exec_bind_ok.mp hguarded
    obtain ⟨l, hl, rfl⟩ := exec_map_ok.mp hrest
    obtain ⟨user, -, hanswer⟩ := impersonateUser_ok hl
    rw [List.mem_singleton.mp htoken, hanswer] at hsudo
    cases hsudo
  | googleLogin | registerUser userIn | me header | stopImpersonation header =>
    exact absurd htoken (not_mem_tokens (.last fun _ => .pure fun _ _ => rfl) h)
  | getTwoFactorStatus header | disableTwoFactor header code | regenerateBackupCodes header code
  | updatePassword header password | updateUser header upd =>
    exact absurd htoken
      (not_mem_tokens (.last fun _ => .last fun _ => .pure fun _ _ => rfl) h)
  | setupTwoFactor header | confirmTwoFactor header code | revokeSession header jti
  | revokeAllSessions header | assignRoles header user roleIds =>
    exact absurd htoken
      (not_mem_tokens (.last fun _ => .last fun _ => .last fun _ => .pure fun _ _ => rfl) h)

/-! ## The administrator -/

structure Attack where
  state : State
  known : List Jwt

inductive Move
  /-- the administrator calls a route -/
  | call (r : Route)
  /-- somebody else, or the system, does something -/
  | others (op : Op)
  | advance (d : ℕ)

namespace Attack

def learn (known : List Jwt) : Except AppError Response × State → Attack
  | (.ok a, t) => ⟨t, known ++ a.tokens⟩
  | (.error _, t) => ⟨t, known⟩

def step (a : Attack) : Move → Attack
  | .call r => learn a.known (r.program.exec a.state)
  | .others op => { a with state := (op.program.exec a.state).2 }
  | .advance d => { a with state := a.state.advance d }

/-- The administrator presents what he has obtained, and no password of the target. -/
def Allowed (target : UserId) (a : Attack) : Move → Prop
  | .call r => (∀ token ∈ r.presented, token ∈ a.known ∨ ∃ text, token = .unsigned text) ∧
      ∀ password, r.password = some password → ∀ u ∈ a.state.db.users, u.id = target →
        verifyPassword password u.hashedPassword = false
  | _ => True

/-- He starts with tokens of his own and impersonation tokens for the target. -/
structure Starts (target : UserId) (a : Attack) : Prop where
  reachable : ∃ w, World.Reachable w ∧ a.state = w.state
  known : ∀ token ∈ a.known, token.userId ≠ some target ∨
    ∃ admin current duration s t r,
      (AuthService.impersonateUser admin target current duration).exec s = (.ok r, t) ∧
        token = r.accessToken

structure Contained (target : UserId) (a : Attack) : Prop where
  wellFormed : a.state.WellFormed
  known : ∀ token ∈ a.known, token.type = some .sudo → token.userId ≠ some target

theorem Starts.contained {target : UserId} {a : Attack} (h : Starts target a) :
    Contained target a := by
  obtain ⟨w, hw, hstate⟩ := h.reachable
  refine ⟨hstate ▸ hw.tokenLedger.wellFormed, fun token htoken hsudo => ?_⟩
  rcases h.known token htoken with hown | ⟨admin, current, duration, s, t, r, hexec, rfl⟩
  · exact hown
  · obtain ⟨user, -, hanswer⟩ := impersonateUser_ok hexec
    rw [hanswer] at hsudo
    cases hsudo

theorem Contained.step (hemail : External.emailValid "" = false) {target : UserId} {a : Attack}
    (h : Contained target a) {m : Move} (hallowed : Allowed target a m) :
    Contained target (a.step m) := by
  cases m with
  | advance d => exact ⟨⟨h.1.1, h.1.2, h.1.3, h.1.4⟩, h.known⟩
  | others op => exact ⟨exec_wellFormed op.program a.state h.wellFormed, h.known⟩
  | call r =>
    have hwf := exec_wellFormed r.program a.state h.wellFormed
    simp only [Attack.step]
    rcases hexec : r.program.exec a.state with ⟨e | answer, t⟩
    · rw [hexec] at hwf
      exact ⟨hwf, h.known⟩
    · rw [hexec] at hwf
      refine ⟨hwf, fun token htoken hsudo => ?_⟩
      rcases List.mem_append.mp htoken with hold | hnew
      · exact h.known token hold hsudo
      · obtain ⟨password, _, hasked, ⟨u, hu, rfl⟩, hvalid, hid⟩ :=
          Route.sudo_token hemail h.wellFormed hexec hnew hsudo
        intro htarget
        have hunknown := hallowed.2 password hasked u hu (Option.some.inj (hid.symm.trans htarget))
        rw [show (a.state.db.userData u).hashedPassword = u.hashedPassword from rfl,
          hunknown] at hvalid
        cases hvalid

/-- Whatever he does, the administrator never holds a token that passes for sudo of the target. -/
theorem no_sudo_of_target (hemail : External.emailValid "" = false) {target : UserId}
    {a₀ a : Attack} (hstart : Starts target a₀) (hrun : RunsWhere step (Allowed target) a₀ a)
    {token : Jwt} (htoken : token ∈ a.known) {user : UserData}
    (hok : ((getSudoUser token).exec a.state).1 = .ok user) : user.id ≠ target := by
  have hcontained : Contained target a :=
    hrun.invariant hstart.contained (fun _ _ hallowed hx => hx.step hemail hallowed)
  obtain ⟨-, hvouches, -⟩ := getSudoUser_ok (Prod.ext hok rfl)
  rintro rfl
  exact hcontained.known token htoken hvouches.accepted.checked.1 hvouches.id

def impersonationTables : Database where
  users := [World.testUser, { World.testUser with
    id := 1, username := "target", email := "target@example.com", hashedPassword := some "" }]
  roles := [⟨2, "Support", none⟩]
  permissions := [⟨3, "users:impersonate", none⟩]
  rolePermissions := [(2, 3)]
  userRoles := [(0, 2)]

def impersonationEvents : List Event :=
  [.call (.authenticateUser "testuser" "U*U" {}),
    .call (.impersonateUser (impersonationTables.userData World.testUser) 1 none)]

def impersonationWorld : World :=
  letI := External.plain
  run World.step (World.start impersonationTables 4) impersonationEvents

def impersonationStart : Attack := ⟨impersonationWorld.state, impersonationWorld.tokens⟩

/-- He exchanges the impersonation token in the body under his own token in the header. -/
def exchange (a : Attack) : Move :=
  .call (.googleSudoToken (a.known.getD 0 (.unsigned "")) (a.known.getD 2 (.unsigned "")))

omit [External] in
theorem impersonationStart_starts : @Starts External.plain 1 impersonationStart := by
  let _ := External.plain
  have hinitial : World.Initial (World.start impersonationTables 4) :=
    World.start_initial (by simp [impersonationTables, World.testUser])
      (by simp [impersonationTables, World.testUser]) (by simp [impersonationTables]) rfl
  refine ⟨⟨_, hinitial.reachable_run impersonationEvents
    (by simp [impersonationEvents, World.Unforged, Op.presented]), rfl⟩, fun token htoken => ?_⟩
  have hknown : impersonationStart.known = [_, _, _] := rfl
  rw [hknown] at htoken
  simp only [List.mem_cons, List.not_mem_nil, or_false] at htoken
  rcases htoken with rfl | rfl | rfl
  · exact .inl (by decide)
  · exact .inl (by decide)
  · exact .inr ⟨impersonationTables.userData World.testUser, none, 30,
      (run World.step (World.start impersonationTables 4) (impersonationEvents.take 1)).state,
      _, _, rfl, rfl⟩

def ownSudo : Move := .call (.createSudoToken "testuser" "U*U")

omit [External] in
theorem no_sudo_of_target_ownSudo :
    letI := External.plain
    let a := step (step impersonationStart (exchange impersonationStart)) ownSudo
    ∃ token ∈ a.known, ∃ user, ((getSudoUser token).exec a.state).1 = .ok user ∧ user.id ≠ 1 := by
  let _ := External.plain
  have hexchange : Allowed 1 impersonationStart (exchange impersonationStart) := by
    refine ⟨fun token htoken => .inl ?_, fun _ hpassword => by cases hpassword⟩
    have hpresented : ∀ token ∈ [impersonationStart.known.getD 0 (.unsigned ""),
        impersonationStart.known.getD 2 (.unsigned "")], token ∈ impersonationStart.known := by decide
    exact hpresented token htoken
  have hown : Allowed 1 (step impersonationStart (exchange impersonationStart)) ownSudo := by
    refine ⟨fun token htoken => (List.not_mem_nil htoken).elim, fun password hpassword => ?_⟩
    cases hpassword
    decide
  have hmem : (step (step impersonationStart (exchange impersonationStart)) ownSudo).known.getD 3
      (.unsigned "") ∈ (step (step impersonationStart (exchange impersonationStart)) ownSudo).known := by
    decide
  have hok : ((getSudoUser ((step (step impersonationStart (exchange impersonationStart))
      ownSudo).known.getD 3 (.unsigned ""))).exec (step (step impersonationStart
        (exchange impersonationStart)) ownSudo).state).1 =
      .ok (impersonationTables.userData World.testUser) := by
    decide
  exact ⟨_, hmem, _, hok, no_sudo_of_target rfl impersonationStart_starts
    (.tail _ (.tail _ .refl hexchange) hown) hmem hok⟩

/-- If the schema let the empty address through, the exchange would yield sudo of the target. -/
example :
    letI : External := { External.plain with emailValid := fun _ => true }
    let a := step impersonationStart (exchange impersonationStart)
    a.known.any (fun token => ((getSudoUser token).exec a.state).1.toOption.any (·.id = 1)) := by
  decide

end Attack
end FastapiTemplate
