import FastapiTemplate.AuthSystem

/-!
# The ledger of issued tokens

Every token in the log encodes claims that are bounded by the stored versions, in
every reachable world. The facts about the single operations that issue tokens are
inversions of their executions.
-/

namespace FastapiTemplate

variable {s t : State}

/-! ## Operations that issue a single token -/

section issuers

theorem impersonateUser_ok {admin : UserData} {target : UserId} {current : Option UserId}
    {duration : ℕ} {r : ImpersonationResponse}
    (h : (AuthService.impersonateUser admin target current duration).exec s = (.ok r, t)) :
    ∃ user, s.db.selectUser (.id target) = some user ∧ r.accessToken =
      .signed (encode (AuthService.impersonationClaims admin user)
        ((s.clock + minutes duration) / second) .access s.nextId) := by
  unfold AuthService.impersonateUser at h
  split at h
  · cases h
  · split at h
    · cases h
    · rw [UserDAO.getById, exec_ask_bind] at h
      simp only [handler] at h
      cases hfound : s.db.selectUser (.id target) with
      | none =>
        rw [hfound] at h
        cases h
      | some user =>
        rw [hfound] at h
        dsimp only at h
        split at h
        · cases h
        · split at h
          · cases h
          · obtain ⟨details, u, hdetails, hstored⟩ := exec_bind_ok.mp h
            obtain ⟨_, _, _, hanswer⟩ := exec_bind_ok.mp hstored
            rw [createImpersonationToken_exec] at hdetails
            obtain ⟨hdetails, -⟩ := Prod.mk.inj hdetails
            cases hanswer
            cases hdetails
            exact ⟨user, rfl, rfl⟩

theorem createSudoToken_ok {data : TokenClaims} {token : Jwt}
    (h : (createSudoToken data).exec s = (.ok token, t)) :
    ∃ exp, token = .signed (encode data exp .sudo s.nextId) := by
  rw [createSudoToken_exec] at h
  cases h
  exact ⟨_, rfl⟩

variable [External]

theorem createSudoTokenUser_ok {username password : String} {r : SudoTokenResponse}
    (h : (AuthService.createSudoTokenUser username password).exec s = (.ok r, t)) :
    ∃ user exp, s.db.selectUser (.username username) = some user ∧
      verifyPassword password user.hashedPassword = true ∧
      r.sudoToken = .signed (encode (AuthService.sudoClaims user.username user.id) exp .sudo
        s.nextId) := by
  rw [AuthService.createSudoTokenUser, UserDAO.getByUsername, exec_ask_bind] at h
  simp only [handler] at h
  cases hfound : s.db.selectUser (.username username) with
  | none =>
    rw [hfound] at h
    cases h
  | some user =>
    rw [hfound] at h
    dsimp only at h
    split at h
    · cases h
    · obtain ⟨token, u, htoken, h⟩ := exec_bind_ok.mp h
      obtain ⟨exp, rfl⟩ := createSudoToken_ok htoken
      cases h
      exact ⟨user, exp, rfl, by simp_all, rfl⟩

/-- An answer of the body of `google_sudo_token` needs a valid empty email address. -/
theorem googleSudoBody_ok {accessToken : Jwt} {r : SudoTokenResponse}
    (h : (googleSudoBody accessToken).exec s = (.ok r, t)) :
    External.emailValid "" = true ∧ ∃ data exp,
      (verifyToken accessToken .access).exec s = (.ok data, s) ∧
      r.sudoToken = .signed (encode (AuthService.sudoClaims data.username data.id) exp .sudo
        s.nextId) := by
  obtain ⟨user, u, huser, hsudo⟩ := exec_bind_ok.mp h
  rw [App.exec, Program.execute_handle] at huser
  have hcaught (e : AppError) (v : State) :
      ((invalidAccessToken e : App UserData).exec v).1 ≠ .ok user := by
    cases e with
    | http => simp [invalidAccessToken]
    | value => simp [invalidAccessToken]
    | _ => simp [invalidAccessToken]
  split at huser
  case h_2 e v _ => exact absurd (congrArg Prod.fst huser) (hcaught e v)
  case h_1 found v hfound =>
    cases huser
    obtain ⟨data, w, hdata, htemporary⟩ := exec_bind_ok.mp hfound
    obtain ⟨rfl, -⟩ := verifyToken_ok hdata
    unfold temporaryUserData at htemporary
    split at htemporary
    case isTrue => cases htemporary
    case isFalse hvalid =>
      cases htemporary
      obtain ⟨token, x, htoken, hanswer⟩ := exec_bind_ok.mp hsudo
      obtain ⟨exp, rfl⟩ := createSudoToken_ok htoken
      cases hanswer
      exact ⟨by simpa using hvalid, data, exp, hdata, rfl⟩

theorem googleSudoToken_ok {header accessToken : Jwt} {r : SudoTokenResponse}
    (h : (googleSudoToken header accessToken).exec s = (.ok r, t)) :
    External.emailValid "" = true ∧ ∃ data exp,
      (verifyToken accessToken .access).exec s = (.ok data, s) ∧
      r.sudoToken = .signed (encode (AuthService.sudoClaims data.username data.id) exp .sudo
        s.nextId) := by
  obtain ⟨_, u, hguard, hbody⟩ := exec_bind_ok.mp h
  obtain ⟨data, v, hdata, hallowed⟩ := exec_bind_ok.mp hguard
  obtain ⟨rfl, -⟩ := verifyToken_ok hdata
  split at hallowed
  · cases hallowed
  · cases hallowed
    exact googleSudoBody_ok hbody

end issuers

/-! ## The tokens of an answer -/

/-- The token encodes claims that are current; those of a sudo token carry no version. -/
def TokenCurrent (s : State) (token : Jwt) : Prop :=
  ∃ data exp type jti, token = .signed (encode data exp type jti) ∧ Current s data ∧
    (type = .sudo → data.tokenVersion = none)

theorem loginEffect_pair {r : LoginResponse} (h : LoginEffect some s (.ok r) t) :
    Current t (AuthService.sessionClaims r.user) ∧
      ∃ now jti, r = loginResponse r.user now jti := by
  cases h with
  | issued user request hquiet hcurrent hpair hrow =>
    cases hpair
    exact ⟨hcurrent.mono (afterLogin_safe _ _ _), _, _, rfl⟩
  | quiet hpair _ => exact absurd (hpair r rfl) (by simp)

theorem loginResponse_tokens_current {r : LoginResponse} (h : LoginEffect some s (.ok r) t) :
    ∀ token ∈ (Response.loggedIn r).tokens, TokenCurrent t token := by
  obtain ⟨hcurrent, now, jti, hr⟩ := loginEffect_pair h
  intro token htoken
  rw [hr] at htoken
  simp only [Response.tokens, List.mem_cons, List.not_mem_nil, or_false] at htoken
  rcases htoken with rfl | rfl
  · exact ⟨_, _, _, _, rfl, hcurrent, by simp⟩
  · exact ⟨_, _, _, _, rfl, hcurrent, by simp⟩

theorem of_exec {α : Type} {P : Except AppError α → State → Prop} {p : App α}
    {r : Except AppError α} (hp : P (p.exec s).1 (p.exec s).2) (h : p.exec s = (r, t)) : P r t := by
  rwa [h] at hp

variable [External]

/-- The tokens of a successful operation are current, when the payloads presented to it name
known users. -/
theorem Op.tokens_current {op : Op} {r : Response} (hwf : s.WellFormed)
    (hpresented : ∀ payload, .signed payload ∈ op.presented →
      ∀ id, payload.id = some id → id < s.nextId)
    (h : op.program.exec s = (.ok r, t)) : ∀ token ∈ r.tokens, TokenCurrent t token := by
  have hwft := wellFormed_of_exec hwf h
  have hsudo {claims : TokenClaims} (hid : claims.id < s.nextId)
      (hversion : claims.tokenVersion = none) (hscopes : claims.scopes = none) :
      Current t claims := by
    have hnext := exec_nextId op.program s
    rw [h] at hnext
    refine .of_noScopes ⟨Nat.lt_of_lt_of_le hid hnext, fun u hu _ => ?_⟩ (by rw [hscopes]; rfl)
    rw [hversion]
    exact hwft.version_pos u hu
  cases op with
  | googleCallback state exchange request =>
    obtain ⟨l, hl, rfl⟩ := exec_map_ok.mp h
    exact loginResponse_tokens_current (of_exec (googleCallback_effect hwf _ _ _) hl)
  | verifyTwoFactorChallenge twoFactorToken code request =>
    obtain ⟨l, hl, rfl⟩ := exec_map_ok.mp h
    exact loginResponse_tokens_current (of_exec (verifyTwoFactorChallenge_effect hwf _ _ _) hl)
  | refreshToken token request =>
    obtain ⟨l, hl, rfl⟩ := exec_map_ok.mp h
    exact loginResponse_tokens_current (of_exec (refreshToken_effect hwf _ _) hl)
  | authenticateUser username password request =>
    obtain ⟨l, hl, rfl⟩ := exec_map_ok.mp h
    have heffect := of_exec (authenticateUser_effect hwf _ _ _) hl
    cases l with
    | challenge token =>
      intro _ htoken
      cases htoken
    | loggedIn l => exact loginResponse_tokens_current heffect.loggedIn
  | createSudoTokenUser username password =>
    obtain ⟨l, hl, rfl⟩ := exec_map_ok.mp h
    obtain ⟨user, exp, hfound, -, htoken⟩ := createSudoTokenUser_ok hl
    intro token hmem
    rw [List.mem_singleton.mp hmem, htoken]
    exact ⟨_, _, _, _, rfl, hsudo (selectUser_sudo_current hwf hfound "").1.1 rfl rfl,
      fun _ => rfl⟩
  | googleSudoToken header accessToken =>
    obtain ⟨l, hl, rfl⟩ := exec_map_ok.mp h
    obtain ⟨-, data, exp, hdata, htoken⟩ := googleSudoToken_ok hl
    obtain ⟨-, payload, keys, rfl, hkeys, -, -, rfl⟩ := verifyToken_ok hdata
    intro token hmem
    rw [List.mem_singleton.mp hmem, htoken]
    refine ⟨_, _, _, _, rfl, hsudo ?_ rfl rfl, fun _ => rfl⟩
    exact hpresented payload (by simp [presented]) keys.id (requiredKeys_eq_some hkeys).2.1
  | impersonateUser admin target current =>
    obtain ⟨l, hl, rfl⟩ := exec_map_ok.mp h
    obtain ⟨user, hfound, htoken⟩ := impersonateUser_ok hl
    have hsafe : PrivilegeSafe s t := by
      have := (AuthService.impersonateUser_writes admin target current 30).exec_privilegeSafe
        (by simp) s
      rwa [hl] at this
    intro token hmem
    rw [List.mem_singleton.mp hmem, htoken]
    exact ⟨_, _, _, _, rfl, (selectUser_impersonation_current hwf hfound admin).mono hsafe,
      by simp⟩
  | _ =>
    obtain ⟨_, -, rfl⟩ := exec_map_ok.mp h
    intro _ htoken
    cases htoken

/-! ## The ledger of a world -/

def TokenBounded (s : State) (token : Jwt) : Prop :=
  ∃ data exp type jti, token = .signed (encode data exp type jti) ∧ ClaimsBounded s data ∧
    (type = .sudo → data.tokenVersion = none)

omit [External] in
theorem TokenBounded.mono {token : Jwt} (h : TokenBounded s token) (hgrow : VersionsGrow s t) :
    TokenBounded t token := by
  obtain ⟨data, exp, type, jti, he, hbound, hsudo⟩ := h
  exact ⟨data, exp, type, jti, he, hbound.mono hgrow, hsudo⟩

omit [External] in
theorem TokenCurrent.bounded {token : Jwt} (h : TokenCurrent s token) : TokenBounded s token := by
  obtain ⟨data, exp, type, jti, he, hcurrent, hsudo⟩ := h
  exact ⟨data, exp, type, jti, he, hcurrent.1, hsudo⟩

omit [External] in
/-- A payload of an issued token names a known user. -/
theorem TokenBounded.id_lt {payload : Payload} (h : TokenBounded s (.signed payload)) {id : UserId}
    (hid : payload.id = some id) : id < s.nextId := by
  obtain ⟨data, exp, type, jti, he, hbound, -⟩ := h
  cases he
  cases hid
  exact hbound.1

namespace World

structure TokenLedger (w : World) : Prop where
  wellFormed : w.state.WellFormed
  bounded : ∀ token ∈ w.tokens, TokenBounded w.state token

omit [External] in
theorem Initial.tokenLedger {w : World} (h : Initial w) : TokenLedger w :=
  ⟨h.wellFormed, by simp [tokens, h.log]⟩

omit [External] in
theorem Unforged.id_lt {w : World} {op : Op} (hunforged : Unforged w (.call op))
    (h : TokenLedger w) (payload : Payload) (hmem : .signed payload ∈ op.presented) (id : UserId)
    (hid : payload.id = some id) : id < w.state.nextId := by
  rcases hunforged _ hmem with htoken | ⟨text, he⟩
  · exact (h.bounded _ htoken).id_lt hid
  · cases he

omit [External] in
theorem tokens_append (log : List (Op × Response)) (t : State) (op : Op) (r : Response) :
    (World.mk t (log ++ [(op, r)])).tokens = (World.mk t log).tokens ++ r.tokens := by
  simp [tokens]

/-- What happens to the tokens in one step: old ones stay, new ones are current. -/
theorem step_tokens {w : World} (h : TokenLedger w) {op : Op} (hunforged : Unforged w (.call op)) :
    ∀ token ∈ (w.step (.call op)).tokens,
      token ∈ w.tokens ∨ TokenCurrent (w.step (.call op)).state token := by
  simp only [step]
  rcases hexec : op.program.exec w.state with ⟨_ | r, t⟩
  · exact fun token htoken => .inl htoken
  · intro token htoken
    rw [record, tokens_append] at htoken
    rcases List.mem_append.mp htoken with hold | hnew
    · exact .inl hold
    · exact .inr (op.tokens_current h.wellFormed (hunforged.id_lt h) hexec token hnew)

theorem step_state (w : World) (op : Op) :
    (w.step (.call op)).state = (op.program.exec w.state).2 := by
  simp only [step]
  rcases op.program.exec w.state with ⟨_ | r, t⟩ <;> rfl

theorem step_versionsGrow (w : World) (e : Event) : VersionsGrow w.state (w.step e).state := by
  cases e with
  | advance d => exact .refl w.state
  | call op =>
    rw [step_state]
    exact exec_versionsGrow op.program w.state

theorem Later.versionsGrow {w w' : World} (h : Later w w') : VersionsGrow w.state w'.state :=
  RunsWhere.relates (fun x y => VersionsGrow x.state y.state) h (fun x => .refl x.state)
    (fun _ _ _ => VersionsGrow.trans) (fun x e _ => step_versionsGrow x e)

theorem TokenLedger.step {w : World} (h : TokenLedger w) {e : Event} (hunforged : Unforged w e) :
    TokenLedger (w.step e) := by
  cases e with
  | advance d => exact ⟨⟨h.wellFormed.1, h.wellFormed.2, h.wellFormed.3, h.wellFormed.4⟩, h.bounded⟩
  | call op =>
    refine ⟨?_, fun token htoken => ?_⟩
    · rw [step_state]
      exact exec_wellFormed op.program w.state h.wellFormed
    · rcases step_tokens h hunforged token htoken with hold | hnew
      · exact (h.bounded token hold).mono (step_versionsGrow w (.call op))
      · exact hnew.bounded

theorem Later.tokenLedger {w w' : World} (hrun : Later w w') (h : TokenLedger w) :
    TokenLedger w' :=
  hrun.invariant h (fun _ _ hunforged hx => hx.step hunforged)

theorem Reachable.tokenLedger {w : World} (h : Reachable w) : TokenLedger w := by
  obtain ⟨w₀, hinitial, hrun⟩ := h
  exact hrun.tokenLedger hinitial.tokenLedger

end World
end FastapiTemplate
