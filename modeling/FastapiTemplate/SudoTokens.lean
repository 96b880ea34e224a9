import FastapiTemplate.EntryPoints

/-!
# Sudo tokens of later versions

The claims of a sudo token are written down without a `token_version`, as no other issuing path
does, and `verify_token` reads a missing version as 1. `get_sudo_user` compares it with the stored
version, so a sudo token works exactly for a user who is still at version 1.
-/

namespace FastapiTemplate

variable {s t : State}

theorem getUserById_exec {id : UserId} {user : UserData}
    (h : s.db.selectUser (.id id) = some user) :
    (UserService.getUserById id).exec s = (.ok user, s) := by
  rw [UserService.getUserById, UserDAO.getById, exec_ask_bind]
  simp only [handler]
  rw [h]
  rfl

structure SudoDue (s : State) (token : Jwt) (user : UserRow) : Prop where
  unexpired : ¬ token.ExpiredAt s.clock
  blacklist : ∀ jti, token.jti = some jti → s.redis.get s.clock (.blacklist .sudo jti) = none
  version : ∃ u ∈ s.db.users, u.id = user.id ∧ u.tokenVersion = user.tokenVersion

def SudoAccepted (s : State) (token : Jwt) (user : UserId) : Prop :=
  ∃ found, (getSudoUser token).exec s = (.ok found, s) ∧ found.id = user

theorem sudoAccepted_version {name : String} {user : UserId} {exp jti : ℕ}
    (h : SudoAccepted s (.signed (encode (AuthService.sudoClaims name user) exp .sudo jti)) user) :
    ∃ u ∈ s.db.users, u.id = user ∧ u.tokenVersion = 1 := by
  obtain ⟨found, hok, hid⟩ := h
  obtain ⟨-, hvouches, -⟩ := getSudoUser_ok hok
  obtain ⟨u, hu, rfl⟩ := hvouches.stored
  exact ⟨u, hu, hid, hvouches.version⟩

/-- The stored version has to be the default of `verify_token`. -/
theorem sudoAccepted_of_due (hwf : s.WellFormed) {user : UserRow} (hversion : user.tokenVersion = 1)
    {name : String} {exp jti : ℕ}
    (hdue : SudoDue s (.signed (encode (AuthService.sudoClaims name user.id) exp .sudo jti)) user) :
    SudoAccepted s (.signed (encode (AuthService.sudoClaims name user.id) exp .sudo jti))
      user.id := by
  obtain ⟨u, hu, hid, hsame⟩ := hdue.version
  have hverify := (verifyToken_encode_ok_iff (AuthService.sudoClaims name user.id) exp .sudo .sudo
    jti s s _).mpr ⟨⟨rfl, by simpa using hdue.unexpired, hdue.blacklist jti rfl⟩, rfl, rfl⟩
  have hfound : (UserService.getUserById user.id).exec s = (.ok (s.db.userData u), s) :=
    getUserById_exec (selectUser_of_mem hwf hu hid)
  refine ⟨s.db.userData u, ?_, hid⟩
  apply exec_bind_ok.mpr
  refine ⟨_, s, hverify, ?_⟩
  apply exec_bind_ok.mpr
  refine ⟨_, s, hfound, ?_⟩
  have hmatch : ¬ (s.db.userData u).tokenVersion ≠ 1 := not_not.mpr (hsame.trans hversion)
  exact congrArg (fun p : App UserData => p.exec s) (if_neg hmatch)

/-! ## Issuing -/

theorem sudoResponse_exec (name : String) (user : UserId) (s : State) :
    (AuthService.sudoResponse name user).exec s =
      (.ok ⟨.signed (encode (AuthService.sudoClaims name user)
        ((s.clock + minutes settings.sudoTokenExpireMinutes) / second) .sudo s.nextId),
        settings.sudoTokenExpireMinutes * 60⟩, s.drawn) := rfl

variable [External]

theorem createSudoTokenUser_exec {username password : String} {r : SudoTokenResponse}
    {user : UserData} (hfound : s.db.selectUser (.username username) = some user)
    (h : (AuthService.createSudoTokenUser username password).exec s = (.ok r, t)) :
    (AuthService.sudoResponse user.username user.id).exec s = (.ok r, t) := by
  rw [AuthService.createSudoTokenUser, UserDAO.getByUsername, exec_ask_bind] at h
  simp only [handler] at h
  rw [hfound] at h
  dsimp only at h
  split at h
  · cases h
  · exact h

namespace World

/-- A sudo token for the stored user is handed out; the world after it. The exchange of an access
token calls `create_sudo_token_oauth` with the name and the identifier in this token. -/
inductive IssuesSudo (w : World) (user : UserRow) : Jwt → World → Prop
  | user {username password : String} {r : SudoTokenResponse} {t : State}
      (hfound : w.state.db.selectUser (.username username) = some (w.state.db.userData user))
      (hexec : (AuthService.createSudoTokenUser username password).exec w.state = (.ok r, t)) :
      IssuesSudo w user r.sudoToken
        ⟨t, w.log ++ [(.createSudoTokenUser username password, .sudo r)]⟩
  | oauth {data : UserData} {header accessToken : Jwt} {r : SudoTokenResponse} {t : State}
      (hid : data.id = user.id)
      (hexec : (AuthService.createSudoTokenOauth data).exec w.state = (.ok r, t)) :
      IssuesSudo w user r.sudoToken
        ⟨t, w.log ++ [(.googleSudoToken header accessToken, .sudo r)]⟩

theorem IssuesSudo.eq {w after : World} {user : UserRow} {token : Jwt}
    (h : IssuesSudo w user token after) :
    after.state = w.state.drawn ∧ ∃ name, token = .signed (encode
      (AuthService.sudoClaims name user.id)
        ((w.state.clock + minutes settings.sudoTokenExpireMinutes) / second) .sudo
          w.state.nextId) := by
  cases h with
  | user hfound hexec =>
    have hsudo := createSudoTokenUser_exec hfound hexec
    rw [sudoResponse_exec] at hsudo
    cases hsudo
    exact ⟨rfl, user.username, rfl⟩
  | @oauth data header accessToken r t hid hexec =>
    rw [AuthService.createSudoTokenOauth, sudoResponse_exec, hid] at hexec
    cases hexec
    exact ⟨rfl, data.username, rfl⟩

/-! ## Runs -/

theorem Later.wellFormed {w w' : World} (hrun : Later w w') (h : w.state.WellFormed) :
    w'.state.WellFormed := by
  apply hrun.invariant h
  intro w e _ hwf
  cases e with
  | advance d => exact ⟨hwf.1, hwf.2, hwf.3, hwf.4⟩
  | call op =>
    rw [step_state]
    exact exec_wellFormed op.program w.state hwf

omit [External] in
theorem Op.not_sudo_area (op : Op) : Area.blacklist .sudo ∉ op.areas := by
  cases op <;> simp [Op.areas]

/-- Nothing ever blacklists a sudo token. -/
theorem Reachable.sudo_blacklist {w : World} (h : Reachable w) (jti : ℕ) :
    w.state.redis (.blacklist .sudo jti) = none := by
  obtain ⟨w₀, hinitial, hrun⟩ := h
  have hstart : w₀.state.redis (.blacklist .sudo jti) = none := by
    rw [hinitial.redis]
    rfl
  apply hrun.invariant hstart
  intro w e _ hnone
  cases e with
  | advance d => exact hnone
  | call op =>
    rw [step_state]
    exact (op.program_writes.exec_blacklist (Op.not_sudo_area op) w.state jti).trans hnone

/-- The token is due in the state in which it was issued. -/
theorem IssuesSudo.due {w after : World} {user : UserRow} {token : Jwt} (hw : Reachable w)
    (huser : user ∈ w.state.db.users) (h : IssuesSudo w user token after) :
    SudoDue after.state token user := by
  obtain ⟨hstate, name, rfl⟩ := h.eq
  rw [hstate]
  refine ⟨?_, ?_, user, huser, rfl, rfl⟩
  · rw [Jwt.expiredAt_encode]
    have hminutes : minutes settings.sudoTokenExpireMinutes = 3600 * second := rfl
    rw [hminutes, Nat.add_mul_div_right _ _ (by decide : 0 < second)]
    have hlt : w.state.clock < w.state.clock / second * second + second :=
      Nat.lt_div_mul_add (by decide)
    have hle : w.state.clock / second * second + second ≤
        (w.state.clock / second + 3600) * second := by
      rw [Nat.add_mul]
      exact Nat.add_le_add_left (Nat.le_mul_of_pos_left _ (by decide)) _
    rw [State.drawn_clock, not_le]
    exact hlt.trans_le hle
  · intro jti _
    exact ExpiringStore.get_eq_none_of_apply (hw.sudo_blacklist jti) _

/-- A sudo token is accepted for its user as long as it should be exactly if its user was at
version 1 when it was issued. -/
theorem sudo_accepted_iff {w after : World} (hw : Reachable w) {user : UserRow}
    (huser : user ∈ w.state.db.users) {token : Jwt} (hissued : IssuesSudo w user token after) :
    (∀ later, Later after later → SudoDue later.state token user →
      SudoAccepted later.state token user.id) ↔ user.tokenVersion = 1 := by
  have hwf : w.state.WellFormed := hw.tokenLedger.wellFormed
  obtain ⟨hstate, name, htoken⟩ := hissued.eq
  constructor
  · intro h
    have haccepted := h after .refl (hissued.due hw huser)
    rw [htoken] at haccepted
    obtain ⟨u, hu, hid, hversion⟩ := sudoAccepted_version haccepted
    rw [hstate] at hu
    rwa [← List.inj_on_of_nodup_map hwf.nodup hu huser hid]
  · intro hversion later hlater hdue
    have hafter : after.state.WellFormed := by
      rw [hstate]
      exact exec_wellFormed App.draw w.state hwf
    subst htoken
    exact sudoAccepted_of_due (hlater.wellFormed hafter) hversion hdue

omit [External] in
/-- The account of a first login asks for a sudo token. -/
theorem sudo_accepted_loginWorld :
    letI := External.plain
    ∃ token after, IssuesSudo loginWorld testUser token after ∧
      ∀ later, Later after later → SudoDue later.state token testUser →
        SudoAccepted later.state token 0 := by
  let _ := External.plain
  have hissued : IssuesSudo loginWorld testUser _ _ :=
    @IssuesSudo.user _ _ _ "testuser" "U*U" _ _ rfl rfl
  exact ⟨_, _, hissued, (sudo_accepted_iff loginWorld_reachable List.mem_cons_self hissued).mpr rfl⟩

def promotedWorld : World :=
  letI := External.plain
  (start { users := [testUser], roles := [⟨1, "viewer", none⟩] } 2).step
    (.call (.assignRoles 0 [1]))

def promotedUser : UserRow := { testUser with tokenVersion := 2 }

omit [External] in
/-- The sudo token that the account gets for its password is refused at once. -/
theorem promoted_sudo_refused :
    letI := External.plain
    Reachable promotedWorld ∧ promotedUser ∈ promotedWorld.state.db.users ∧
      ∃ token after, IssuesSudo promotedWorld promotedUser token after ∧
        SudoDue after.state token promotedUser ∧
        ((getSudoUser token).exec after.state).1 =
          .error (.http 401 (.text "Could not validate credentials")) ∧
        ¬ SudoAccepted after.state token promotedUser.id := by
  let _ := External.plain
  have hreachable : Reachable promotedWorld :=
    (start_initial (by simp) (by simp [testUser]) (by simp) rfl).reachable.step
      (by simp [Unforged, Op.presented])
  have hmem : promotedUser ∈ promotedWorld.state.db.users := List.mem_cons_self
  have hissued : IssuesSudo promotedWorld promotedUser _ _ :=
    @IssuesSudo.user _ _ _ "testuser" "U*U" _ _ rfl rfl
  refine ⟨hreachable, hmem, _, _, hissued, hissued.due hreachable hmem, rfl, ?_⟩
  rintro ⟨found, hok, -⟩
  cases (congrArg Prod.fst hok : Except.error _ = Except.ok found)

end World
end FastapiTemplate
