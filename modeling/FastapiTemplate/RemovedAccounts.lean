import FastapiTemplate.EntryPoints

/-!
# Accounts that have been removed

`delete_users` takes the rows away, and the identifier of a row is never drawn again. Every entry
point looks its user up, so that none of them lets a token of a removed account through, and every
path that issues tokens has read the user or has written a row that refers to it.
-/

namespace FastapiTemplate

variable {s t : State} {user : UserId}

/-! ## Removed for good -/

structure Removed (s : State) (user : UserId) : Prop where
  known : user < s.nextId
  gone : ∀ u ∈ s.db.users, u.id ≠ user

theorem Removed.later (h : Removed s user) (hgrow : VersionsGrow s t) : Removed t user := by
  refine ⟨h.known.trans_le hgrow.1, fun v hv hid => ?_⟩
  obtain ⟨u, hu, huid, -⟩ := hgrow.2 v hv (hid ▸ h.known)
  exact h.gone u hu (huid.trans hid)

theorem Removed.selectUser_ne (h : Removed s user) {found : UserWhere} {data : UserData}
    (hfound : s.db.selectUser found = some data) : data.id ≠ user := by
  obtain ⟨u, hu, -, rfl⟩ := selectUser_eq_some hfound
  exact h.gone u hu

theorem deleteUsers_removed (hwf : s.WellFormed) (huser : ∃ u ∈ s.db.users, u.id = user)
    {ids : List UserId} (hids : user ∈ ids) :
    Removed ((UserDAO.deleteUsers ids).exec s).2 user := by
  obtain ⟨u, hu, rfl⟩ := huser
  rw [UserDAO.deleteUsers, if_neg (List.ne_nil_of_mem hids)]
  refine ⟨hwf.userId_lt u hu, fun v hv hid => ?_⟩
  obtain ⟨-, hv⟩ := List.mem_filter.mp hv
  exact of_decide_eq_true hv (hid ▸ hids)

/-! ## No token is issued -/

/-- A session row refers to a user who is stored. -/
theorem Database.upsertUserSession_user {db : Database} {row : UserSessionCreate}
    (h : (db.upsertUserSession row).1 = .ok ()) : ∃ u ∈ db.users, u.id = row.userId := by
  unfold upsertUserSession at h
  split_ifs at h with _ hmissing
  all_goals simpa using hmissing

theorem Removed.loginEffect_tokens (hremoved : Removed s user) {r : LoginResponse}
    (h : LoginEffect some s (.ok r) t) :
    ∀ token ∈ (Response.loggedIn r).tokens, token.userId ≠ some user := by
  cases h with
  | issued data request hquiet hcurrent hpair hrow =>
    obtain ⟨u, hu, hid⟩ := Database.upsertUserSession_user hrow
    have hne := (hremoved.later hquiet.safe.versionsGrow).gone u hu
    cases hpair
    intro token htoken he
    have hsubject : token.userId = some data.id := by
      rcases List.mem_pair.mp htoken with rfl | rfl <;> rfl
    exact hne (hid.trans (Option.some.inj (hsubject.symm.trans he)))
  | quiet hpair _ => exact absurd (hpair r rfl) (by simp)

variable [External]

/-- No operation hands out a token of an account that was removed before. -/
theorem Removed.issues_none (hemail : External.emailValid "" = false) (hwf : s.WellFormed)
    (hremoved : Removed s user) {op : Op} {r : Response} (h : op.program.exec s = (.ok r, t)) :
    ∀ token ∈ r.tokens, token.userId ≠ some user := by
  cases op with
  | googleCallback state exchange request =>
    obtain ⟨l, hl, rfl⟩ := exec_map_ok.mp h
    exact hremoved.loginEffect_tokens (of_exec (googleCallback_effect hwf _ _ _) hl)
  | verifyTwoFactorChallenge twoFactorToken code request =>
    obtain ⟨l, hl, rfl⟩ := exec_map_ok.mp h
    exact hremoved.loginEffect_tokens (of_exec (verifyTwoFactorChallenge_effect hwf _ _ _) hl)
  | refreshToken token request =>
    obtain ⟨l, hl, rfl⟩ := exec_map_ok.mp h
    exact hremoved.loginEffect_tokens (of_exec (refreshToken_effect hwf _ _) hl)
  | authenticateUser username password request =>
    obtain ⟨l, hl, rfl⟩ := exec_map_ok.mp h
    have heffect := of_exec (authenticateUser_effect hwf _ _ _) hl
    cases l with
    | challenge token => exact fun _ htoken => absurd htoken List.not_mem_nil
    | loggedIn l => exact hremoved.loginEffect_tokens heffect.loggedIn
  | createSudoTokenUser username password =>
    obtain ⟨l, hl, rfl⟩ := exec_map_ok.mp h
    obtain ⟨data, exp, hfound, -, htoken⟩ := createSudoTokenUser_ok hl
    intro token hmem he
    rw [List.mem_singleton.mp hmem, htoken] at he
    exact hremoved.selectUser_ne hfound (Option.some.inj he)
  | googleSudoToken header accessToken =>
    obtain ⟨l, hl, rfl⟩ := exec_map_ok.mp h
    have hvalid := (googleSudoToken_ok hl).1
    rw [hemail] at hvalid
    cases hvalid
  | impersonateUser admin target current =>
    obtain ⟨l, hl, rfl⟩ := exec_map_ok.mp h
    obtain ⟨data, hfound, htoken⟩ := impersonateUser_ok hl
    intro token hmem he
    rw [List.mem_singleton.mp hmem, htoken] at he
    exact hremoved.selectUser_ne hfound (Option.some.inj he)
  | _ =>
    obtain ⟨_, -, rfl⟩ := exec_map_ok.mp h
    exact fun _ htoken => absurd htoken List.not_mem_nil

/-! ## No token is let through -/

theorem Removed.admits (hemail : External.emailValid "" = false) (hremoved : Removed s user)
    {token : Jwt} (htoken : token.userId = some user) (e : EntryPoint) :
    e.admits s token = false := by
  rw [Bool.eq_false_iff]
  intro hadmits
  by_cases hstream : e = .sseNotifications
  · subst hstream
    obtain ⟨data, found, hdata, hfound, -⟩ := sseNotifications_isOk.mp hadmits
    obtain ⟨-, hid, -⟩ := verifyToken_reads hdata
    have hdataId : data.id = user := Option.some.inj (hid.symm.trans htoken)
    exact hremoved.selectUser_ne hfound ((selectUser_id hfound).1.trans hdataId)
  · obtain ⟨type, found, hvouches⟩ := e.admits_vouches hemail hstream hadmits
    obtain ⟨u, hu, rfl⟩ := hvouches.stored
    exact hremoved.gone u hu (Option.some.inj (hvouches.id.symm.trans htoken))

/-! ## Runs -/

namespace World

/-- Nobody gets in under the identifier: there is no such user, no entry point lets a token of it
through, whatever the token claims, and every token that was handed out is one of these. -/
structure ShutOut (w : World) (user : UserId) (tokens : List Jwt) : Prop where
  absent : ∀ u ∈ w.state.db.users, u.id ≠ user
  refused : ∀ token : Jwt, token.userId = some user → ∀ e : EntryPoint,
    e.admits w.state token = false
  issued : ∀ token ∈ w.tokens, token.userId = some user → token ∈ tokens

/-- What the removal of an account leaves, along runs. -/
structure AfterRemoval (user : UserId) (tokens : List Jwt) (w : World) : Prop where
  wellFormed : w.state.WellFormed
  removed : Removed w.state user
  issued : ∀ token ∈ w.tokens, token.userId = some user → token ∈ tokens

theorem AfterRemoval.step (hemail : External.emailValid "" = false) {tokens : List Jwt} {w : World}
    (h : AfterRemoval user tokens w) (e : Event) : AfterRemoval user tokens (w.step e) := by
  refine ⟨?_, h.removed.later (step_versionsGrow w e), ?_⟩
  · cases e with
    | advance d => exact ⟨h.wellFormed.1, h.wellFormed.2, h.wellFormed.3, h.wellFormed.4⟩
    | call op =>
      rw [step_state]
      exact exec_wellFormed op.program w.state h.wellFormed
  · cases e with
    | advance d => exact h.issued
    | call op =>
      simp only [World.step]
      rcases hexec : op.program.exec w.state with ⟨_ | r, t⟩
      · exact h.issued
      · rw [record, tokens_append]
        intro token htoken hid
        rcases List.mem_append.mp htoken with hold | hnew
        · exact h.issued token hold hid
        · exact absurd hid (h.removed.issues_none hemail h.wellFormed hexec token hnew)

/-- Once an account has been deleted, in every later world nobody gets in under its identifier,
and no token of it was handed out after the deletion. -/
theorem deleted_shutOut (hemail : External.emailValid "" = false) {w w' : World}
    (hw : Reachable w) {ids : List UserId} (huser : ∃ u ∈ w.state.db.users, u.id = user)
    (hids : user ∈ ids) (hrun : Later (w.step (.call (.deleteUsers ids))) w') :
    ShutOut w' user w.tokens := by
  have hwf := hw.tokenLedger.wellFormed
  have hstart : AfterRemoval user w.tokens (w.step (.call (.deleteUsers ids))) := by
    refine ⟨?_, ?_, ?_⟩
    · rw [step_state]
      exact exec_wellFormed _ w.state hwf
    · rw [step_state, Op.program, exec_map_state]
      exact deleteUsers_removed hwf huser hids
    · simp only [World.step]
      rcases hexec : (Op.program (.deleteUsers ids)).exec w.state with ⟨_ | r, t⟩
      · exact fun _ htoken _ => htoken
      · obtain ⟨_, -, rfl⟩ := exec_map_ok.mp hexec
        have htokens : Response.done.tokens = [] := rfl
        rw [record, tokens_append, htokens, List.append_nil]
        exact fun _ htoken _ => htoken
  have hlater : AfterRemoval user w.tokens w' :=
    hrun.invariant hstart (fun x e _ hx => hx.step hemail e)
  exact ⟨hlater.removed.gone, fun token htoken e => hlater.removed.admits hemail htoken e,
    hlater.issued⟩

omit [External] in
/-- A user who has logged in is deleted, and then tries to log in and to refresh. -/
theorem deleted_shutOut_loginWorld :
    letI := External.plain
    let w := loginWorld.step (.call (.deleteUsers [0]))
    (∃ token ∈ loginWorld.tokens, EntryPoint.admits loginWorld.state token (.currentUser [])) ∧
      ShutOut (w.step (.call (.authenticateUser "testuser" "U*U" {}))) 0 loginWorld.tokens := by
  let _ := External.plain
  refine ⟨⟨_, List.mem_cons_self, rfl⟩, deleted_shutOut rfl loginWorld_reachable
    ⟨_, List.mem_cons_self, rfl⟩ List.mem_cons_self
    (.tail _ .refl (by simp [Unforged, Op.presented]))⟩

end World
end FastapiTemplate
