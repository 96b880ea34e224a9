import FastapiTemplate.EntryPoints

/-!
# Changing a password

A password change bumps the version of its user, so every token issued before is
older than the stored version from then on. That ends it wherever versions are
compared. The notification stream compares none: it keeps opening for an access
token until the token expires, is blacklisted or its user is gone.
-/

namespace FastapiTemplate

variable {s t : State}

/-- The version of the token is below the one stored for its user. -/
def Outdated (s : State) (token : Jwt) (user : UserId) : Prop :=
  user < s.nextId ∧ ∀ u ∈ s.db.users, u.id = user → token.tokenVersion < u.tokenVersion

theorem Outdated.mono {token : Jwt} {user : UserId} (h : Outdated s token user)
    (hgrow : VersionsGrow s t) : Outdated t token user := by
  refine ⟨h.1.trans_le hgrow.1, fun v hv hid => ?_⟩
  obtain ⟨u, hu, huid, hle⟩ := hgrow.2 v hv (hid ▸ h.1)
  exact (h.2 u hu (huid.trans hid)).trans_le hle

theorem Outdated.not_vouches {token : Jwt} {id : UserId} (h : Outdated s token id)
    (hid : token.userId = some id) {type : TokenTypes} {user : UserData} :
    ¬ Vouches s token type user := by
  rintro ⟨-, ⟨u, hu, rfl⟩, huser, hversion⟩
  have hlt := h.2 u hu (Option.some.inj (huser.symm.trans hid))
  exact hlt.ne hversion.symm

variable [External]

theorem updatePassword_exec (user : UserId) (password : String) (s : State) :
    ((AuthService.updatePassword user password).exec s).2 =
      s.drawn.setDb (s.db.updatePassword user (External.hashpw password s.nextId)) := rfl

/-- A token whose version was at most the stored one is outdated after the change. -/
theorem updatePassword_outdated {token : Jwt} {user : UserId} (hbound : TokenBounded s token)
    (hid : token.userId = some user) (password : String) :
    Outdated ((AuthService.updatePassword user password).exec s).2 token user := by
  obtain ⟨data, exp, type, jti, rfl, hbounded, -⟩ := hbound
  cases hid
  refine ⟨hbounded.1.trans (Nat.lt_succ_self _), fun v hv hvid => ?_⟩
  rw [updatePassword_exec] at hv
  obtain ⟨u, hu, rfl⟩ := List.mem_map.mp hv
  by_cases huser : u.id = data.id
  · simp only [huser, if_true]
    exact Nat.lt_succ_of_le (hbounded.2 u hu huser)
  · simp only [huser, if_false] at hvid

namespace World

/-- A token issued before a password change of its user is refused by an entry point at any later
time, unless the entry point is the notification stream and reads the token as in order. -/
theorem updatePassword_refused_iff (hemail : External.emailValid "" = false) {w : World}
    (hw : Reachable w) {user : UserId} {password : String} {w' : World}
    (hlater : Later (w.step (.call (.updatePassword user password))) w') {token : Jwt}
    (htoken : token ∈ w.tokens) (hid : token.userId = some user) (e : EntryPoint) :
    e.admits w'.state token = false ↔
      (e = .sseNotifications → ¬ StreamReads w'.state token user) := by
  have hbound := hw.tokenLedger.bounded token htoken
  have houtdated : Outdated w'.state token user := by
    refine Outdated.mono ?_ hlater.versionsGrow
    rw [step_state, Op.program, exec_map_state]
    exact updatePassword_outdated hbound hid password
  by_cases hstream : e = .sseNotifications
  · have hwf : w'.state.WellFormed :=
      (hlater.tokenLedger (hw.step (by simp [Unforged, Op.presented])).tokenLedger).wellFormed
    obtain ⟨data, exp, type, jti, rfl, -, -⟩ := hbound
    cases hid
    have hiff := sseNotifications_encode_isOk hwf data exp type jti
    rw [← Bool.not_eq_true, hstream]
    simp only [forall_const]
    exact not_congr hiff
  · refine ⟨fun _ he => absurd he hstream, fun _ => ?_⟩
    by_contra hadmits
    obtain ⟨type, data, hvouches⟩ :=
      EntryPoint.admits_vouches hemail hstream (Bool.not_eq_false _ ▸ hadmits)
    exact houtdated.not_vouches hid hvouches

omit [External] in
theorem updatePassword_refused_loginWorld :
    letI := External.plain
    ∃ token ∈ loginWorld.tokens, (EntryPoint.currentUser []).admits
      (loginWorld.step (.call (.updatePassword 0 "new"))).state token = false :=
  ⟨_, List.mem_cons_self, (@updatePassword_refused_iff External.plain rfl loginWorld
    loginWorld_reachable 0 "new" _ .refl _ List.mem_cons_self rfl (.currentUser [])).mpr (by simp)⟩

omit [External] in
/-- The stream opens for the access token after the password has been changed. -/
theorem stream_after_updatePassword :
    letI := External.plain
    Reachable loginWorld ∧ ∃ token ∈ loginWorld.tokens, token.userId = some 0 ∧
      EntryPoint.sseNotifications.admits
        (loginWorld.step (.call (.updatePassword 0 "new"))).state token = true :=
  ⟨loginWorld_reachable, _, List.mem_cons_self, rfl, rfl⟩

end World
end FastapiTemplate
