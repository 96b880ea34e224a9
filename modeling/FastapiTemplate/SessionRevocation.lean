import FastapiTemplate.SessionLedger

/-!
# Revoking sessions

The markers of a revoked session are named after the number of its access token.
The refresh token of the same login has a number of its own, for which no marker is
ever set: it stays usable after the session has been revoked, alone or with all
others, until it expires by itself.
-/

namespace FastapiTemplate.World

variable [External]

omit [External] in
/-- In a world with a session ledger, only its expiry ends a refresh token. -/
theorem SessionLedger.refresh_accepted_iff {w : World} (h : SessionLedger w) {l : LoginResponse}
    (hl : l ∈ w.logins) :
    Accepted w.state l.token.refreshToken .refresh ↔
      ¬ l.token.refreshToken.ExpiredAt w.state.clock := by
  obtain ⟨now, jti, hlogin, -⟩ := h.logins l hl
  have hmarker : w.state.redis (.blacklist .refresh (jti + 1)) = none := by
    by_contra hmarker
    refine (h.markersApart _ hmarker).2 l hl ?_
    rw [hlogin]
    rfl
  rw [hlogin]
  unfold loginResponse
  rw [accepted_encode_iff, ExpiringStore.get_eq_none_of_apply hmarker, Jwt.expiredAt_encode]
  simp

omit [External] in
/-- The access token of a pair expires before its refresh token. -/
theorem expired_access_of_refresh {l : LoginResponse} {now jti : ℕ} {clock : ℕ}
    (hlogin : l = loginResponse l.user now jti) (h : l.token.refreshToken.ExpiredAt clock) :
    l.token.accessToken.ExpiredAt clock := by
  rw [hlogin] at h ⊢
  obtain ⟨exp, hexp, hle⟩ := h
  cases hexp
  have h : minutes settings.accessTokenExpireMinutes ≤ days settings.refreshTokenExpireDays := by
    decide
  exact ⟨_, rfl,
    le_trans (Nat.mul_le_mul_right _ (Nat.div_le_div_right (Nat.add_le_add_left h _))) hle⟩

/-! ## One session -/

/-- From the world on, neither token of the login that wrote the row of that number is
accepted. -/
def SessionEnded (w : World) (jti : ℕ) : Prop :=
  ∀ w', Later w w' → ∀ l ∈ w.logins, l.token.accessToken.jti = some jti →
    ¬ Accepted w'.state l.token.accessToken .access ∧
      ¬ Accepted w'.state l.token.refreshToken .refresh

omit [External] in
/-- A revocation that succeeds finds a row with time left. -/
theorem revokeUserSession_ok {user : UserId} {jti : ℕ} {s : State}
    (h : ((UserService.revokeUserSession user jti).exec s).1 = .ok ()) :
    ∃ row ∈ s.db.userSessions, row.jti = jti ∧ row.userId = user ∧ s.clock < row.expiresAt := by
  rw [revokeUserSession_exec] at h
  cases httl : (s.db.deleteSession user jti s.clock).1 with
  | none =>
    rw [httl] at h
    cases h
  | some ttl =>
    obtain ⟨row, hrow, hjti, huser, hval⟩ := deleteSession_some httl
    rw [httl] at h
    dsimp only at h
    split_ifs at h
    rw [blacklistSession_exec] at h
    split_ifs at h with hpos
    refine ⟨row, hrow, hjti, huser, ?_⟩
    by_contra hle
    refine hpos ?_
    rw [hval, Database.ttlSeconds]
    by_cases hd : (0 : ℤ) ≤ (row.expiresAt : ℤ) - s.clock
    · have hzero : (row.expiresAt : ℤ) - s.clock = 0 := by omega
      simp [hzero, second]
    · rw [if_neg hd]
      have : (0 : ℤ) ≤ (2 * (-((row.expiresAt : ℤ) - s.clock)) + second) / (2 * second) := by
        apply Int.ediv_nonneg <;> simp only [second] <;> omega
      omega

omit [External] in
/-- The pair of a live row outlives the row. -/
theorem WroteRow.refresh_alive {l : LoginResponse} {row : UserSessionCreate} {clock : ℕ}
    (h : WroteRow l row) (hlive : clock < row.expiresAt) :
    ¬ l.token.refreshToken.ExpiredAt clock := by
  obtain ⟨now, hlogin, -, hexpires⟩ := h
  rw [hlogin]
  rintro ⟨exp, hexp, hle⟩
  cases hexp
  rw [hexpires] at hlive
  simp only [minutes, days, settings, second] at hle hlive
  omega

/-- No successful revocation of a session ends it: the refresh token of its login is accepted
right after. -/
theorem revokeUserSession_not_ended {w : World} (hw : Reachable w) {user : UserId} {jti : ℕ}
    (hok : ((UserService.revokeUserSession user jti).exec w.state).1 = .ok ()) :
    ¬ SessionEnded (w.step (.call (.revokeUserSession user jti))) jti := by
  intro hended
  obtain ⟨row, hrow, rfl, -, hlive⟩ := revokeUserSession_ok hok
  obtain ⟨l, hl, hwrote⟩ := hw.sessionLedger.rows row hrow
  have hw' : Reachable (w.step (.call (.revokeUserSession user row.jti))) :=
    hw.step (by simp [Unforged, Op.presented])
  have hl' : l ∈ (w.step (.call (.revokeUserSession user row.jti))).logins := by
    rw [step_logins]
    exact List.mem_append_left _ hl
  have haccess : l.token.accessToken.jti = some row.jti := by
    obtain ⟨now, hlogin, -⟩ := hwrote
    rw [hlogin, loginResponse_accessJti]
  refine (hended _ .refl l hl' haccess).2 ((hw'.sessionLedger.refresh_accepted_iff hl').mpr ?_)
  rw [step_state, exec_clock]
  exact hwrote.refresh_alive hlive

omit [External] in
theorem revokeUserSession_not_ended_loginWorld :
    letI := External.plain
    ((UserService.revokeUserSession 0 1).exec loginWorld.state).1 = .ok () ∧
      ¬ SessionEnded (loginWorld.step (.call (.revokeUserSession 0 1))) 1 :=
  ⟨rfl, @revokeUserSession_not_ended External.plain loginWorld loginWorld_reachable 0 1 rfl⟩

omit [External] in
/-- The refresh token of the revoked session is exchanged for a new pair. -/
theorem refresh_after_revokeUserSession :
    letI := External.plain
    let w := loginWorld.step (.call (.revokeUserSession 0 1))
    ((UserService.revokeUserSession 0 1).exec loginWorld.state).1 = .ok () ∧
      ¬ SessionEnded w 1 ∧
      ∃ l ∈ w.logins, ((AuthService.refreshToken l.token.refreshToken {}).exec w.state).1.isOk := by
  refine ⟨rfl, fun hended => ?_, _, List.mem_singleton_self _, rfl⟩
  exact (hended _ .refl _ (List.mem_singleton_self _) rfl).2 ⟨_, rfl⟩

/-! ## All sessions -/

/-- From the world on, no pair that had been issued to the user before is accepted. -/
def UserLockedOut (w : World) (user : UserId) (before : List LoginResponse) : Prop :=
  ∀ w', Later w w' → ∀ l ∈ before, l.user.id = user →
    ¬ Accepted w'.state l.token.accessToken .access ∧
      ¬ Accepted w'.state l.token.refreshToken .refresh

/-- Revoking all sessions of a user locks out what was issued before exactly when every refresh
token issued to the user has expired by the time of the call. -/
theorem revokeAllUserSessions_locksOut_iff {w : World} (hw : Reachable w) (user : UserId) :
    UserLockedOut (w.step (.call (.revokeAllUserSessions user))) user w.logins ↔
      ∀ l ∈ w.logins, l.user.id = user → l.token.refreshToken.ExpiredAt w.state.clock := by
  have hw' : Reachable (w.step (.call (.revokeAllUserSessions user))) :=
    hw.step (by simp [Unforged, Op.presented])
  have hclock : (w.step (.call (.revokeAllUserSessions user))).state.clock = w.state.clock := by
    rw [step_state, exec_clock]
  constructor
  · intro hlocked l hl huser
    have hl' : l ∈ (w.step (.call (.revokeAllUserSessions user))).logins := by
      rw [step_logins]
      exact List.mem_append_left _ hl
    by_contra halive
    refine (hlocked _ .refl l hl huser).2 ((hw'.sessionLedger.refresh_accepted_iff hl').mpr ?_)
    rwa [hclock]
  · intro hexpired w' hlater l hl huser
    have hle : w.state.clock ≤ w'.state.clock := hclock ▸ hlater.clock_le
    have hrefresh := hexpired l hl huser
    obtain ⟨now, jti, hlogin, -⟩ := hw.sessionLedger.logins l hl
    exact ⟨fun h => h.checked.2 ((expired_access_of_refresh hlogin hrefresh).later hle),
      fun h => h.checked.2 (hrefresh.later hle)⟩

omit [External] in
theorem revokeAllUserSessions_locksOut_iff_loginWorld :
    letI := External.plain
    UserLockedOut (loginWorld.step (.call (.revokeAllUserSessions 0))) 0 loginWorld.logins ↔
      ∀ l ∈ loginWorld.logins, l.user.id = 0 →
        l.token.refreshToken.ExpiredAt loginWorld.state.clock :=
  @revokeAllUserSessions_locksOut_iff External.plain loginWorld loginWorld_reachable 0

omit [External] in
/-- After all sessions have been revoked the refresh token is exchanged for a new pair. -/
theorem refresh_after_revokeAllUserSessions :
    letI := External.plain
    let w := loginWorld.step (.call (.revokeAllUserSessions 0))
    Reachable loginWorld ∧ ¬ UserLockedOut w 0 loginWorld.logins ∧
      ∃ l ∈ loginWorld.logins,
        ((AuthService.refreshToken l.token.refreshToken {}).exec w.state).1.isOk := by
  refine ⟨loginWorld_reachable, fun hlocked => ?_, _, List.mem_singleton_self _, rfl⟩
  exact (hlocked _ .refl _ (List.mem_singleton_self _) rfl).2 ⟨_, rfl⟩

end FastapiTemplate.World
