import FastapiTemplate.SessionRevocation

/-!
# Atomic revocation

The `DELETE` has taken the row away before its remaining lifetime is looked at. A lifetime
that rounds to zero is reported as a missing session, and one that rounds to a negative
number is refused by Redis. A lifetime that is rounded down can end the markers before the
token, whose own expiry is cut to a whole second.
-/

namespace FastapiTemplate

variable {s : State} {user : UserId} {jti : ℕ} {row : UserSessionCreate}

def State.sessionOf (s : State) (user : UserId) (jti : ℕ) : Option UserSessionCreate :=
  s.db.userSessions.find? (fun r => r.jti = jti && r.userId = user)

/-- The access token of a session, with the claims it was issued for. -/
def UserSessionCreate.accessToken (row : UserSessionCreate) (data : TokenClaims) : Jwt :=
  .signed (encode data (row.expiresAt / second) .access row.jti)

/-- The login that wrote a row handed out its access token. -/
theorem World.WroteRow.accessToken {l : LoginResponse} (h : World.WroteRow l row) :
    l.token.accessToken = row.accessToken (AuthService.sessionClaims l.user) := by
  obtain ⟨now, hlogin, -, hexpires⟩ := h
  rw [hlogin, UserSessionCreate.accessToken, hexpires]
  rfl

/-! ## The remaining lifetime -/

theorem ttlSeconds_pos_iff {expiresAt now : ℕ} :
    0 < Database.ttlSeconds expiresAt now ↔ now + second / 2 ≤ expiresAt := by
  simp only [Database.ttlSeconds, second]
  split_ifs <;> omega

/-- Markers that are set for the rounded lifetime outlive the token, whose expiry is cut to
a whole second, unless the rounding takes off more than the cut. -/
theorem ttlSeconds_covers_iff {expiresAt now : ℕ} (h : now + second / 2 ≤ expiresAt) :
    expiresAt / second * second ≤ now + (Database.ttlSeconds expiresAt now).toNat * second ↔
      now % second ≤ expiresAt % second ∨ second ≤ 2 * ((expiresAt - now) % second) := by
  simp only [Database.ttlSeconds, second] at h ⊢
  rw [if_pos (by omega)]
  omega

/-! ## What one revocation does -/

theorem sessionOf_eq_none_iff : s.sessionOf user jti = none ↔
    ∀ row ∈ s.db.userSessions, ¬(row.jti = jti ∧ row.userId = user) := by
  rw [State.sessionOf, List.find?_eq_none]
  simp only [Bool.and_eq_true, decide_eq_true_eq]

@[simp] theorem sessionOf_deleteSession : (s.deleteSession user jti).sessionOf user jti = none :=
  sessionOf_eq_none_iff.mpr (fun _ hrow => of_decide_eq_true (List.mem_filter.mp hrow).2)

theorem deleteSession_ttl : (s.db.deleteSession user jti s.clock).1 =
    (s.sessionOf user jti).map (fun row => Database.ttlSeconds row.expiresAt s.clock) := rfl

theorem sessionOf_spec (h : s.sessionOf user jti = some row) :
    row ∈ s.db.userSessions ∧ row.jti = jti ∧ row.userId = user := by
  have hmatch := List.find?_some h
  simp only [Bool.and_eq_true, decide_eq_true_eq] at hmatch
  exact ⟨List.mem_of_find?_eq_some h, hmatch.1, hmatch.2⟩

theorem userSessions_deleteSession_of_none (h : s.sessionOf user jti = none) :
    (s.deleteSession user jti).db.userSessions = s.db.userSessions :=
  List.filter_eq_self.mpr (fun r hr => decide_eq_true (sessionOf_eq_none_iff.mp h r hr))

theorem userSessions_deleteSession_of_some (h : s.sessionOf user jti = some row) :
    (s.deleteSession user jti).db.userSessions ≠ s.db.userSessions := by
  intro heq
  have hnone : (s.deleteSession user jti).sessionOf user jti = s.sessionOf user jti := by
    rw [State.sessionOf, heq, State.sessionOf]
  rw [sessionOf_deleteSession, h] at hnone
  cases hnone

theorem revokeUserSession_missing (h : s.sessionOf user jti = none) :
    (UserService.revokeUserSession user jti).exec s =
      (.error (.http 404 (.trans "session.not_found")), s.deleteSession user jti) := by
  rw [revokeUserSession_exec, deleteSession_ttl, h]
  rfl

theorem revokeUserSession_found (h : s.sessionOf user jti = some row) :
    (UserService.revokeUserSession user jti).exec s =
      if Database.ttlSeconds row.expiresAt s.clock = 0 then
        (.error (.http 404 (.trans "session.not_found")), s.deleteSession user jti)
      else (UserService.blacklistSession jti (Database.ttlSeconds row.expiresAt s.clock)).exec
        (s.deleteSession user jti) := by
  rw [revokeUserSession_exec, deleteSession_ttl, h]
  rfl

/-- With half a second left the session is revoked. -/
theorem revokeUserSession_live (h : s.sessionOf user jti = some row)
    (hlive : s.clock + second / 2 ≤ row.expiresAt) :
    (UserService.revokeUserSession user jti).exec s =
      (.ok (), (s.deleteSession user jti).blacklistSession jti
        (Database.ttlSeconds row.expiresAt s.clock)) := by
  have hpos := ttlSeconds_pos_iff.mpr hlive
  rw [revokeUserSession_found h, if_neg (by omega), blacklistSession_exec, if_neg (by omega)]

/-- With less it fails, and the row is gone. -/
theorem revokeUserSession_late (h : s.sessionOf user jti = some row)
    (hlate : ¬ s.clock + second / 2 ≤ row.expiresAt) :
    (∃ e, ((UserService.revokeUserSession user jti).exec s).1 = .error e) ∧
      ((UserService.revokeUserSession user jti).exec s).2 = s.deleteSession user jti := by
  have hpos : ¬ 0 < Database.ttlSeconds row.expiresAt s.clock :=
    fun hpos => hlate (ttlSeconds_pos_iff.mp hpos)
  rw [revokeUserSession_found h]
  split_ifs with hzero
  · exact ⟨⟨_, rfl⟩, rfl⟩
  · rw [blacklistSession_exec, if_pos (by omega)]
    exact ⟨⟨_, rfl⟩, rfl⟩

/-- The markers end a token for good exactly when they last as long as the token. -/
theorem not_accepted_blacklistSession_iff (data : TokenClaims) (ttl : ℤ) :
    (∀ d, ¬ Accepted ((s.blacklistSession row.jti ttl).advance d) (row.accessToken data) .access) ↔
      row.expiresAt / second * second ≤ s.clock + ttl.toNat * second := by
  have hmarker (d : ℕ) : ((s.blacklistSession row.jti ttl).advance d).redis.get (s.clock + d)
      (.blacklist .access row.jti) =
        if s.clock + d < s.clock + ttl.toNat * second then some .one else none := by
    simp only [State.advance, State.blacklistSession]
    rw [ExpiringStore.get_set_of_ne _ (by simp), ExpiringStore.get_set_self_some]
  have haccepted (d : ℕ) :
      Accepted ((s.blacklistSession row.jti ttl).advance d) (row.accessToken data) .access ↔
        s.clock + d < row.expiresAt / second * second ∧
          ¬ s.clock + d < s.clock + ttl.toNat * second := by
    rw [UserSessionCreate.accessToken, accepted_encode_iff]
    simp only [true_and]
    refine and_congr Iff.rfl ?_
    change ((s.blacklistSession row.jti ttl).advance d).redis.get (s.clock + d) _ = none ↔ _
    rw [hmarker]
    simp
  constructor
  · intro h
    have hend := h (ttl.toNat * second)
    rw [haccepted] at hend
    omega
  · intro hle d h
    rw [haccepted] at h
    omega

/-! ## All or nothing -/

/-- The call succeeds, the row is gone and its access token is dead from then on, or it raises
and leaves the sessions as they are; and only a missing row is reported as missing. -/
structure RevokesAtomically (s : State) (user : UserId) (jti : ℕ) : Prop where
  atomic : (((UserService.revokeUserSession user jti).exec s).1 = .ok () ∧
      ((UserService.revokeUserSession user jti).exec s).2.sessionOf user jti = none ∧
      ∀ row, s.sessionOf user jti = some row → ∀ data d,
        ¬ Accepted (((UserService.revokeUserSession user jti).exec s).2.advance d)
          (row.accessToken data) .access) ∨
    (∃ e, ((UserService.revokeUserSession user jti).exec s).1 = .error e) ∧
      ((UserService.revokeUserSession user jti).exec s).2.db.userSessions = s.db.userSessions
  notFound : ((UserService.revokeUserSession user jti).exec s).1 =
      .error (.http 404 (.trans "session.not_found")) ↔ s.sessionOf user jti = none

theorem revokesAtomically_missing (h : s.sessionOf user jti = none) :
    RevokesAtomically s user jti := by
  refine ⟨.inr ⟨?_, ?_⟩, ?_⟩
  · rw [revokeUserSession_missing h]
    exact ⟨_, rfl⟩
  · rw [revokeUserSession_missing h]
    exact userSessions_deleteSession_of_none h
  · rw [revokeUserSession_missing h]
    exact iff_of_true rfl h

theorem not_revokesAtomically_late (h : s.sessionOf user jti = some row)
    (hlate : ¬ s.clock + second / 2 ≤ row.expiresAt) : ¬ RevokesAtomically s user jti := by
  intro hatomic
  obtain ⟨⟨e, herror⟩, hstate⟩ := revokeUserSession_late h hlate
  rcases hatomic.atomic with ⟨hok, -⟩ | ⟨-, hkept⟩
  · rw [herror] at hok
    cases hok
  · rw [hstate] at hkept
    exact userSessions_deleteSession_of_some h hkept

theorem revokesAtomically_live_iff (h : s.sessionOf user jti = some row)
    (hlive : s.clock + second / 2 ≤ row.expiresAt) : RevokesAtomically s user jti ↔
      s.clock % second ≤ row.expiresAt % second ∨
        second ≤ 2 * ((row.expiresAt - s.clock) % second) := by
  have hexec := revokeUserSession_live h hlive
  obtain ⟨-, rfl, -⟩ := sessionOf_spec h
  rw [← ttlSeconds_covers_iff hlive]
  constructor
  · intro hatomic
    rcases hatomic.atomic with ⟨-, -, hdead⟩ | ⟨⟨e, herror⟩, -⟩
    · rw [hexec] at hdead
      exact (not_accepted_blacklistSession_iff (s := s.deleteSession user row.jti)
        ⟨"", user, none, none, none, none⟩ _).mp (hdead row h _)
    · rw [hexec] at herror
      cases herror
  · intro hcovers
    refine ⟨.inl ⟨?_, ?_, fun row' hrow' data => ?_⟩, ?_⟩
    · rw [hexec]
    · rw [hexec]
      exact sessionOf_deleteSession
    · rw [h] at hrow'
      cases hrow'
      rw [hexec]
      exact (not_accepted_blacklistSession_iff data _).mpr hcovers
    · rw [hexec, h]
      simp

/-- A revocation is atomic exactly when there is no row, or the row has half a second left
and the rounding of its lifetime does not end the markers before the token. -/
theorem revokesAtomically_iff (s : State) (user : UserId) (jti : ℕ) :
    RevokesAtomically s user jti ↔ ∀ row, s.sessionOf user jti = some row →
      s.clock + second / 2 ≤ row.expiresAt ∧
        (s.clock % second ≤ row.expiresAt % second ∨
          second ≤ 2 * ((row.expiresAt - s.clock) % second)) := by
  cases h : s.sessionOf user jti with
  | none => simp [revokesAtomically_missing h]
  | some row =>
    simp only [Option.some.injEq, forall_eq']
    by_cases hlive : s.clock + second / 2 ≤ row.expiresAt
    · rw [revokesAtomically_live_iff h hlive, and_iff_right hlive]
    · exact iff_of_false (not_revokesAtomically_late h hlive) (fun h' => hlive h'.1)

namespace World

def expiryWorld : World :=
  letI := External.plain
  loginWorld.step (.advance (minutes settings.accessTokenExpireMinutes))

/-- A row that expires this very second is reported as missing and deleted. -/
theorem expired_session_lost :
    @Reachable External.plain expiryWorld ∧
      (expiryWorld.state.sessionOf 0 1).isSome ∧
      ((UserService.revokeUserSession 0 1).exec expiryWorld.state).1 =
        .error (.http 404 (.trans "session.not_found")) ∧
      ((UserService.revokeUserSession 0 1).exec expiryWorld.state).2.sessionOf 0 1 = none ∧
      ¬ RevokesAtomically expiryWorld.state 0 1 := by
  refine ⟨?_, rfl, rfl, rfl, not_revokesAtomically_late rfl (by decide)⟩
  exact @Reachable.step External.plain _ loginWorld_reachable _ trivial

end World
end FastapiTemplate
