import FastapiTemplate.TokenLedger

/-!
# The ledger of sessions

Every session row in a reachable world was written by a login of the log and
carries the number of its access token. The refresh token of a login has the next
number, so neither a row nor a blacklist entry for refresh tokens, whose numbers
come from rows, ever carries the number of a refresh token.
-/

namespace FastapiTemplate

variable {s t : State}

/-! ## Revocation -/

def State.blacklistSession (s : State) (jti : ℕ) (ttl : ℤ) : State :=
  let expiresAt := some (s.clock + ttl.toNat * second)
  let redis := s.redis.set (.blacklist .access jti) .one expiresAt
  { s with redis := redis.set (.blacklist .refresh jti) .one expiresAt }

theorem blacklistSession_exec (jti : ℕ) (ttl : ℤ) (s : State) :
    (UserService.blacklistSession jti ttl).exec s =
      if ttl ≤ 0 then (.error (.redis "invalid expire time in 'set' command"), s)
      else (.ok (), s.blacklistSession jti ttl) := by
  simp only [UserService.blacklistSession, Redis.set, App.exec, Program.execute_bind,
    Program.execute_perform, handler, State.redisSet]
  by_cases h : ttl ≤ 0
  · simp [h, App.raise]
  · simp [h, State.blacklistSession]

theorem blacklistSession_redis_of_ne {jti jti' : ℕ} (h : jti' ≠ jti) (ttl : ℤ)
    (type : TokenTypes) :
    (s.blacklistSession jti ttl).redis (.blacklist type jti') =
      s.redis (.blacklist type jti') := by
  have hne (type' : TokenTypes) : RedisKey.blacklist type jti' ≠ .blacklist type' jti := by
    simp [h]
  simp only [State.blacklistSession]
  rw [ExpiringStore.set_of_ne _ (hne _), ExpiringStore.set_of_ne _ (hne _)]

/-- The loop never fails, and marks only the listed numbers. -/
theorem blacklistSessions_exec (rows : List (ℕ × ℤ)) (s : State) :
    ((UserService.blacklistSessions rows).exec s).1 = .ok () ∧
      ((UserService.blacklistSessions rows).exec s).2.db = s.db ∧
      ∀ type jti, jti ∉ rows.map (·.1) →
        ((UserService.blacklistSessions rows).exec s).2.redis (.blacklist type jti) =
          s.redis (.blacklist type jti) := by
  induction rows generalizing s with
  | nil => exact ⟨rfl, rfl, fun _ _ _ => rfl⟩
  | cons row rest ih =>
    obtain ⟨jti, ttl⟩ := row
    unfold UserService.blacklistSessions
    by_cases hpos : ttl > 0
    · have hexec : (UserService.blacklistSession jti ttl >>= fun _ =>
          UserService.blacklistSessions rest).exec s =
            (UserService.blacklistSessions rest).exec (s.blacklistSession jti ttl) := by
        have h := blacklistSession_exec jti ttl s
        rw [if_neg (by omega), App.exec] at h
        rw [App.exec, Program.execute_bind, h]
      rw [if_pos hpos, hexec]
      obtain ⟨hok, hdb, hredis⟩ := ih (s.blacklistSession jti ttl)
      refine ⟨hok, hdb, fun type jti' hnot => ?_⟩
      simp only [List.map_cons, List.mem_cons, not_or] at hnot
      rw [hredis type jti' hnot.2, blacklistSession_redis_of_ne hnot.1]
    · rw [if_neg hpos]
      obtain ⟨hok, hdb, hredis⟩ := ih s
      exact ⟨hok, hdb, fun type jti' hnot => hredis type jti' (fun h => hnot (by simp [h]))⟩

theorem deleteSession_some {db : Database} {user : UserId} {jti now : ℕ} {ttl : ℤ}
    (h : (db.deleteSession user jti now).1 = some ttl) :
    ∃ row ∈ db.userSessions, row.jti = jti ∧ row.userId = user ∧
      ttl = Database.ttlSeconds row.expiresAt now := by
  obtain ⟨row, hrow, rfl⟩ := Option.map_eq_some_iff.mp h
  have hmatch := List.find?_some hrow
  simp only [Bool.and_eq_true, decide_eq_true_eq] at hmatch
  exact ⟨row, List.mem_of_find?_eq_some hrow, hmatch.1, hmatch.2, rfl⟩

def State.deleteSession (s : State) (user : UserId) (jti : ℕ) : State :=
  s.setDb (s.db.deleteSession user jti s.clock).2

theorem revokeUserSession_exec (user : UserId) (jti : ℕ) (s : State) :
    (UserService.revokeUserSession user jti).exec s =
      match (s.db.deleteSession user jti s.clock).1 with
      | none => (.error (.http 404 (.trans "session.not_found")), s.deleteSession user jti)
      | some ttl =>
        if ttl = 0 then (.error (.http 404 (.trans "session.not_found")), s.deleteSession user jti)
        else (UserService.blacklistSession jti ttl).exec (s.deleteSession user jti) := by
  have hrow : (UserDAO.revokeUserSession user jti).exec s =
      (.ok (match (s.db.deleteSession user jti s.clock).1 with
        | none => none
        | some ttl => if ttl = 0 then none else some ttl), s.deleteSession user jti) := by
    rw [UserDAO.revokeUserSession, exec_ask_bind]
    simp only [handler]
    cases (s.db.deleteSession user jti s.clock).1 <;> rfl
  rw [App.exec] at hrow
  rw [UserService.revokeUserSession, App.exec, Program.execute_bind, hrow]
  cases (s.db.deleteSession user jti s.clock).1 with
  | none => rfl
  | some ttl =>
    by_cases h0 : ttl = 0
    · simp [h0, App.httpError, App.raise]
    · simp [h0]

/-! ## What an operation does to sessions -/

/-- No pair is issued, rows only go, and refresh markers are set only for numbers of rows. -/
structure SessionShrink (s : State) (r : Except AppError Response) (t : State) : Prop where
  pair : ∀ a, r = .ok a → a.pair = none
  userSessions : ∀ row ∈ t.db.userSessions, row ∈ s.db.userSessions
  blacklist : ∀ jti, t.redis (.blacklist .refresh jti) = s.redis (.blacklist .refresh jti) ∨
    ∃ row ∈ s.db.userSessions, row.jti = jti

theorem revokeUserSession_shrink (user : UserId) (jti : ℕ) (s : State) :
    (∀ row ∈ ((UserService.revokeUserSession user jti).exec s).2.db.userSessions,
        row ∈ s.db.userSessions) ∧
      ∀ jti', ((UserService.revokeUserSession user jti).exec s).2.redis (.blacklist .refresh jti') =
        s.redis (.blacklist .refresh jti') ∨ ∃ row ∈ s.db.userSessions, row.jti = jti' := by
  have hdelete : ∀ row ∈ (s.deleteSession user jti).db.userSessions, row ∈ s.db.userSessions :=
    fun _ hrow => (List.mem_filter.mp hrow).1
  rw [revokeUserSession_exec]
  cases httl : (s.db.deleteSession user jti s.clock).1 with
  | none => exact ⟨hdelete, fun _ => .inl rfl⟩
  | some ttl =>
    obtain ⟨row, hrow, hjti, -, -⟩ := deleteSession_some httl
    by_cases h0 : ttl = 0
    · simp only [h0, if_true]
      exact ⟨hdelete, fun _ => .inl rfl⟩
    · simp only [h0, if_false]
      rw [blacklistSession_exec]
      split_ifs
      · exact ⟨hdelete, fun _ => .inl rfl⟩
      · refine ⟨hdelete, fun jti' => ?_⟩
        by_cases hne : jti' = jti
        · exact .inr ⟨row, hrow, hjti.trans hne.symm⟩
        · exact .inl (blacklistSession_redis_of_ne hne ttl .refresh)

def State.deleteAllSessions (s : State) (user : UserId) : State :=
  s.setDb (s.db.deleteAllSessions user s.clock).2

theorem revokeAllUserSessions_exec (user : UserId) (s : State) :
    (UserService.revokeAllUserSessions user).exec s =
      (UserService.blacklistSessions (s.db.deleteAllSessions user s.clock).1).exec
        (s.deleteAllSessions user) := rfl

theorem revokeAllUserSessions_shrink (user : UserId) (s : State) :
    (∀ row ∈ ((UserService.revokeAllUserSessions user).exec s).2.db.userSessions,
        row ∈ s.db.userSessions) ∧
      ∀ jti', ((UserService.revokeAllUserSessions user).exec s).2.redis
          (.blacklist .refresh jti') = s.redis (.blacklist .refresh jti') ∨
        ∃ row ∈ s.db.userSessions, row.jti = jti' := by
  rw [revokeAllUserSessions_exec]
  obtain ⟨-, hdb, hredis⟩ := blacklistSessions_exec (s.db.deleteAllSessions user s.clock).1
    (s.deleteAllSessions user)
  refine ⟨fun row hrow => ?_, fun jti' => ?_⟩
  · rw [hdb] at hrow
    exact (List.mem_filter.mp hrow).1
  · by_cases hmem : jti' ∈ (s.db.deleteAllSessions user s.clock).1.map (·.1)
    · obtain ⟨entry, hentry, rfl⟩ := List.mem_map.mp hmem
      obtain ⟨row, hrow, rfl⟩ := List.mem_map.mp hentry
      exact .inr ⟨row, (List.mem_filter.mp hrow).1, rfl⟩
    · exact .inl (hredis .refresh jti' hmem)

variable [External]

theorem Op.session_effect (op : Op) (hwf : s.WellFormed) :
    LoginEffect Response.pair s (op.program.exec s).1 (op.program.exec s).2 ∨
      SessionShrink s (op.program.exec s).1 (op.program.exec s).2 := by
  have hnone {β : Type} {p : App β} {f : β → Response} (hf : ∀ b, (f b).pair = none) (a : Response)
      (ha : ((p >>= fun b => pure (f b)).exec s).1 = .ok a) : a.pair = none := by
    obtain ⟨b, -, rfl⟩ := exec_map_ok.mp (Prod.ext ha rfl)
    exact hf b
  cases op with
  | googleCallback state exchange request =>
    exact .inl (.map (fun _ => rfl) (googleCallback_effect hwf _ _ _))
  | authenticateUser username password request =>
    refine .inl (.map (fun b => ?_) (authenticateUser_effect hwf _ _ _))
    cases b <;> rfl
  | verifyTwoFactorChallenge twoFactorToken code request =>
    exact .inl (.map (fun _ => rfl) (verifyTwoFactorChallenge_effect hwf _ _ _))
  | refreshToken token request =>
    exact .inl (.map (fun _ => rfl) (refreshToken_effect hwf _ _))
  | revokeUserSession user jti =>
    have h := revokeUserSession_shrink user jti s
    rw [← exec_map_state (UserService.revokeUserSession user jti) (fun _ => Response.done)] at h
    exact .inr ⟨hnone (fun _ => rfl), h.1, h.2⟩
  | revokeAllUserSessions user =>
    have h := revokeAllUserSessions_shrink user s
    rw [← exec_map_state (UserService.revokeAllUserSessions user) (fun _ => Response.done)] at h
    exact .inr ⟨hnone (fun _ => rfl), h.1, h.2⟩
  | _ =>
    -- no other operation writes rows or refresh markers
    exact .inr ⟨hnone (fun _ => rfl),
      (Op.program_writes _).exec_userSessions_subset (by simp [areas]) s,
      fun jti => .inl ((Op.program_writes _).exec_blacklist (by simp [areas]) s jti)⟩

/-! ## The ledger of a world -/

omit [External] in
@[simp] theorem loginResponse_refreshJti (user : UserData) (now jti : ℕ) :
    (loginResponse user now jti).token.refreshToken.jti = some (jti + 1) := rfl

omit [External] in
@[simp] theorem loginResponse_accessJti (user : UserData) (now jti : ℕ) :
    (loginResponse user now jti).token.accessToken.jti = some jti := rfl

namespace World

def WroteRow (l : LoginResponse) (row : UserSessionCreate) : Prop :=
  ∃ now, l = loginResponse l.user now row.jti ∧ row.userId = l.user.id ∧
    row.expiresAt = now + minutes settings.accessTokenExpireMinutes

structure SessionLedger (w : World) : Prop where
  logins : ∀ l ∈ w.logins, ∃ now jti, l = loginResponse l.user now jti ∧ jti + 1 < w.state.nextId
  rows : ∀ row ∈ w.state.db.userSessions, ∃ l ∈ w.logins, WroteRow l row
  rowsApart : ∀ row ∈ w.state.db.userSessions, ∀ l ∈ w.logins,
    l.token.refreshToken.jti ≠ some row.jti
  markersApart : ∀ jti, w.state.redis (.blacklist .refresh jti) ≠ none →
    jti < w.state.nextId ∧ ∀ l ∈ w.logins, l.token.refreshToken.jti ≠ some jti

theorem step_logins (w : World) (op : Op) :
    (w.step (.call op)).logins = w.logins ++
      match (op.program.exec w.state).1 with
      | .ok r => r.pair.toList
      | .error _ => [] := by
  simp only [step]
  rcases op.program.exec w.state with ⟨_ | r, t⟩
  · simp [record, logins]
  · simp only [record, logins, List.filterMap_append, List.filterMap_cons, List.filterMap_nil]
    cases r.pair <;> rfl

omit [External] in
theorem Initial.sessionLedger {w : World} (h : Initial w) : SessionLedger w := by
  constructor <;> simp [logins, h.log, h.userSessions, h.redis]

omit [External] in
/-- A row has a number that has been drawn. -/
theorem SessionLedger.row_lt {w : World} (h : SessionLedger w) {row : UserSessionCreate}
    (hrow : row ∈ w.state.db.userSessions) : row.jti < w.state.nextId := by
  obtain ⟨l, hl, now, hlogin, -, -⟩ := h.rows row hrow
  obtain ⟨now', jti, hlogin', hlt⟩ := h.logins l hl
  have hjti := congrArg (fun l => l.token.accessToken.jti) (hlogin.symm.trans hlogin')
  simp only [loginResponse_accessJti, Option.some.injEq] at hjti
  omega

omit [External] in
/-- A world whose sessions and pairs have only shrunk or stayed keeps the ledger. -/
theorem SessionLedger.of_shrink {w w' : World} (h : SessionLedger w)
    (hlogins : w'.logins = w.logins) (hnext : w.state.nextId ≤ w'.state.nextId)
    (hsessions : ∀ row ∈ w'.state.db.userSessions, row ∈ w.state.db.userSessions)
    (hmarkers : ∀ jti, w'.state.redis (.blacklist .refresh jti) =
        w.state.redis (.blacklist .refresh jti) ∨
      ∃ row ∈ w.state.db.userSessions, row.jti = jti) : SessionLedger w' := by
  constructor
  · intro l hl
    obtain ⟨now, jti, he, hlt⟩ := h.logins l (hlogins ▸ hl)
    exact ⟨now, jti, he, by omega⟩
  · intro row hrow
    rw [hlogins]
    exact h.rows row (hsessions row hrow)
  · rw [hlogins]
    exact fun row hrow => h.rowsApart row (hsessions row hrow)
  · rw [hlogins]
    intro jti hjti
    rcases hmarkers jti with hsame | ⟨row, hrow, rfl⟩
    · obtain ⟨hlt, hapart⟩ := h.markersApart jti (hsame ▸ hjti)
      exact ⟨by omega, hapart⟩
    · exact ⟨(h.row_lt hrow).trans_le hnext, h.rowsApart row hrow⟩

omit [External] in
/-- A login draws two new numbers, one for its row and one for its refresh token. -/
theorem SessionLedger.of_login {w w' : World} (h : SessionLedger w) {s₁ : State}
    (hquiet : SessionQuiet w.state s₁) {user : UserData} {request : Request}
    (hrow : (s₁.db.upsertUserSession (loginRow user s₁.clock s₁.nextId request)).1 = .ok ())
    (hstate : w'.state = s₁.afterLogin user request)
    (hlogins : w'.logins = w.logins ++ [loginResponse user s₁.clock s₁.nextId]) :
    SessionLedger w' := by
  have hnext : w.state.nextId ≤ s₁.nextId := hquiet.safe.1
  have hnext' : w'.state.nextId = s₁.nextId + 2 := by rw [hstate]; rfl
  have hsessions (row) (hmem : row ∈ w'.state.db.userSessions) :
      row = loginRow user s₁.clock s₁.nextId request ∨ row ∈ w.state.db.userSessions := by
    rw [hstate, State.afterLogin] at hmem
    rcases s₁.db.upsertUserSession_cases (loginRow user s₁.clock s₁.nextId request) with
      ⟨e, hc⟩ | ⟨rows, hrows, -, hc⟩
    · rw [hc] at hrow
      cases hrow
    · rw [hc] at hmem
      exact (hrows row hmem).imp_right (fun hold => hquiet.userSessions ▸ hold)
  have hmarkers (jti : ℕ) : w'.state.redis (.blacklist .refresh jti) =
      w.state.redis (.blacklist .refresh jti) := by
    rw [hstate, ← hquiet.blacklist .refresh jti]
    rfl
  constructor
  · intro l hl
    rw [hlogins] at hl
    rcases List.mem_append.mp hl with hold | hnew
    · obtain ⟨now, jti, he, hlt⟩ := h.logins l hold
      exact ⟨now, jti, he, by omega⟩
    · rw [List.mem_singleton.mp hnew]
      exact ⟨s₁.clock, s₁.nextId, rfl, by omega⟩
  · intro row hmem
    rw [hlogins]
    rcases hsessions row hmem with rfl | hold
    · exact ⟨_, List.mem_append_right _ (List.mem_singleton_self _), s₁.clock, rfl, rfl, rfl⟩
    · obtain ⟨l, hl, hwrote⟩ := h.rows row hold
      exact ⟨l, List.mem_append_left _ hl, hwrote⟩
  · intro row hmem l hl hjti
    rw [hlogins] at hl
    rcases hsessions row hmem with rfl | hold
    · rcases List.mem_append.mp hl with hlold | hlnew
      · obtain ⟨now, jti, he, hlt⟩ := h.logins l hlold
        rw [he] at hjti
        simp only [loginResponse_refreshJti, loginRow, Option.some.injEq] at hjti
        omega
      · rw [List.mem_singleton.mp hlnew] at hjti
        simp [loginRow] at hjti
    · rcases List.mem_append.mp hl with hlold | hlnew
      · exact h.rowsApart row hold l hlold hjti
      · rw [List.mem_singleton.mp hlnew] at hjti
        have := h.row_lt hold
        simp only [loginResponse_refreshJti, Option.some.injEq] at hjti
        omega
  · intro jti hjti
    obtain ⟨hlt, hapart⟩ := h.markersApart jti (hmarkers jti ▸ hjti)
    refine ⟨by omega, fun l hl => ?_⟩
    rw [hlogins] at hl
    rcases List.mem_append.mp hl with hlold | hlnew
    · exact hapart l hlold
    · rw [List.mem_singleton.mp hlnew]
      simp only [loginResponse_refreshJti, ne_eq, Option.some.injEq]
      omega

theorem SessionLedger.step {w : World} (h : SessionLedger w) (hwf : w.state.WellFormed)
    (e : Event) : SessionLedger (w.step e) := by
  cases e with
  | advance d => exact ⟨h.logins, h.rows, h.rowsApart, h.markersApart⟩
  | call op =>
    have hlogins := step_logins w op
    have hstate := step_state w op
    have hnext := exec_nextId op.program w.state
    rcases op.session_effect hwf with heffect | hshrink
    · generalize op.program.exec w.state = x at heffect hlogins hstate hnext
      obtain ⟨r, t⟩ := x
      cases heffect with
      | issued user request hquiet hcurrent hpair hrow =>
        simp only [hpair, Option.toList_some] at hlogins
        exact h.of_login hquiet hrow hstate hlogins
      | quiet hpair hquiet =>
        have hsame : (w.step (.call op)).logins = w.logins := by
          rw [hlogins]
          cases r with
          | error e => simp
          | ok a => simp [hpair a rfl]
        refine h.of_shrink hsame (hstate ▸ hnext) (fun row hrow => ?_) (fun jti => .inl ?_)
        · rw [hstate] at hrow
          exact hquiet.userSessions ▸ hrow
        · rw [hstate]
          exact hquiet.blacklist .refresh jti
    · have hsame : (w.step (.call op)).logins = w.logins := by
        rw [hlogins]
        cases hr : (op.program.exec w.state).1 with
        | error e => simp
        | ok a => simp [hshrink.pair a hr]
      refine h.of_shrink hsame (hstate ▸ hnext) (fun row hrow => ?_) (fun jti => ?_)
      · rw [hstate] at hrow
        exact hshrink.userSessions row hrow
      · rw [hstate]
        exact hshrink.blacklist jti

theorem Reachable.sessionLedger {w : World} (h : Reachable w) : SessionLedger w := by
  obtain ⟨w₀, hinitial, hrun⟩ := h
  have both := RunsWhere.invariant (I := fun x => TokenLedger x ∧ SessionLedger x) hrun
    ⟨hinitial.tokenLedger, hinitial.sessionLedger⟩
    (fun _ e hunforged hx => ⟨hx.1.step hunforged, hx.2.step hx.1.wellFormed e⟩)
  exact both.2

theorem Later.clock_le {w w' : World} (h : Later w w') : w.state.clock ≤ w'.state.clock := by
  refine h.relates (fun x y => x.state.clock ≤ y.state.clock) (fun _ => le_refl _)
    (fun _ _ _ => le_trans) (fun x e _ => ?_)
  cases e with
  | advance d => exact Nat.le_add_right _ _
  | call op => rw [step_state, exec_clock]

end World
end FastapiTemplate
