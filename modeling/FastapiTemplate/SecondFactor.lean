import FastapiTemplate.LoginPaths

/-!
# Checking a second factor

What a code check that succeeds has seen: a one-time password that is valid for the
stored secret, or a stored backup code that is not used. The executions are given
as functions of the state, for the properties of logins and of the configuration.
-/

namespace FastapiTemplate

variable {s t : State}

def Database.TwoFactorEnabled (db : Database) (user : UserId) : Prop :=
  ∃ record, db.selectTwoFactor user = some record ∧ record.isEnabled = true

instance (db : Database) (user : UserId) : Decidable (db.TwoFactorEnabled user) :=
  match h : db.selectTwoFactor user with
  | none => .isFalse (by simp [Database.TwoFactorEnabled, h])
  | some record => decidable_of_iff (record.isEnabled = true) (by simp [Database.TwoFactorEnabled, h])

/-! ## The stored records -/

theorem selectTwoFactor_congr {db db' : Database} (h : db'.userTwoFactor = db.userTwoFactor)
    (u : UserId) : db'.selectTwoFactor u = db.selectTwoFactor u := by
  rw [Database.selectTwoFactor, h, Database.selectTwoFactor]

/-- An update of the rows of one user, as the lookups see it. -/
theorem selectTwoFactor_update {db db' : Database} {user : UserId}
    {g : UserTwoFactorData → UserTwoFactorData}
    (hrows : db'.userTwoFactor = db.userTwoFactor.map (fun r => if r.userId = user then g r else r))
    (hg : ∀ r, r.userId = user → (g r).userId = user) (u : UserId) :
    db'.selectTwoFactor u = (db.selectTwoFactor u).map (fun r => if u = user then g r else r) := by
  have hid (r : UserTwoFactorData) :
      (if r.userId = user then g r else r).userId = r.userId := by
    by_cases h : r.userId = user
    · rw [if_pos h, hg r h, h]
    · rw [if_neg h]
  have hcomp : ((fun r : UserTwoFactorData => decide (r.userId = u)) ∘
      fun r => if r.userId = user then g r else r) = fun r => decide (r.userId = u) := by
    funext r
    simp only [Function.comp_apply, hid]
  simp only [Database.selectTwoFactor]
  rw [hrows, List.find?_map, hcomp]
  cases hfind : db.userTwoFactor.find? (fun r => decide (r.userId = u)) with
  | none => rfl
  | some r =>
    have hmatch := List.find?_some hfind
    have hru : r.userId = u := of_decide_eq_true hmatch
    simp [hru]

/-! ## The checks -/

theorem requireEnabled_ok {user : UserId} {record : UserTwoFactorData} :
    (AuthService.requireEnabled user).exec s = (.ok record, t) ↔
      t = s ∧ s.db.selectTwoFactor user = some record ∧ record.isEnabled = true := by
  rw [AuthService.requireEnabled, UserDAO.getTwoFactor, exec_ask_bind]
  simp only [handler]
  cases s.db.selectTwoFactor user with
  | none => simp [App.httpError, App.raise]
  | some found =>
    by_cases h : found.isEnabled = true
    · simp only [h, if_true, exec_pure, Prod.mk.injEq, Except.ok.injEq, Option.some.injEq]
      constructor
      · rintro ⟨rfl, rfl⟩
        exact ⟨rfl, rfl, h⟩
      · rintro ⟨rfl, rfl, -⟩
        exact ⟨rfl, rfl⟩
    · simp only [h, if_false, exec_httpError, Prod.mk.injEq, reduceCtorEq, false_and, false_iff]
      rintro ⟨-, he, hrecord⟩
      cases he
      exact h hrecord

/-- A record that the loop marks. -/
theorem consumeRecord_fst_iff (hash : String) (now : ℕ) (codes : List BackupCodeRecord) :
    (consumeRecord hash now codes).1 = true ↔ ∃ r ∈ codes, r.codeHash = hash ∧ r.used = false := by
  induction codes with
  | nil => simp [consumeRecord]
  | cons item rest ih =>
    unfold consumeRecord
    by_cases h : item.codeHash = hash ∧ ¬ item.used
    · rw [if_pos h]
      exact ⟨fun _ => ⟨item, List.mem_cons_self, h.1, by simpa using h.2⟩, fun _ => rfl⟩
    · rw [if_neg h, ih]
      constructor
      · rintro ⟨r, hr, hmatch⟩
        exact ⟨r, List.mem_cons_of_mem _ hr, hmatch⟩
      · rintro ⟨r, hr, hhash, hunused⟩
        rcases List.mem_cons.mp hr with rfl | hr
        · exact absurd ⟨hhash, by simp [hunused]⟩ h
        · exact ⟨r, hr, hhash, hunused⟩

variable [External]

def ValidTotp (now : ℕ) (record : UserTwoFactorData) (code : String) : Prop :=
  ∃ secret, External.fernetDecrypt record.secretEncrypted = some secret ∧
    totpValid secret code now = true

def UnusedBackupCode (record : UserTwoFactorData) (code : String) : Prop :=
  ∃ r ∈ record.backupCodes, r.codeHash = hashBackupCode code ∧ r.used = false

def AcceptsCode (now : ℕ) (record : UserTwoFactorData) (code : String) : Prop :=
  ValidTotp now record code ∨ UnusedBackupCode record code

theorem decryptSecret_ok {encrypted secret : String} :
    (decryptSecret encrypted).exec s = (.ok secret, t) ↔
      External.fernetDecrypt encrypted = some secret ∧ t = s := by
  unfold decryptSecret
  cases External.fernetDecrypt encrypted with
  | none => simp
  | some found => simp [eq_comm]

theorem exec_verifyTotp_bind {α : Type} (secret code : String) (f : Bool → App α) (s : State) :
    (verifyTotp secret code >>= f).exec s = (f (totpValid secret code s.clock)).exec s := rfl

theorem exec_verifyAndConsume_bind {α : Type} (codes : List BackupCodeRecord) (code : String)
    (f : Bool × List BackupCodeRecord → App α) (s : State) :
    (verifyAndConsumeBackupCode codes code >>= f).exec s =
      (f (consumeRecord (hashBackupCode code) s.clock codes)).exec s := rfl

/-- The check of `disable_two_factor` and `regenerate_two_factor_backup_codes`. -/
theorem requireCurrentCode_ok {record : UserTwoFactorData} {code : String}
    (h : (AuthService.requireCurrentCode record code).exec s = (.ok (), t)) :
    t = s ∧ AcceptsCode s.clock record (strip code) := by
  obtain ⟨secret, u, hsecret, hrest⟩ := exec_bind_ok.mp h
  obtain ⟨hdecrypt, rfl⟩ := decryptSecret_ok.mp hsecret
  rw [exec_verifyTotp_bind] at hrest
  split at hrest
  case isTrue htotp =>
    cases hrest
    exact ⟨rfl, .inl ⟨secret, hdecrypt, htotp⟩⟩
  case isFalse =>
    rw [exec_verifyAndConsume_bind] at hrest
    have hiff := consumeRecord_fst_iff (hashBackupCode (strip code)) u.clock record.backupCodes
    rcases hconsumed : consumeRecord (hashBackupCode (strip code)) u.clock record.backupCodes with
      ⟨validBackup, codes⟩
    rw [hconsumed] at hrest hiff
    cases validBackup with
    | true =>
      cases hrest
      exact ⟨rfl, .inr (hiff.mp rfl)⟩
    | false => cases hrest

def State.replayMarked (s : State) (user : UserId) : State :=
  let key := RedisKey.twoFactorReplay user (timeStep s.clock)
  { s with redis := s.redis.set key .one (some (s.clock + 60 * second)) }

omit [External] in
/-- A marker that is there stops the code, and otherwise one is set. -/
theorem recordTotpUse_cases (user : UserId) (s : State) :
    (∃ e, (AuthService.recordTotpUse user).exec s = (.error e, s)) ∨
      (s.redis.get s.clock (.twoFactorReplay user (timeStep s.clock)) = none ∧
        (AuthService.recordTotpUse user).exec s = (.ok (), s.replayMarked user)) := by
  rw [AuthService.recordTotpUse, App.now, exec_ask_bind, Redis.get, exec_ask_bind]
  simp only [handler]
  cases s.redis.get s.clock (.twoFactorReplay user (timeStep s.clock)) with
  | some v => exact .inl ⟨_, rfl⟩
  | none => exact .inr ⟨rfl, rfl⟩

/-- The check of a challenge: a one-time password leaves a replay marker, a backup code is marked
in the list that was read, and a code that is refused changes nothing. -/
theorem verify2faCodeOrBackup_cases (user : UserId) (record : UserTwoFactorData) (code : String)
    (s : State) :
    (∃ e, (AuthService.verify2faCodeOrBackup user record code).exec s = (.error e, s)) ∨
      (ValidTotp s.clock record code ∧
        (AuthService.verify2faCodeOrBackup user record code).exec s =
          (.ok (), s.replayMarked user)) ∨
      (UnusedBackupCode record code ∧
        (AuthService.verify2faCodeOrBackup user record code).exec s =
          (.ok (), s.setDb (s.db.updateBackupCodes user
            (consumeRecord (hashBackupCode code) s.clock record.backupCodes).2))) := by
  rw [AuthService.verify2faCodeOrBackup]
  cases hdecrypt : External.fernetDecrypt record.secretEncrypted with
  | none =>
    refine .inl ⟨.invalidToken, exec_bind_of_error ?_⟩
    simp [decryptSecret, hdecrypt]
  | some secret =>
    rw [exec_bind_of_ok (decryptSecret_ok.mpr ⟨hdecrypt, rfl⟩), exec_verifyTotp_bind]
    cases htotp : totpValid secret code s.clock with
    | true =>
      rcases recordTotpUse_cases user s with ⟨e, he⟩ | ⟨-, hok⟩
      · exact .inl ⟨e, he⟩
      · exact .inr (.inl ⟨⟨secret, hdecrypt, htotp⟩, hok⟩)
    | false =>
      have hiff := consumeRecord_fst_iff (hashBackupCode code) s.clock record.backupCodes
      rcases hconsumed : consumeRecord (hashBackupCode code) s.clock record.backupCodes with
        ⟨validBackup, codes⟩
      rw [hconsumed] at hiff
      simp only [Bool.false_eq_true, if_false]
      rw [exec_verifyAndConsume_bind, hconsumed]
      cases validBackup with
      | true => exact .inr (.inr ⟨hiff.mp rfl, rfl⟩)
      | false => exact .inl ⟨_, rfl⟩

theorem verify2faCodeOrBackup_ok {user : UserId} {record : UserTwoFactorData} {code : String}
    (h : (AuthService.verify2faCodeOrBackup user record code).exec s = (.ok (), t)) :
    AcceptsCode s.clock record code := by
  rcases verify2faCodeOrBackup_cases user record code s with ⟨e, he⟩ | ⟨hvalid, -⟩ | ⟨hunused, -⟩
  · rw [he] at h
    cases h
  · exact .inl hvalid
  · exact .inr hunused

end FastapiTemplate
