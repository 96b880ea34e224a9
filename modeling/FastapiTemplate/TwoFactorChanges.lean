import FastapiTemplate.SecondFactor
import FastapiTemplate.TokenLedger

/-!
# Changes of an enabled second factor

Disabling, regenerating backup codes and answering a challenge change the stored
record only after a code that the record itself accepts. A confirmation of a setup
checks its code against the pending secret alone, and it does so also when a second
factor is enabled already: then it puts a new secret in place of the old one.
-/

namespace FastapiTemplate

variable {s t : State}

/-! ## The stored records -/

theorem selectTwoFactor_upsert {db : Database} {row : UserTwoFactorData}
    (h : ∃ x ∈ db.users, x.id = row.userId) (u : UserId) :
    (db.upsertTwoFactor row).2.selectTwoFactor u =
      if u = row.userId then some row else db.selectTwoFactor u := by
  obtain ⟨x, hx, hid⟩ := h
  have hexists : ¬ db.users.all (·.id ≠ row.userId) = true := by
    simp only [List.all_eq_true, not_forall]
    exact ⟨x, hx, by simp [hid]⟩
  unfold Database.upsertTwoFactor
  rw [if_neg hexists]
  by_cases hany : db.userTwoFactor.any (·.userId = row.userId) = true
  · rw [if_pos hany, selectTwoFactor_update (g := fun _ => row) rfl (fun _ _ => rfl)]
    by_cases hu : u = row.userId
    · obtain ⟨r, hr, hmatch⟩ := List.any_eq_true.mp hany
      have hfound : (db.selectTwoFactor u).isSome :=
        List.find?_isSome.mpr ⟨r, hr, by simpa [hu] using hmatch⟩
      obtain ⟨found, hfound⟩ := Option.isSome_iff_exists.mp hfound
      simp [hu, hu ▸ hfound]
    · simp [hu]
  · rw [if_neg hany]
    simp only [Database.selectTwoFactor, List.find?_append]
    by_cases hu : u = row.userId
    · have hnone : db.userTwoFactor.find? (fun r => decide (r.userId = u)) = none := by
        rw [List.find?_eq_none]
        intro r hr hmatch
        exact hany (List.any_eq_true.mpr ⟨r, hr, by simpa [hu] using hmatch⟩)
      rw [hnone]
      simp [hu]
    · simp [hu, Ne.symm hu]

theorem upsertTwoFactor_of_missing {db : Database} {row : UserTwoFactorData}
    (h : ¬ ∃ x ∈ db.users, x.id = row.userId) : (db.upsertTwoFactor row).2 = db := by
  unfold Database.upsertTwoFactor
  rw [if_pos (by simpa using h)]

/-- If a program whose first part leaves the records alone changes them, the first part returned
and the second one made the change. -/
theorem factors_bind {α β : Type} {areas : List Area} {p : App β} {f : β → App α}
    (hp : WritesOnly areas p) (hareas : ∀ a ∈ [Area.factors, .removal], a ∉ areas)
    (h : ((p >>= f).exec s).2.db.userTwoFactor ≠ s.db.userTwoFactor) :
    ∃ b t, p.exec s = (.ok b, t) ∧ t.db.userTwoFactor = s.db.userTwoFactor ∧
      (p >>= f).exec s = (f b).exec t := by
  have hkeep := hp.exec_userTwoFactor hareas s
  rcases hexec : p.exec s with ⟨e | b, t⟩
  · rw [exec_bind_of_error hexec] at h
    rw [hexec] at hkeep
    exact absurd hkeep h
  · rw [hexec] at hkeep
    exact ⟨b, t, rfl, hkeep, exec_bind_of_ok hexec⟩

variable [External]

/-! ## Operations on an enabled factor -/

/-- Behind the check of the current code, only the record that was checked changes. -/
theorem checked_change {α : Type} {user : UserId} {code : String} (rest : App α)
    {g : UserTwoFactorData → UserTwoFactorData} (hg : ∀ r, r.userId = user → (g r).userId = user)
    (hrest : (rest.exec s).2.db.userTwoFactor =
      s.db.userTwoFactor.map (fun r => if r.userId = user then g r else r))
    {u : UserId} {record : UserTwoFactorData} (hrecord : s.db.selectTwoFactor u = some record)
    (hchange : ((AuthService.requireEnabled user >>= fun record =>
      AuthService.requireCurrentCode record code >>= fun _ => rest).exec s).2.db.selectTwoFactor u ≠
        some record) :
    AcceptsCode s.clock record (strip code) := by
  have hrows : ((AuthService.requireEnabled user >>= fun record =>
      AuthService.requireCurrentCode record code >>= fun _ => rest).exec s).2.db.userTwoFactor ≠
        s.db.userTwoFactor :=
    fun h => hchange ((selectTwoFactor_congr h u).trans hrecord)
  obtain ⟨found, t, hfound, -, hexec⟩ :=
    factors_bind (@AuthService.requireEnabled_writes [] user) (by simp) hrows
  obtain ⟨rfl, hfound, -⟩ := requireEnabled_ok.mp hfound
  rw [hexec] at hrows hchange
  obtain ⟨_, t', hcode, -, hexec'⟩ :=
    factors_bind (@AuthService.requireCurrentCode_writes _ [] found code) (by simp) hrows
  obtain ⟨rfl, haccepts⟩ := requireCurrentCode_ok hcode
  rw [hexec', selectTwoFactor_update hrest hg, hrecord] at hchange
  by_cases hu : u = user
  · rw [hu, hfound] at hrecord
    cases hrecord
    exact haccepts
  · simp [hu] at hchange

theorem disableTwoFactor_change {user : UserData} {code : String} {u : UserId}
    {record : UserTwoFactorData} (hrecord : s.db.selectTwoFactor u = some record)
    (hchange : ((AuthService.disableTwoFactor user code).exec s).2.db.selectTwoFactor u ≠
      some record) : AcceptsCode s.clock record (strip code) :=
  checked_change (UserDAO.disableTwoFactor user.id)
    (g := fun r => { r with isEnabled := false, secretEncrypted := "", backupCodes := [] })
    (fun _ h => h) rfl hrecord hchange

def drawnRecords (s : State) : List BackupCodeRecord :=
  ((List.range 10).map (drawnBackupCode s.nextId)).map
    (fun code => { codeHash := hashBackupCode code })

theorem regenerateTwoFactorBackupCodes_change {user : UserData} {code : String} {u : UserId}
    {record : UserTwoFactorData} (hrecord : s.db.selectTwoFactor u = some record)
    (hchange : ((AuthService.regenerateTwoFactorBackupCodes user code).exec
      s).2.db.selectTwoFactor u ≠ some record) : AcceptsCode s.clock record (strip code) :=
  checked_change (generateBackupCodes 10 >>= fun codes =>
      UserDAO.updateTwoFactorBackupCodes user.id codes.2 >>= fun _ => pure codes.1)
    (g := fun r => { r with backupCodes := drawnRecords s }) (fun _ h => h) rfl hrecord hchange

/-- A challenge changes the record only by marking the backup code that it accepts. -/
theorem verifyTwoFactorChallenge_change {twoFactorToken : ℕ} {code : String} {request : Request}
    {u : UserId} {record : UserTwoFactorData} (hrecord : s.db.selectTwoFactor u = some record)
    (hchange : ((AuthService.verifyTwoFactorChallenge twoFactorToken code request).exec
      s).2.db.selectTwoFactor u ≠ some record) :
    UnusedBackupCode record (strip code) ∧
      ((AuthService.verifyTwoFactorChallenge twoFactorToken code request).exec
        s).2.db.selectTwoFactor u = some { record with
          backupCodes :=
            (consumeRecord (hashBackupCode (strip code)) s.clock record.backupCodes).2 } := by
  obtain ⟨user, hexec⟩ : ∃ user,
      (AuthService.verifyTwoFactorChallenge twoFactorToken code request).exec s =
        (AuthService.requireEnabled user >>= fun found =>
          AuthService.verify2faCodeOrBackup user found (strip code) >>= fun _ =>
            AuthService.completeChallenge twoFactorToken user request).exec s := by
    rw [AuthService.verifyTwoFactorChallenge, Redis.get, exec_ask_bind] at hchange ⊢
    simp only [handler] at hchange ⊢
    split at hchange
    · exact ⟨_, rfl⟩
    · exact absurd hrecord hchange
  rw [hexec] at hchange ⊢
  obtain ⟨found, t, hfound, -, hexec'⟩ :=
    factors_bind (@AuthService.requireEnabled_writes [] user) (by simp)
      (fun h => hchange ((selectTwoFactor_congr h u).trans hrecord))
  obtain ⟨rfl, hfound, -⟩ := requireEnabled_ok.mp hfound
  rw [hexec'] at hchange ⊢
  have hcomplete (v : State) := (AuthService.completeChallenge_writes twoFactorToken user
    request).exec_userTwoFactor (by simp) v
  rcases verify2faCodeOrBackup_cases user found (strip code) t with ⟨e, he⟩ | ⟨-, htotp⟩ |
    ⟨hunused, hbackup⟩
  · rw [exec_bind_of_error he] at hchange
    exact absurd hrecord hchange
  · rw [exec_bind_of_ok htotp, selectTwoFactor_congr (hcomplete _)] at hchange
    exact absurd hrecord hchange
  · rw [exec_bind_of_ok hbackup, selectTwoFactor_congr (hcomplete _), State.setDb_db,
      selectTwoFactor_update (g := fun r => { r with backupCodes := (consumeRecord
        (hashBackupCode (strip code)) t.clock found.backupCodes).2 }) rfl (fun _ h => h),
      hrecord] at hchange ⊢
    by_cases hu : u = user
    · rw [hu, hfound] at hrecord
      cases hrecord
      exact ⟨hunused, by simp [hu]⟩
    · simp [hu] at hchange

/-! ## Confirmations -/

structure PendingAccepts (s : State) (user : UserId) (code encrypted : String) : Prop where
  pending : s.redis.get s.clock (.twoFactorSetup user) = some (.encryptedSecret encrypted)
  valid : ∃ secret, External.fernetDecrypt encrypted = some secret ∧
    totpValid secret code s.clock = true

def confirmedRecord (s : State) (user : UserId) (encrypted : String) : UserTwoFactorData :=
  ⟨user, true, encrypted, drawnRecords s⟩

theorem confirmTwoFactorSetup_factors {user : UserData} {code encrypted : String}
    (h : PendingAccepts s user.id code encrypted) :
    ((AuthService.confirmTwoFactorSetup user code).exec s).2.db =
      (s.db.upsertTwoFactor (confirmedRecord s user.id encrypted)).2 := by
  obtain ⟨hpending, secret, hdecrypt, hvalid⟩ := h
  rw [AuthService.confirmTwoFactorSetup, Redis.get, exec_ask_bind]
  simp only [handler, hpending]
  rw [exec_bind_of_ok (decryptSecret_ok.mpr ⟨hdecrypt, rfl⟩), exec_verifyTotp_bind]
  simp only [hvalid, not_true_eq_false, if_false]
  have hcodes : (generateBackupCodes 10).exec s =
      (.ok ((List.range 10).map (drawnBackupCode s.nextId), drawnRecords s), s.drawn) := rfl
  rw [exec_bind_of_ok hcodes]
  dsimp only
  rcases hupsert : (s.db.upsertTwoFactor (confirmedRecord s user.id encrypted)).1 with e | _
  · have herror : (UserDAO.upsertTwoFactor user.id encrypted (drawnRecords s) true).exec s.drawn =
        (.error (.db e),
          s.drawn.setDb (s.db.upsertTwoFactor (confirmedRecord s user.id encrypted)).2) := by
      rw [UserDAO.upsertTwoFactor, exec_ask_bind]
      simp only [handler, State.drawn_db]
      rw [show (s.db.upsertTwoFactor ⟨user.id, true, encrypted, drawnRecords s⟩).1 = .error e from
        hupsert]
      rfl
    rw [exec_bind_of_error herror]
    rfl
  · have hok : (UserDAO.upsertTwoFactor user.id encrypted (drawnRecords s) true).exec s.drawn =
        (.ok (), s.drawn.setDb (s.db.upsertTwoFactor (confirmedRecord s user.id encrypted)).2) := by
      rw [UserDAO.upsertTwoFactor, exec_ask_bind, exec_ofDb_ok]
      exact ⟨hupsert, rfl⟩
    rw [exec_bind_of_ok hok]
    rfl

theorem confirmTwoFactorSetup_kept {user : UserData} {code : String}
    (h : ∀ encrypted, ¬ PendingAccepts s user.id code encrypted) :
    ((AuthService.confirmTwoFactorSetup user code).exec s).2 = s := by
  rw [AuthService.confirmTwoFactorSetup, Redis.get, exec_ask_bind]
  simp only [handler]
  split
  case h_1 encrypted hpending =>
    cases hdecrypt : External.fernetDecrypt encrypted with
    | none =>
      have herror : (decryptSecret encrypted).exec s = (.error .invalidToken, s) := by
        simp [decryptSecret, hdecrypt]
      rw [exec_bind_of_error herror]
    | some secret =>
      rw [exec_bind_of_ok (decryptSecret_ok.mpr ⟨hdecrypt, rfl⟩), exec_verifyTotp_bind]
      cases hvalid : totpValid secret code s.clock with
      | true => exact absurd ⟨hpending, secret, hdecrypt, hvalid⟩ (h encrypted)
      | false => rfl
  case h_2 => rfl

/-! ## Authorised changes -/

def Op.isTwoFactorApi : Op → Bool
  | .initiateTwoFactorSetup _ => true
  | .confirmTwoFactorSetup .. => true
  | .disableTwoFactor .. => true
  | .regenerateTwoFactorBackupCodes .. => true
  | .verifyTwoFactorChallenge .. => true
  | _ => false

/-- The code of the operation stands for the stored record; a challenge moreover only marks it. -/
def Op.Authorises (s : State) (record : UserTwoFactorData) (after : Option UserTwoFactorData) :
    Op → Prop
  | .confirmTwoFactorSetup _ code => AcceptsCode s.clock record code
  | .disableTwoFactor _ code => AcceptsCode s.clock record (strip code)
  | .regenerateTwoFactorBackupCodes _ code => AcceptsCode s.clock record (strip code)
  | .verifyTwoFactorChallenge _ code _ => UnusedBackupCode record (strip code) ∧
      after = some { record with
        backupCodes := (consumeRecord (hashBackupCode (strip code)) s.clock record.backupCodes).2 }
  | _ => False

namespace World

/-- If the step changes the enabled factor of the user, it is authorised. -/
def Authorised (user : UserId) (w : World) : Event → Prop
  | .advance _ => True
  | .call op => op.isTwoFactorApi = true → ∀ record, w.state.db.selectTwoFactor user = some record →
      record.isEnabled = true →
      (op.program.exec w.state).2.db.selectTwoFactor user ≠ some record →
      op.Authorises w.state record ((op.program.exec w.state).2.db.selectTwoFactor user)

/-- A confirmation with a code for the pending secret, but not for the enabled factor that it
replaces. -/
def OverwritesFactor (user : UserId) (w : World) : Event → Prop
  | .call (.confirmTwoFactorSetup account code) => account.id = user ∧
      (∃ u ∈ w.state.db.users, u.id = user) ∧
      ∃ record encrypted, w.state.db.selectTwoFactor user = some record ∧ record.isEnabled = true ∧
        PendingAccepts w.state user code encrypted ∧
        confirmedRecord w.state user encrypted ≠ record ∧ ¬ AcceptsCode w.state.clock record code
  | _ => False

theorem authorised_iff (user : UserId) (w : World) (e : Event) :
    Authorised user w e ↔ ¬ OverwritesFactor user w e := by
  cases e with
  | advance d => simp [Authorised, OverwritesFactor]
  | call op =>
    cases op with
    | confirmTwoFactorSetup account code =>
      simp only [Authorised, OverwritesFactor, Op.program, exec_map_state]
      constructor
      · rintro hauthorised ⟨rfl, huser, record, encrypted, hrecord, henabled, hpending, hne, hcode⟩
        refine hcode (hauthorised rfl record hrecord henabled ?_)
        rw [confirmTwoFactorSetup_factors hpending, selectTwoFactor_upsert huser]
        simpa [confirmedRecord] using hne
      · intro hspares _ record hrecord henabled hchange
        by_contra hcode
        by_cases hpending : ∃ encrypted, PendingAccepts w.state account.id code encrypted
        · obtain ⟨encrypted, hpending⟩ := hpending
          rw [confirmTwoFactorSetup_factors hpending] at hchange
          by_cases huser : ∃ u ∈ w.state.db.users, u.id = account.id
          · rw [selectTwoFactor_upsert huser] at hchange
            by_cases hid : user = account.id
            · subst hid
              refine hspares ⟨rfl, huser, record, encrypted, hrecord, henabled, hpending, ?_, hcode⟩
              simpa [confirmedRecord] using hchange
            · simp [confirmedRecord, hid, hrecord] at hchange
          · rw [upsertTwoFactor_of_missing huser] at hchange
            exact hchange hrecord
        · rw [confirmTwoFactorSetup_kept (not_exists.mp hpending)] at hchange
          exact hchange hrecord
    | disableTwoFactor account code =>
      simp only [Authorised, OverwritesFactor, Op.program, exec_map_state]
      exact ⟨fun _ => id, fun _ _ record hrecord _ => disableTwoFactor_change hrecord⟩
    | regenerateTwoFactorBackupCodes account code =>
      simp only [Authorised, OverwritesFactor, Op.program, exec_map_state]
      exact ⟨fun _ => id, fun _ _ record hrecord _ => regenerateTwoFactorBackupCodes_change hrecord⟩
    | verifyTwoFactorChallenge twoFactorToken code request =>
      simp only [Authorised, OverwritesFactor, Op.program, exec_map_state]
      exact ⟨fun _ => id, fun _ _ record hrecord _ => verifyTwoFactorChallenge_change hrecord⟩
    | initiateTwoFactorSetup account =>
      refine ⟨fun _ => id, fun _ _ record hrecord _ hchange => ?_⟩
      have hkeep := (Op.program_writes (.initiateTwoFactorSetup account)).exec_userTwoFactor
        (by simp [Op.areas]) w.state
      exact hchange ((selectTwoFactor_congr hkeep user).trans hrecord)
    | _ => exact ⟨fun _ => id, fun _ hapi => by cases hapi⟩

/-- An enabled factor changes in a run only by authorised operations exactly if no confirmation in
the run overwrites it. -/
theorem everyChange_authorised_iff (user : UserId) (w₀ : World) (events : List Event) :
    EveryStep step (Authorised user) w₀ events ↔
      EveryStep step (fun w e => ¬ OverwritesFactor user w e) w₀ events :=
  EveryStep.iff (authorised_iff user)

def enabledTables : Database where
  users := [testUser]
  userTwoFactor := [⟨0, true, "JBSWY3DPEHPK3PXP", [{ codeHash := "AAAABBBB" }]⟩]

/-- A new setup is confirmed with a code that the enabled factor does not accept. -/
def secondSetup : List Event :=
  [.call (.initiateTwoFactorSetup (enabledTables.userData testUser)),
    .call (.confirmTwoFactorSetup (enabledTables.userData testUser) "755224")]

omit [External] in
theorem secondSetup_not_authorised :
    letI := External.plain
    Initial (start enabledTables 1) ∧
      EveryStep step Unforged (start enabledTables 1) secondSetup ∧
      ¬ EveryStep step (Authorised 0) (start enabledTables 1) secondSetup := by
  let _ := External.plain
  refine ⟨start_initial (by simp [enabledTables]) (by simp [enabledTables, testUser])
    (by simp [enabledTables]) rfl, by simp [secondSetup, Unforged, Op.presented], fun h => ?_⟩
  rcases h.2.1 rfl _ rfl rfl (by decide) with ⟨secret, hsecret, hvalid⟩ | ⟨r, hr, hhash, -⟩
  · cases hsecret
    exact absurd hvalid (by decide)
  · rw [List.mem_singleton.mp hr] at hhash
    exact absurd hhash (by decide)

end World
end FastapiTemplate
