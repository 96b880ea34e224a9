import FastapiTemplate.RequestCalls

/-!
# Backup codes under interleaving

A challenge verification reads the whole list of backup codes, marks one record in
memory and writes the whole list back. Where every request writes while the list is
still the one it read, each record is spent by one request and every mark stays.
Two requests that read the same list spend one record twice, or lose a mark.
-/

namespace FastapiTemplate

variable {s t : State}

/-! ## Counting records -/

def unusedCount (hash : String) (codes : List BackupCodeRecord) : ℕ :=
  codes.countP (fun r => r.codeHash = hash && !r.used)

def usedCount (hash : String) (codes : List BackupCodeRecord) : ℕ :=
  codes.countP (fun r => r.codeHash = hash && r.used)

/-- Marking turns one unused record of the hash into a used one. -/
theorem consumeRecord_counts {hash : String} {now : ℕ} {codes codes' : List BackupCodeRecord}
    (h : consumeRecord hash now codes = (true, codes')) (other : String) :
    unusedCount other codes' + (if hash = other then 1 else 0) = unusedCount other codes ∧
      usedCount other codes' = usedCount other codes + (if hash = other then 1 else 0) := by
  induction codes generalizing codes' with
  | nil => cases h
  | cons item rest ih =>
    unfold consumeRecord at h
    split at h
    case isTrue hmatch =>
      obtain ⟨-, rfl⟩ := Prod.mk.inj h
      obtain ⟨rfl, hunused⟩ := hmatch
      have hused : item.used = false := by simpa using hunused
      by_cases hother : item.codeHash = other
      · simp [unusedCount, usedCount, hused, hother]
      · simp [unusedCount, usedCount, hother]
    case isFalse =>
      rcases hrest : consumeRecord hash now rest with ⟨found, marked⟩
      rw [hrest] at h
      obtain ⟨rfl, rfl⟩ := Prod.mk.inj h
      obtain ⟨hunused, hused⟩ := ih hrest
      simp only [unusedCount, usedCount, List.countP_cons] at hunused hused ⊢
      omega

/-! ## The stored list -/

def Database.backupCodes (db : Database) (user : UserId) : List BackupCodeRecord :=
  ((db.selectTwoFactor user).map (·.backupCodes)).getD []

theorem backupCodes_update (db : Database) (writer user : UserId) (codes : List BackupCodeRecord) :
    (db.updateBackupCodes writer codes).backupCodes user =
      if user = writer ∧ (db.selectTwoFactor user).isSome then codes else db.backupCodes user := by
  have hupdate : (db.updateBackupCodes writer codes).selectTwoFactor user = _ :=
    selectTwoFactor_update (g := fun r => { r with backupCodes := codes }) rfl (fun _ h => h) user
  unfold Database.backupCodes
  rw [hupdate]
  cases db.selectTwoFactor user with
  | none => simp
  | some record => by_cases h : user = writer <;> simp [h]

/-! ## Accepted codes -/

/-- The operation replaces or removes records of second factors as a whole. -/
def Op.configuresFactors : Op → Bool
  | .confirmTwoFactorSetup .. => true
  | .disableTwoFactor .. => true
  | .regenerateTwoFactorBackupCodes .. => true
  | .deleteUsers _ => true
  | _ => false

theorem Op.avoids_removal {op : Op} (h : op.configuresFactors = false) {c : Call}
    (hc : c.Within op.areas) : c.Avoids [.removal] := by
  cases op with
  | deleteUsers ids => cases h
  | _ => exact hc.avoids (by simp [areas])

theorem Op.avoids_factors {op : Op} (h : op.configuresFactors = false)
    (hverify : ∀ n code request, op ≠ .verifyTwoFactorChallenge n code request) {c : Call}
    (hc : c.Within op.areas) : c.Avoids [.factors] := by
  cases op with
  | confirmTwoFactorSetup user code => cases h
  | disableTwoFactor user code => cases h
  | regenerateTwoFactorBackupCodes user code => cases h
  | verifyTwoFactorChallenge n code request => exact absurd rfl (hverify n code request)
  | _ => exact hc.avoids (by simp [areas])

def Call.writesCodes (user : UserId) : Call → Bool
  | .updateBackupCodes u _ => u = user
  | _ => false

theorem Call.writesCodes_of_avoids {c : Call} (h : c.Avoids [.factors]) (user : UserId) :
    c.writesCodes user = false := by
  cases c with
  | updateBackupCodes u codes => exact absurd rfl (h .factors (by simp))
  | _ => rfl

variable [External]

/-- The request has passed its check with a backup code of the hash, by marking a record in the
list of the user. -/
def acceptedCode (user : UserId) (hash : String) (th : RequestThread) : Bool :=
  match th.tag with
  | .verifyTwoFactorChallenge _ code _ =>
    hashBackupCode (strip code) = hash && th.trace.any (fun e => e.1.writesCodes user)
  | _ => false

theorem acceptedCode_answered {th : RequestThread} {c : Call} {r : c.Answer}
    {next : c.Answer → App Response} {user : UserId} (hc : c.writesCodes user = false)
    (hash : String) :
    acceptedCode user hash (th.answered c r next) = acceptedCode user hash th := by
  simp [acceptedCode, Thread.answered, hc]

theorem acceptedCode_fresh (user : UserId) (hash : String) (op : Op) :
    acceptedCode user hash (requests.fresh op) = false := by
  cases op <;> simp [acceptedCode, PoolSystem.fresh]

omit [External] in
theorem writesCodes_none {h : RequestTrace} (hfirst : ∀ e ∈ h, e.1.Avoids [.factors])
    (user : UserId) : h.any (fun e => e.1.writesCodes user) = false := by
  rw [List.any_eq_false]
  intro e he
  simp [Call.writesCodes_of_avoids (hfirst e he) user]

theorem acceptedCode_before {th : RequestThread} (hfirst : ∀ e ∈ th.trace, e.1.Avoids [.factors])
    (user : UserId) (hash : String) : acceptedCode user hash th = false := by
  unfold acceptedCode
  split
  · simp [writesCodes_none hfirst]
  · rfl

/-- The request that writes its list is accepted with the hash of its own code. -/
theorem acceptedCode_after {th : RequestThread} {n : ℕ} {code : String} {request : Request}
    (htag : th.tag = .verifyTwoFactorChallenge n code request)
    (hfirst : ∀ e ∈ th.trace, e.1.Avoids [.factors]) (user writer : UserId) (hash : String)
    (codes : List BackupCodeRecord) (next : Unit → App Response) :
    acceptedCode user hash (th.answered (.updateBackupCodes writer codes) () next) = true ↔
      hashBackupCode (strip code) = hash ∧ writer = user := by
  have hlast : (Call.updateBackupCodes writer codes).writesCodes user = decide (writer = user) := rfl
  simp [acceptedCode, Thread.answered, htag, writesCodes_none hfirst, hlast]

structure CodeWrite (op : Op) (h : RequestTrace) (c : Call) : Prop where
  made : ∃ n code request user record now codes,
    op = .verifyTwoFactorChallenge n code request ∧ c = .updateBackupCodes user codes ∧
      readFactor h user = some record ∧
      consumeRecord (hashBackupCode (strip code)) now record.backupCodes = (true, codes)
  first : ∀ e ∈ h, e.1.Avoids [.factors]

theorem RequestCall.factors {op : Op} {h : RequestTrace} {c : Call} (hcall : RequestCall op h c)
    (hkeep : op.configuresFactors = false) :
    c.Avoids [.factors, .removal] ∨ CodeWrite op h c := by
  cases hcall with
  | aside hwithin havoids hfactors =>
    refine .inl (fun a ha => ?_)
    simp only [List.mem_cons, List.not_mem_nil, or_false] at ha
    rcases ha with rfl | rfl
    · by_cases hverify : ∃ n code request, op = .verifyTwoFactorChallenge n code request
      · obtain ⟨n, code, request, hop⟩ := hverify
        exact hfactors n code request hop _ List.mem_cons_self
      · push Not at hverify
        exact Op.avoids_factors hkeep hverify hwithin _ List.mem_cons_self
    · exact Op.avoids_removal hkeep hwithin _ List.mem_cons_self
  | markCode hrecord hmark hfirst => exact .inr ⟨⟨_, _, _, _, _, _, _, rfl, rfl, hrecord, hmark⟩, hfirst⟩
  | _ => exact .inl (by simp [Call.Avoids, Call.area, RedisKey.area])

namespace RequestPool

def WritesCurrentList (p : RequestPool) : RequestMove → Bool
  | .advance i => p.threads[i]?.all (fun th =>
    match th.rest with
    | .call (.updateBackupCodes user _) _ =>
      (readFactor th.trace user).all (fun record =>
        record.backupCodes = p.state.db.backupCodes user)
    | _ => true)
  | _ => true

def KeepsFactors : RequestMove → Bool
  | .spawn op => !op.configuresFactors
  | _ => true

/-- What has been accepted, in terms of the list at the start. -/
structure CodeLedger (s₀ : State) (user : UserId) (hash : String) (p : RequestPool) : Prop where
  behaving : Behaving p
  keeps : ∀ th ∈ p.threads, th.tag.configuresFactors = false
  unused : unusedCount hash (p.state.db.backupCodes user) +
    p.threads.countP (acceptedCode user hash) = unusedCount hash (s₀.db.backupCodes user)
  used : usedCount hash (p.state.db.backupCodes user) =
    usedCount hash (s₀.db.backupCodes user) + p.threads.countP (acceptedCode user hash)

/-- One step marks as many records as requests it accepts. -/
theorem CodeLedger.counts_step {s₀ : State} {user : UserId} {hash : String} {p : RequestPool}
    (h : CodeLedger s₀ user hash p) {m : RequestMove} (hcurrent : WritesCurrentList p m = true) :
    ∃ d, unusedCount hash ((requests.step p m).state.db.backupCodes user) + d =
        unusedCount hash (p.state.db.backupCodes user) ∧
      usedCount hash ((requests.step p m).state.db.backupCodes user) =
        usedCount hash (p.state.db.backupCodes user) + d ∧
      (requests.step p m).threads.countP (acceptedCode user hash) =
        p.threads.countP (acceptedCode user hash) + d := by
  have hcase := requests.step_cases p m
  generalize requests.step p m = q at hcase
  cases hcase with
  | spawn tag => exact ⟨0, rfl, rfl, by simp [List.countP_append, acceptedCode_fresh]⟩
  | environment d => exact ⟨0, rfl, rfl, rfl⟩
  | idle i => exact ⟨0, rfl, rfl, rfl⟩
  | @call i th c next hth hrest =>
    have hkeep := h.keeps th (List.mem_of_getElem? hth)
    have hcount := countP_set_thread (f := acceptedCode user hash) hth
      (th.answered c (requests.handler c p.state).1 next)
    rcases (h.behaving.call hth hrest).factors hkeep with havoids | hwrite
    · -- the table of records stays, and no request is accepted
      have hframe := (handler_frame c p.state).userTwoFactor havoids
      have hcodes : (handler c p.state).2.db.backupCodes user = p.state.db.backupCodes user := by
        unfold Database.backupCodes
        rw [selectTwoFactor_congr hframe]
      have hother : c.Avoids [.factors] := fun a ha => havoids a (by simp_all)
      rw [acceptedCode_answered (Call.writesCodes_of_avoids hother user)] at hcount
      exact ⟨0, congrArg (unusedCount hash) hcodes, congrArg (usedCount hash) hcodes,
        Nat.add_right_cancel hcount⟩
    · obtain ⟨⟨n, code, request, writer, record, now, codes, htag, rfl, hrecord, hmark⟩, hfirst⟩ :=
        hwrite
      have hread : record.backupCodes = p.state.db.backupCodes writer := by
        simpa [WritesCurrentList, hth, hrest, hrecord] using hcurrent
      rw [hread] at hmark
      have hfound : (p.state.db.selectTwoFactor writer).isSome = true := by
        by_contra hnone
        have hempty : p.state.db.backupCodes writer = [] := by
          simp [Database.backupCodes, Option.not_isSome_iff_eq_none.mp hnone]
        rw [hempty] at hmark
        cases hmark
      rw [acceptedCode_before hfirst] at hcount
      have hafter := acceptedCode_after htag hfirst user writer hash codes next
      have hcodes := backupCodes_update p.state.db writer user codes
      by_cases huser : user = writer
      · subst huser
        rw [if_pos ⟨rfl, hfound⟩] at hcodes
        obtain ⟨hunused, hused⟩ := consumeRecord_counts hmark hash
        rw [← hcodes] at hunused hused
        refine ⟨_, hunused, hused, ?_⟩
        rw [if_congr hafter rfl rfl] at hcount
        simpa using hcount
      · rw [if_neg (fun hsame => huser hsame.1)] at hcodes
        refine ⟨0, congrArg (unusedCount hash) hcodes, congrArg (usedCount hash) hcodes, ?_⟩
        rw [if_neg (fun htrue => huser (hafter.mp htrue).2.symm)] at hcount
        exact hcount

theorem CodeLedger.step {s₀ : State} {user : UserId} {hash : String} {p : RequestPool}
    (h : CodeLedger s₀ user hash p) {m : RequestMove} (hkeeps : KeepsFactors m = true)
    (hcurrent : WritesCurrentList p m = true) : CodeLedger s₀ user hash (requests.step p m) := by
  obtain ⟨d, hunused, hused, hcount⟩ := h.counts_step hcurrent
  have hbefore := h.unused
  have hbefore' := h.used
  refine ⟨h.behaving.step m, ?_, by omega, by omega⟩
  refine requests.everyThread_step h.keeps (fun tag htag => ?_) (fun _ _ _ _ _ _ hth => hth)
  rw [htag] at hkeeps
  exact (Bool.not_eq_true' _).mp hkeeps

/-- When every list that is written back is made from the stored one, a code is accepted at most as
often as it is stored unused, and each acceptance leaves one more used record. -/
theorem codes_single_use {s₀ : State} {p : RequestPool}
    (hrun : RunsWhere requests.step
      (fun p m => KeepsFactors m = true ∧ WritesCurrentList p m = true) (start s₀) p)
    (user : UserId) (hash : String) :
    p.threads.countP (acceptedCode user hash) ≤ unusedCount hash (s₀.db.backupCodes user) ∧
      usedCount hash (p.state.db.backupCodes user) =
        usedCount hash (s₀.db.backupCodes user) + p.threads.countP (acceptedCode user hash) := by
  have hledger : CodeLedger s₀ user hash p := by
    refine hrun.invariant ⟨?_, ?_, rfl, rfl⟩ (fun _ _ hok h => h.step hok.1 hok.2)
    · exact fun _ hth => by cases hth
    · exact fun _ hth => by cases hth
  have hunused := hledger.unused
  exact ⟨by omega, hledger.used⟩

omit [External] in
theorem codes_single_use_answersInTurn :
    letI := External.plain
    let p := run requests.step (start challengeStart) (answersInTurn 0 "AAAA-BBBB" "CCCC-DDDD")
    p.threads.countP (acceptedCode 0 "AAAABBBB") = 1 ∧
      usedCount "AAAABBBB" (p.state.db.backupCodes 0) = 1 := by
  let _ := External.plain
  intro p
  have hevery : EveryStep requests.step
      (fun p m => KeepsFactors m = true ∧ WritesCurrentList p m = true) (start challengeStart)
      (answersInTurn 0 "AAAA-BBBB" "CCCC-DDDD") := by decide +kernel
  have hcount : p.threads.countP (acceptedCode 0 "AAAABBBB") = 1 := by decide +kernel
  have hinitial : usedCount "AAAABBBB" (challengeStart.db.backupCodes 0) = 0 := by decide +kernel
  have hrun : RunsWhere requests.step _ (start challengeStart) p := hevery.runsWhere
  have hused := (codes_single_use hrun 0 "AAAABBBB").2
  rw [hcount, hinitial] at hused
  exact ⟨hcount, hused⟩

omit [External] in
/-- Two requests spend the one record of a code, and of two codes spent at once one stays unused. -/
theorem codes_not_single_use :
    letI := External.plain
    let same := run requests.step (start challengeStart) (answersAtOnce "AAAA-BBBB" "AAAA-BBBB")
    let different := run requests.step (start challengeStart) (answersAtOnce "AAAA-BBBB" "CCCC-DDDD")
    unusedCount "AAAABBBB" (challengeStart.db.backupCodes 0) = 1 ∧
      same.threads.countP (acceptedCode 0 "AAAABBBB") = 2 ∧
      (same.threads.drop 2).all (·.result.isSome) = true ∧
      different.threads.countP (acceptedCode 0 "AAAABBBB") = 1 ∧
      usedCount "AAAABBBB" (different.state.db.backupCodes 0) = 0 ∧
      (different.threads.drop 2).all (·.result.isSome) = true := by
  decide +kernel

end RequestPool
end FastapiTemplate
