import Mathlib.Data.Set.Function
import FastapiTemplate.BackupCodeRaces

/-!
# Sequences of backup codes

Candidate codes are checked one after the other, each against the list that the call
before it returned. A code is accepted as long as unused records with its hash are
left: each acceptance spends the first of them, and a rejection changes nothing.
-/

namespace FastapiTemplate

/-! ## One pass of the loop -/

/-- The first unused record of the hash is marked at an instant, and nothing else changes. -/
def MarksFirst (hash : String) (now : ℕ) (codes updated : List BackupCodeRecord) : Prop :=
  ∃ before item after, codes = before ++ item :: after ∧
    (∀ r ∈ before, r.codeHash = hash → r.used = true) ∧ item.codeHash = hash ∧
    item.used = false ∧
    updated = before ++ { item with used := true, usedAt := some now } :: after

theorem consumeRecord_true {hash : String} {now : ℕ} {codes : List BackupCodeRecord}
    (h : (consumeRecord hash now codes).1 = true) :
    MarksFirst hash now codes (consumeRecord hash now codes).2 := by
  induction codes with
  | nil => cases h
  | cons item rest ih =>
    unfold consumeRecord at h ⊢
    by_cases hmatch : item.codeHash = hash ∧ ¬ item.used
    · rw [if_pos hmatch]
      have hunused : item.used = false := by simpa using hmatch.2
      exact ⟨[], item, rest, rfl, by simp, hmatch.1, hunused, rfl⟩
    · rw [if_neg hmatch] at h ⊢
      obtain ⟨before, found, after, hrest, hbefore, hhash, hunused, hupdated⟩ := ih h
      refine ⟨item :: before, found, after, by rw [hrest]; rfl, ?_, hhash, hunused, ?_⟩
      · intro r hr hsame
        rcases List.mem_cons.mp hr with rfl | hr
        · by_contra hused
          exact hmatch ⟨hsame, hused⟩
        · exact hbefore r hr hsame
      · rw [hupdated]
        rfl

theorem consumeRecord_false {hash : String} {now : ℕ} {codes : List BackupCodeRecord}
    (h : (consumeRecord hash now codes).1 = false) :
    (consumeRecord hash now codes).2 = codes ∧ unusedCount hash codes = 0 := by
  induction codes with
  | nil => exact ⟨rfl, rfl⟩
  | cons item rest ih =>
    unfold consumeRecord at h ⊢
    by_cases hmatch : item.codeHash = hash ∧ ¬ item.used
    · rw [if_pos hmatch] at h
      cases h
    · rw [if_neg hmatch] at h ⊢
      obtain ⟨hsame, hcount⟩ := ih h
      refine ⟨by rw [hsame], ?_⟩
      have hitem : (item.codeHash = hash && !item.used) = false := by
        simpa using hmatch
      simp only [unusedCount] at hcount
      simp [unusedCount, hcount, hitem]

theorem consumeRecord_hashes (hash : String) (now : ℕ) (codes : List BackupCodeRecord) :
    (consumeRecord hash now codes).2.map (·.codeHash) = codes.map (·.codeHash) := by
  induction codes with
  | nil => rfl
  | cons item rest ih =>
    unfold consumeRecord
    split
    case isTrue => rfl
    case isFalse => simp [ih]

/-! ## The calls of a sequence -/

structure CodeAttempt where
  candidateCode : String
  now : ℕ

/-- A call of `verify_and_consume_backup_code`, with the list it was given and its result. -/
structure CodeCall where
  attempt : CodeAttempt
  backupCodes : List BackupCodeRecord
  isValid : Bool
  updatedCodes : List BackupCodeRecord

variable [External]

def normalizedCode (code : String) : String := External.upper (removeChar '-' (strip code))

def CodeAttempt.hash (a : CodeAttempt) : String := hashBackupCode a.candidateCode

def verifyCall (codes : List BackupCodeRecord) (a : CodeAttempt) : CodeCall where
  attempt := a
  backupCodes := codes
  isValid := (consumeRecord a.hash a.now codes).1
  updatedCodes := (consumeRecord a.hash a.now codes).2

theorem exec_verifyAndConsume (codes : List BackupCodeRecord) (a : CodeAttempt) (s : State)
    (hclock : s.clock = a.now) :
    (verifyAndConsumeBackupCode codes a.candidateCode).exec s =
      (.ok ((verifyCall codes a).isValid, (verifyCall codes a).updatedCodes), s) := by
  simp only [verifyCall, CodeAttempt.hash, ← hclock]
  rfl

def verifySequence : List BackupCodeRecord → List CodeAttempt → List CodeCall
  | _, [] => []
  | codes, a :: rest =>
    verifyCall codes a :: verifySequence (verifyCall codes a).updatedCodes rest

def attemptsOf (normalized : String) (attempts : List CodeAttempt) : ℕ :=
  attempts.countP (fun a => normalizedCode a.candidateCode = normalized)

def acceptancesOf (normalized : String) (calls : List CodeCall) : ℕ :=
  calls.countP (fun c => c.isValid && normalizedCode c.attempt.candidateCode = normalized)

def HashesApart (attempts : List CodeAttempt) : Prop :=
  Set.InjOn External.sha256Hex
    {normalized | ∃ a ∈ attempts, normalizedCode a.candidateCode = normalized}

/-! ## Counting -/

theorem acceptancesOf_le (normalized : String) (codes : List BackupCodeRecord)
    (attempts : List CodeAttempt) :
    acceptancesOf normalized (verifySequence codes attempts) ≤ attemptsOf normalized attempts := by
  induction attempts generalizing codes with
  | nil => exact le_rfl
  | cons a rest ih =>
    have hrest := ih (verifyCall codes a).updatedCodes
    simp only [acceptancesOf, attemptsOf, verifySequence, List.countP_cons] at hrest ⊢
    have hattempt : (verifyCall codes a).attempt = a := rfl
    by_cases hcode : normalizedCode a.candidateCode = normalized
    · cases (verifyCall codes a).isValid with
      | true => simpa [hattempt, hcode] using hrest
      | false => simpa [hattempt, hcode] using Nat.le_succ_of_le hrest
    · simpa [hattempt, hcode] using hrest

theorem verifyCall_unused (codes : List BackupCodeRecord) (a : CodeAttempt) (hash : String) :
    unusedCount hash (verifyCall codes a).updatedCodes +
        (if (verifyCall codes a).isValid = true ∧ a.hash = hash then 1 else 0) =
      unusedCount hash codes := by
  cases hvalid : (verifyCall codes a).isValid with
  | true =>
    have hmarked : consumeRecord a.hash a.now codes = (true, (verifyCall codes a).updatedCodes) :=
      Prod.ext hvalid rfl
    simpa using (consumeRecord_counts hmarked hash).1
  | false =>
    have hsame : (verifyCall codes a).updatedCodes = codes := (consumeRecord_false hvalid).1
    simp [hsame]

/-- The induction is on the attempts: what one call accepts, it takes from the unused records. -/
theorem acceptancesOf_sequence {normalized : String} {attempts : List CodeAttempt}
    (hapart : ∀ a ∈ attempts, a.hash = External.sha256Hex normalized →
      normalizedCode a.candidateCode = normalized) (codes : List BackupCodeRecord) :
    acceptancesOf normalized (verifySequence codes attempts) =
      min (attemptsOf normalized attempts)
        (unusedCount (External.sha256Hex normalized) codes) := by
  induction attempts generalizing codes with
  | nil => simp [acceptancesOf, attemptsOf, verifySequence]
  | cons a rest ih =>
    have hrest := ih (fun b hb => hapart b (List.mem_cons_of_mem a hb))
      (verifyCall codes a).updatedCodes
    have hunused := verifyCall_unused codes a (External.sha256Hex normalized)
    simp only [acceptancesOf, attemptsOf] at hrest
    simp only [acceptancesOf, attemptsOf, verifySequence, List.countP_cons, hrest]
    by_cases hcode : normalizedCode a.candidateCode = normalized
    · have hhash : a.hash = External.sha256Hex normalized := congrArg External.sha256Hex hcode
      have hattempt : (verifyCall codes a).attempt = a := rfl
      cases hvalid : (verifyCall codes a).isValid with
      | true =>
        simp only [hvalid, hhash, and_self, if_true] at hunused
        simp only [hattempt, hcode, decide_true, Bool.and_self, if_true]
        omega
      | false =>
        have hnone : unusedCount a.hash codes = 0 := (consumeRecord_false hvalid).2
        rw [hhash] at hnone
        simp only [hvalid, Bool.false_eq_true, false_and, if_false] at hunused
        simp only [Bool.false_and, Bool.false_eq_true, if_false]
        omega
    · have hhash : a.hash ≠ External.sha256Hex normalized :=
        fun hsame => hcode (hapart a List.mem_cons_self hsame)
      have hattempt : (verifyCall codes a).attempt = a := rfl
      simp only [hhash, and_false, if_false, Nat.add_zero] at hunused
      simp [hattempt, hcode, hunused]

/-! ## The whole sequence -/

theorem verifySequence_call {codes : List BackupCodeRecord} {attempts : List CodeAttempt}
    {c : CodeCall} (hc : c ∈ verifySequence codes attempts) :
    c = verifyCall c.backupCodes c.attempt ∧
      c.backupCodes.map (·.codeHash) = codes.map (·.codeHash) := by
  induction attempts generalizing codes with
  | nil => cases hc
  | cons a rest ih =>
    rcases List.mem_cons.mp hc with rfl | hc
    · exact ⟨rfl, rfl⟩
    · obtain ⟨hcall, hhashes⟩ := ih hc
      exact ⟨hcall, hhashes.trans (consumeRecord_hashes a.hash a.now codes)⟩

/-- Each code is accepted as often as it is tried while unused records with its hash are left. An
acceptance marks the first of them, a rejection changes nothing, and the hashes stay as they are. -/
theorem backupCodes_spentInTurn (codes : List BackupCodeRecord) {attempts : List CodeAttempt}
    (hapart : HashesApart attempts) :
    (∀ normalized, acceptancesOf normalized (verifySequence codes attempts) =
      min (attemptsOf normalized attempts)
        (unusedCount (External.sha256Hex normalized) codes)) ∧
    ∀ c ∈ verifySequence codes attempts,
      (c.isValid = true → MarksFirst c.attempt.hash c.attempt.now c.backupCodes c.updatedCodes) ∧
      (c.isValid = false → c.updatedCodes = c.backupCodes) ∧
      c.updatedCodes.map (·.codeHash) = codes.map (·.codeHash) := by
  refine ⟨fun normalized => ?_, fun c hc => ?_⟩
  · by_cases htried : ∃ a ∈ attempts, normalizedCode a.candidateCode = normalized
    · exact acceptancesOf_sequence
        (fun a ha hhash => hapart ⟨a, ha, rfl⟩ htried hhash) codes
    · -- a code that is never tried is never accepted
      have hnone : attemptsOf normalized attempts = 0 := by
        refine List.countP_eq_zero.mpr (fun a ha hsame => htried ⟨a, ha, by simpa using hsame⟩)
      have hle := acceptancesOf_le normalized codes attempts
      omega
  · obtain ⟨hcall, hhashes⟩ := verifySequence_call hc
    have hupdated : c.updatedCodes =
        (consumeRecord c.attempt.hash c.attempt.now c.backupCodes).2 :=
      congrArg CodeCall.updatedCodes hcall
    have hvalid : c.isValid = (consumeRecord c.attempt.hash c.attempt.now c.backupCodes).1 :=
      congrArg CodeCall.isValid hcall
    refine ⟨fun htrue => ?_, fun hfalse => ?_, ?_⟩
    · rw [hupdated]
      exact consumeRecord_true (hvalid.symm.trans htrue)
    · rw [hupdated]
      exact (consumeRecord_false (hvalid.symm.trans hfalse)).1
    · rw [hupdated]
      exact (consumeRecord_hashes _ _ _).trans hhashes

omit [External] in
/-- Two records share the hash of a code that is tried three times. -/
theorem backupCodes_spentInTurn_repeated :
    letI := External.plain
    let codes : List BackupCodeRecord :=
      [{ codeHash := "AB" }, { codeHash := "CD" }, { codeHash := "AB" }]
    let attempts : List CodeAttempt := [⟨"a-b", 1⟩, ⟨" AB ", 2⟩, ⟨"ef", 3⟩, ⟨"AB", 4⟩]
    acceptancesOf "AB" (verifySequence codes attempts) = min 3 2 := by
  let _ := External.plain
  intro codes attempts
  have hapart : HashesApart attempts := fun _ _ _ _ hsame => hsame
  have htried : attemptsOf "AB" attempts = 3 := by decide +kernel
  have hunused : unusedCount (External.sha256Hex "AB") codes = 2 := by decide +kernel
  have hspent := (backupCodes_spentInTurn codes hapart).1 "AB"
  rw [htried, hunused] at hspent
  exact hspent

end FastapiTemplate
