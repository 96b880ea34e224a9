import FastapiTemplate.AccountStatements
import Mathlib.Data.List.Infix
import Mathlib.Data.List.Sort
import Mathlib.Data.Prod.Lex
import Mathlib.Data.String.Basic

/-!
# Migration files

The names in the migrations directory, their order by the number they begin with, and the checks
that `validate_migration_sequence` makes against the versions that are applied.
-/

namespace FastapiTemplate.Migrations

open Sql (strip)

/-! ## Numbers of files -/

/-- The zeros of the runs of decimal digits, in the tables of Python 3.12. -/
def decimalZeros : List ℕ :=
  [0x30, 0x660, 0x6f0, 0x7c0, 0x966, 0x9e6, 0xa66, 0xae6, 0xb66, 0xbe6, 0xc66, 0xce6, 0xd66, 0xde6,
    0xe50, 0xed0, 0xf20, 0x1040, 0x1090, 0x17e0, 0x1810, 0x1946, 0x19d0, 0x1a80, 0x1a90, 0x1b50,
    0x1bb0, 0x1c40, 0x1c50, 0xa620, 0xa8d0, 0xa900, 0xa9d0, 0xa9f0, 0xaa50, 0xabf0, 0xff10, 0x104a0,
    0x10d30, 0x11066, 0x110f0, 0x11136, 0x111d0, 0x112f0, 0x11450, 0x114d0, 0x11650, 0x116c0,
    0x11730, 0x118e0, 0x11950, 0x11c50, 0x11d50, 0x11da0, 0x11f50, 0x16a60, 0x16ac0, 0x16b50,
    0x1d7ce, 0x1d7d8, 0x1d7e2, 0x1d7ec, 0x1d7f6, 0x1e140, 0x1e2f0, 0x1e4f0, 0x1e950, 0x1fbf0]

/-- What `\d` matches, with its value. -/
def digitValue? (c : Char) : Option ℕ :=
  (decimalZeros.find? (fun first => first ≤ c.toNat && c.toNat < first + 10)).map (c.toNat - ·)

def leadingDigits : List Char → List ℕ
  | [] => []
  | c :: cs =>
    match digitValue? c with
    | some digit => digit :: leadingDigits cs
    | none => []

def extractSequenceNumber (filename : String) : Option ℕ :=
  match leadingDigits filename.toList with
  | [] => none
  | digits => some (digits.foldl (fun n digit => 10 * n + digit) 0)

/-! ## The directory -/

def maxsize : ℕ := 2 ^ 63 - 1

/-- The files of the migrations directory, in the order in which they are listed. -/
structure MigrationsDir where
  files : List (String × String)
  namesApart : (files.map Prod.fst).Nodup

namespace MigrationsDir

def content? (dir : MigrationsDir) (name : String) : Option String := dir.files.lookup name

end MigrationsDir

def KeyLe (f g : String) : Prop :=
  (extractSequenceNumber f).getD maxsize < (extractSequenceNumber g).getD maxsize ∨
    (extractSequenceNumber f).getD maxsize = (extractSequenceNumber g).getD maxsize ∧ f ≤ g

instance : DecidableRel KeyLe := fun _ _ => inferInstanceAs (Decidable (_ ∨ _))

def getSortedMigrationFiles (dir : MigrationsDir) : List String :=
  ((dir.files.map Prod.fst).filter (fun f => ".sql".toList.isSuffixOf f.toList)).insertionSort KeyLe

/-! ## The two sections of a file -/

inductive MigrateError
  | value (message : String)
  | fileNotFound (message : String)
  | database
  deriving DecidableEq, Repr

def isLineBreak (c : Char) : Bool :=
  c.toNat ∈ [10, 11, 12, 13, 28, 29, 30, 133, 8232, 8233]

/-- `str.splitlines`, with the line that has begun in reverse. -/
def splitLines (line : List Char) : List Char → List String
  | [] => if line = [] then [] else [String.ofList line.reverse]
  | '\r' :: '\n' :: cs => String.ofList line.reverse :: splitLines [] cs
  | c :: cs =>
    if isLineBreak c then String.ofList line.reverse :: splitLines [] cs
    else splitLines (c :: line) cs

/-- The lines of the two sections, from a line on that stands in the first or in the second. -/
def sections (inUp : Bool) : List String → List String × List String
  | [] => ([], [])
  | line :: lines =>
    let stripped := (strip line).toLower.toList
    if "--".toList <+: stripped ∧ "down".toList <:+: stripped then sections false lines
    else if "--".toList <+: stripped ∧ "up".toList <:+: stripped ∧ inUp then sections inUp lines
    else
      let (upLines, downLines) := sections inUp lines
      if inUp then (line :: upLines, downLines) else (upLines, line :: downLines)

def parseMigrationSql (sql direction : String) : Except MigrateError String :=
  let direction := direction.toLower
  let (upLines, downLines) := sections true (splitLines [] sql.toList)
  if direction ≠ "up" ∧ direction ≠ "down" then
    .error (.value "Invalid direction: choose 'up' or 'down'.")
  else if direction = "up" then .ok (strip ("\n".intercalate upLines))
  else .ok (strip ("\n".intercalate downLines))

/-! ## The checks -/

structure MigrationRecord where
  version : String
  checksum : Option String

def numbers (files : List String) : List ℕ := files.filterMap extractSequenceNumber

def duplicates (files : List String) : List (ℕ × List String) :=
  ((numbers files).eraseDups.map (fun seq =>
    (seq, files.filter (fun f => extractSequenceNumber f = some seq)))).filter (fun p => 1 < p.2.length)

def checkDuplicateSequenceNumbers (files : List String) : Except MigrateError Unit :=
  if duplicates files = [] then .ok ()
  else .error (.value ("Duplicate migration sequence numbers detected: " ++
    "; ".intercalate ((duplicates files).map (fun p =>
      "Sequence " ++ toString p.1 ++ ": " ++ ", ".intercalate p.2))))

def missing (seqs : List ℕ) : List ℕ :=
  match seqs.min?, seqs.max? with
  | some least, some greatest => (List.range' least (greatest + 1 - least)).filter (· ∉ seqs)
  | _, _ => []

/-- Looked for only if every file has a number. -/
def checkSequenceGaps (files : List String) : Except MigrateError Unit :=
  if (numbers files).length = files.length ∧ missing (numbers files) ≠ [] then
    .error (.value ("Migration sequence gap detected: missing sequence number(s) [" ++
      ", ".intercalate ((missing (numbers files)).map toString) ++ "]"))
  else .ok ()

/-- The first file that is not applied and has a number below the greatest applied one. -/
def outOfOrder? (files applied : List String) : Option (String × ℕ × ℕ) := do
  let greatest ← (numbers applied).max?
  files.findSome? (fun f =>
    if f ∈ applied then none
    else (extractSequenceNumber f).bind (fun seq =>
      if seq < greatest then some (f, seq, greatest) else none))

def checkOutOfOrderExecution (files applied : List String) : Except MigrateError Unit :=
  match outOfOrder? files applied with
  | none => .ok ()
  | some (f, seq, greatest) => .error (.value ("Out-of-order migration detected: '" ++ f ++ "' (seq " ++
      toString seq ++ ") is unapplied but precedes applied migration (max seq " ++
      toString greatest ++ ")"))

section checksums
variable (computeChecksum : String → String)

def MigrationRecord.mismatch? (dir : MigrationsDir) (record : MigrationRecord) :
    Option (String × String) := do
  let content ← dir.content? record.version
  let expected ← record.checksum
  if expected ≠ "" ∧ computeChecksum content ≠ expected then
    some (expected, computeChecksum content)
  else none

def checkChecksumIntegrity (dir : MigrationsDir) : List MigrationRecord → Except MigrateError Unit
  | [] => .ok ()
  | record :: records =>
    match record.mismatch? computeChecksum dir with
    | none => checkChecksumIntegrity dir records
    | some (expected, actual) => .error (.value ("Checksum mismatch for migration '" ++
        record.version ++ "': DB checksum (" ++ expected ++ ") != Disk checksum (" ++ actual ++
        "). File was modified after application!"))

def validateMigrationSequence (dir : MigrationsDir) (files applied : List String)
    (records : List MigrationRecord) : Except MigrateError Unit := do
  checkDuplicateSequenceNumbers files
  checkSequenceGaps files
  checkOutOfOrderExecution files applied
  checkChecksumIntegrity computeChecksum dir records

end checksums

/-! ## What the checks establish -/

def NumbersApart (files : List String) : Prop :=
  ∀ f ∈ files, ∀ g ∈ files, ∀ seq, extractSequenceNumber f = some seq →
    extractSequenceNumber g = some seq → f = g

def NumbersComplete (files : List String) : Prop :=
  ∀ a ∈ numbers files, ∀ c ∈ numbers files, ∀ b, a ≤ b → b ≤ c → b ∈ numbers files

theorem mem_numbers {files : List String} {seq : ℕ} :
    seq ∈ numbers files ↔ ∃ f ∈ files, extractSequenceNumber f = some seq := List.mem_filterMap

theorem length_le_one_iff {α : Type*} {l : List α} (hl : l.Nodup) :
    l.length ≤ 1 ↔ ∀ a ∈ l, ∀ b ∈ l, a = b := by
  match l with
  | [] => simp
  | [a] => simp
  | a :: b :: rest =>
    have hne : a ≠ b := by
      intro hab
      exact (List.nodup_cons.mp hl).1 (hab ▸ List.mem_cons_self)
    constructor
    · intro h
      simp at h
    · intro h
      exact absurd (h a List.mem_cons_self b (List.mem_cons_of_mem a List.mem_cons_self)) hne

theorem checkDuplicateSequenceNumbers_ok {files : List String} (hfiles : files.Nodup) :
    checkDuplicateSequenceNumbers files = .ok () ↔ NumbersApart files := by
  have hok : checkDuplicateSequenceNumbers files = .ok () ↔ duplicates files = [] := by
    unfold checkDuplicateSequenceNumbers
    split_ifs with h <;> simp [h]
  have hgroup (seq : ℕ) : ¬ 1 < (files.filter (fun f => extractSequenceNumber f = some seq)).length ↔
      ∀ f ∈ files, extractSequenceNumber f = some seq →
        ∀ g ∈ files, extractSequenceNumber g = some seq → f = g := by
    rw [not_lt, length_le_one_iff (hfiles.filter _)]
    simp [List.mem_filter]
  rw [hok, duplicates, List.filter_eq_nil_iff, List.forall_mem_map]
  simp only [decide_eq_true_eq, hgroup, List.mem_eraseDups, mem_numbers]
  constructor
  · intro h f hf g hg seq hfseq hgseq
    exact h seq ⟨f, hf, hfseq⟩ f hf hfseq g hg hgseq
  · intro h seq _ f hf hfseq g hg hgseq
    exact h f hf g hg seq hfseq hgseq

theorem missing_eq_nil_iff {seqs : List ℕ} :
    missing seqs = [] ↔ ∀ a ∈ seqs, ∀ c ∈ seqs, ∀ b, a ≤ b → b ≤ c → b ∈ seqs := by
  unfold missing
  cases hmin : seqs.min? with
  | none =>
    rw [List.min?_eq_none_iff] at hmin
    simp [hmin]
  | some least =>
    cases hmax : seqs.max? with
    | none =>
      rw [List.max?_eq_none_iff] at hmax
      simp [hmax]
    | some greatest =>
      obtain ⟨hleast, hle⟩ := List.min?_eq_some_iff.mp hmin
      obtain ⟨hgreatest, hge⟩ := List.max?_eq_some_iff.mp hmax
      simp only [List.filter_eq_nil_iff, List.mem_range'_1, decide_eq_true_eq, not_not]
      constructor
      · intro h a ha c hc b hab hbc
        have hlow := hle a ha
        have hhigh := hge c hc
        exact h b ⟨by omega, by omega⟩
      · rintro h b ⟨hlow, hhigh⟩
        have hlast := hle greatest hgreatest
        exact h least hleast greatest hgreatest b hlow (by omega)

theorem checkSequenceGaps_ok {files : List String} : checkSequenceGaps files = .ok () ↔
    ((∀ f ∈ files, (extractSequenceNumber f).isSome) → NumbersComplete files) := by
  have hall : (numbers files).length = files.length ↔
      ∀ f ∈ files, (extractSequenceNumber f).isSome := List.filterMap_length_eq_length
  have hcomplete : missing (numbers files) = [] ↔ NumbersComplete files := missing_eq_nil_iff
  rw [← hall, ← hcomplete]
  unfold checkSequenceGaps
  split_ifs with h
  · simp [h]
  · simpa using h

def NoneBefore (files applied : List String) : Prop :=
  ∀ f ∈ files, f ∉ applied → ∀ v ∈ applied, ∀ a b, extractSequenceNumber f = some a →
    extractSequenceNumber v = some b → b ≤ a

theorem outOfOrder?_eq_none_iff {files applied : List String} :
    outOfOrder? files applied = none ↔ NoneBefore files applied := by
  unfold outOfOrder?
  cases hmax : (numbers applied).max? with
  | none =>
    rw [List.max?_eq_none_iff] at hmax
    simp only [Option.bind_eq_bind, Option.bind_none, true_iff]
    intro f _ _ v hv a b _ hb
    have hmem : b ∈ numbers applied := mem_numbers.mpr ⟨v, hv, hb⟩
    rw [hmax] at hmem
    exact absurd hmem List.not_mem_nil
  | some greatest =>
    obtain ⟨hgreatest, hge⟩ := List.max?_eq_some_iff.mp hmax
    simp only [Option.bind_eq_bind, Option.bind_some, List.findSome?_eq_none_iff]
    constructor
    · intro h f hf hfapplied v hv a b ha hb
      have hnone := h f hf
      rw [if_neg hfapplied, ha, Option.bind_some] at hnone
      have hbge := hge b (mem_numbers.mpr ⟨v, hv, hb⟩)
      split_ifs at hnone with hlt
      omega
    · intro h f hf
      split_ifs with hfapplied
      · rfl
      · cases hseq : extractSequenceNumber f with
        | none => rfl
        | some a =>
          obtain ⟨v, hv, hb⟩ := mem_numbers.mp hgreatest
          have hle := h f hf hfapplied v hv a greatest hseq hb
          rw [Option.bind_some, if_neg (by omega)]

theorem checkOutOfOrderExecution_ok {files applied : List String} :
    checkOutOfOrderExecution files applied = .ok () ↔ NoneBefore files applied := by
  rw [← outOfOrder?_eq_none_iff]
  unfold checkOutOfOrderExecution
  cases h : outOfOrder? files applied with
  | none => simp
  | some x => simp

section checksums
variable (computeChecksum : String → String)

def ChecksumKept (dir : MigrationsDir) (record : MigrationRecord) : Prop :=
  ∀ content expected, dir.content? record.version = some content →
    record.checksum = some expected → expected ≠ "" → computeChecksum content = expected

theorem mismatch?_eq_none_iff {dir : MigrationsDir} {record : MigrationRecord} :
    record.mismatch? computeChecksum dir = none ↔ ChecksumKept computeChecksum dir record := by
  unfold MigrationRecord.mismatch? ChecksumKept
  cases dir.content? record.version with
  | none => simp
  | some content =>
    cases record.checksum with
    | none => simp
    | some expected => simp

theorem checkChecksumIntegrity_ok {dir : MigrationsDir} {records : List MigrationRecord} :
    checkChecksumIntegrity computeChecksum dir records = .ok () ↔
      ∀ record ∈ records, ChecksumKept computeChecksum dir record := by
  induction records with
  | nil => simp [checkChecksumIntegrity]
  | cons record records ih =>
    rw [List.forall_mem_cons, ← mismatch?_eq_none_iff, ← ih, checkChecksumIntegrity]
    cases record.mismatch? computeChecksum dir with
    | none => simp
    | some p => simp

theorem validateMigrationSequence_ok {dir : MigrationsDir} {files applied : List String}
    {records : List MigrationRecord} (hfiles : files.Nodup) :
    validateMigrationSequence computeChecksum dir files applied records = .ok () ↔
      NumbersApart files ∧
      ((∀ f ∈ files, (extractSequenceNumber f).isSome) → NumbersComplete files) ∧
      NoneBefore files applied ∧ ∀ record ∈ records, ChecksumKept computeChecksum dir record := by
  rw [← checkDuplicateSequenceNumbers_ok hfiles, ← checkSequenceGaps_ok,
    ← checkOutOfOrderExecution_ok, ← checkChecksumIntegrity_ok]
  unfold validateMigrationSequence
  cases checkDuplicateSequenceNumbers files with
  | error e => simp [bind, Except.bind]
  | ok u =>
    cases checkSequenceGaps files with
    | error e => simp [bind, Except.bind]
    | ok u =>
      cases checkOutOfOrderExecution files applied with
      | error e => simp [bind, Except.bind]
      | ok u => simp [bind, Except.bind]

end checksums

/-! ## The order of the files -/

theorem keyLe_iff {f g : String} : KeyLe f g ↔
    toLex ((extractSequenceNumber f).getD maxsize, f) ≤
      toLex ((extractSequenceNumber g).getD maxsize, g) := by
  rw [Prod.Lex.toLex_le_toLex]
  rfl

instance : Std.Total KeyLe where
  total f g := by
    rw [keyLe_iff, keyLe_iff]
    exact le_total _ _

instance : IsTrans String KeyLe where
  trans f g h := by
    rw [keyLe_iff, keyLe_iff, keyLe_iff]
    exact le_trans

theorem sorted_pairwise (dir : MigrationsDir) : (getSortedMigrationFiles dir).Pairwise KeyLe :=
  List.pairwise_insertionSort _ _

theorem sorted_nodup (dir : MigrationsDir) : (getSortedMigrationFiles dir).Nodup :=
  (List.perm_insertionSort _ _).nodup_iff.mpr (dir.namesApart.filter _)

theorem KeyLe.number_le {f g : String} (h : KeyLe f g) {a b : ℕ}
    (ha : extractSequenceNumber f = some a) (hb : extractSequenceNumber g = some b) : a ≤ b := by
  unfold KeyLe at h
  rw [ha, hb] at h
  rcases h with h | h
  · exact Nat.le_of_lt h
  · exact Nat.le_of_eq h.1

end FastapiTemplate.Migrations
