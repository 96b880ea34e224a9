import FastapiTemplate.MigrationFiles
import FastapiTemplate.PythonValues

/-!
# Texts and numbers

Methods of `str` on texts that may hold lone surrogates, and the conversions between such texts,
numbers and bytes: `int(text)` and `str(number)` with the limit on their digits, and UTF-8.
-/

namespace FastapiTemplate.PyText

/-! ## Parts of a text -/

/-- No lone surrogate is white space. -/
def isSpace (u : ℕ) : Bool := Sql.isSpace (Char.ofNat u)

def stripWhere (p : ℕ → Bool) (t : PyText) : PyText :=
  ((t.dropWhile p).reverse.dropWhile p).reverse

def strip (t : PyText) : PyText := stripWhere isSpace t

def splitOnce (sep : ℕ) : PyText → Option (PyText × PyText)
  | [] => none
  | u :: t => if u = sep then some ([], t) else (splitOnce sep t).map (fun kv => (u :: kv.1, kv.2))

def isAscii (t : PyText) : Bool := t.all (· < 128)

/-! ## Numbers -/

def maxStrDigits : ℕ := 4300

/-- What `int` leaves out at both ends, which are not all the white space of `strip`. -/
def intSpace (u : ℕ) : Bool := isSpace u && !(28 ≤ u && u ≤ 31)

def digitValue? (u : ℕ) : Option ℕ := Migrations.digitValue? (Char.ofNat u)

def readDigits (t : PyText) : Option ℕ :=
  let groups := t.splitOn 95
  if groups.all (fun group => group ≠ [] && group.all (fun u => (digitValue? u).isSome)) &&
      groups.flatten.length ≤ maxStrDigits then
    some (groups.flatten.foldl (fun n u => 10 * n + (digitValue? u).getD 0) 0)
  else none

/-- `int(text)`, which raises a `ValueError` otherwise. -/
def int? (t : PyText) : Option ℤ :=
  match stripWhere intSpace t with
  | 45 :: digits => (readDigits digits).map (fun n : ℕ => -(n : ℤ))
  | 43 :: digits => (readDigits digits).map (fun n : ℕ => (n : ℤ))
  | digits => (readDigits digits).map (fun n : ℕ => (n : ℤ))

/-- `str(number)`, which raises a `ValueError` for too many digits. -/
def ofInt? (n : ℤ) : Option PyText :=
  if (Nat.toDigits 10 n.natAbs).length ≤ maxStrDigits then
    some ((PyValue.intText n).map Char.toNat)
  else none

/-! ## Bytes -/

/-- `text.encode("utf-8")`, which raises a `UnicodeEncodeError` for a lone surrogate. -/
def encode? (t : PyText) : Option (List UInt8) :=
  if t.all PyValue.isScalar then some ((t.map Char.ofNat).flatMap String.utf8EncodeChar) else none

def hexChars (bytes : List UInt8) : List Char :=
  bytes.flatMap (fun b => [(b.toNat / 16).digitChar, (b.toNat % 16).digitChar])

def hexdigest (digest : List UInt8) : PyText := (hexChars digest).map Char.toNat

/-! ## What stripping does -/

theorem stripWhere_eq_self {p : ℕ → Bool} {t : PyText} (h : ∀ u ∈ t, p u = false) :
    stripWhere p t = t := by
  have hdrop {l : PyText} (hl : ∀ u ∈ l, p u = false) : l.dropWhile p = l := by
    cases l with
    | nil => rfl
    | cons u l => exact List.dropWhile_cons_of_neg (by simp [hl u List.mem_cons_self])
  rw [stripWhere, hdrop h, hdrop (fun u hu => h u (List.mem_reverse.mp hu)), List.reverse_reverse]

theorem mem_stripWhere_or {p : ℕ → Bool} {t : PyText} {u : ℕ} (hu : u ∈ t) :
    u ∈ stripWhere p t ∨ p u = true := by
  have hdrop {l : PyText} (hl : u ∈ l) : u ∈ l.dropWhile p ∨ p u = true := by
    rw [← List.takeWhile_append_dropWhile (p := p) (l := l)] at hl
    rcases List.mem_append.mp hl with htake | hrest
    · exact .inr (List.mem_takeWhile_imp htake)
    · exact .inl hrest
  rcases hdrop hu with hleft | hspace
  · rcases hdrop (List.mem_reverse.mpr hleft) with hboth | hspace
    · exact .inl (List.mem_reverse.mpr hboth)
    · exact .inr hspace
  · exact .inr hspace

theorem splitOnce_append {sep : ℕ} {k : PyText} (hk : sep ∉ k) (v : PyText) :
    splitOnce sep (k ++ sep :: v) = some (k, v) := by
  induction k with
  | nil => exact if_pos rfl
  | cons u k ih =>
    obtain ⟨hu, hk'⟩ := not_or.mp (fun h => hk (List.mem_cons.mpr h))
    rw [List.cons_append, splitOnce, if_neg (fun h => hu h.symm), ih hk']
    rfl

theorem flatten_splitOn (sep : ℕ) (t : PyText) : (t.splitOn sep).flatten = t.filter (· ≠ sep) := by
  induction t with
  | nil => rfl
  | cons u t ih =>
    rw [List.splitOn_cons_eq_if_modifyHead]
    by_cases hu : u = sep
    · rw [if_pos (by simpa using hu), List.filter_cons_of_neg (by simpa using hu), ← ih]
      rfl
    · rw [if_neg (by simpa using hu), List.filter_cons_of_pos (by simpa using hu), ← ih]
      obtain ⟨group, groups, hsplit⟩ := List.exists_cons_of_ne_nil (List.splitOn_ne_nil sep t)
      rw [hsplit]
      rfl

/-! ## The characters of a number -/

theorem ofNat_of_not_scalar {u : ℕ} (h : PyValue.isScalar u = false) :
    Char.ofNat u = Char.ofNat 0 := by
  have hinvalid : ¬ u.isValidChar := by
    intro hvalid
    simp only [PyValue.isScalar, Bool.or_eq_false_iff, Bool.and_eq_false_iff,
      decide_eq_false_iff_not] at h
    rcases hvalid with hlow | ⟨hlow, hhigh⟩ <;> omega
  rw [Char.ofNat, dif_neg hinvalid]
  rfl

def IntChar (u : ℕ) : Prop :=
  isSpace u = true ∨ u ∈ [43, 45, 95] ∨ (digitValue? u).isSome

theorem IntChar.scalar {u : ℕ} (h : IntChar u) : PyValue.isScalar u = true := by
  by_contra hscalar
  have hzero := ofNat_of_not_scalar (Bool.eq_false_iff.mpr hscalar)
  rcases h with h | h | h
  · rw [isSpace, hzero] at h
    exact absurd h (by decide)
  · refine hscalar ?_
    simp only [List.mem_cons, List.not_mem_nil, or_false] at h
    rcases h with rfl | rfl | rfl <;> rfl
  · rw [digitValue?, hzero] at h
    exact absurd h (by decide)

theorem intChar_of_readDigits {t : PyText} {n : ℕ} (h : readDigits t = some n) :
    ∀ u ∈ t, IntChar u := by
  intro u hu
  unfold readDigits at h
  dsimp only at h
  split_ifs at h with hgroups
  simp only [Bool.and_eq_true, List.all_eq_true, decide_eq_true_eq] at hgroups
  by_cases hunder : u = 95
  · exact .inr (.inl (by simp [hunder]))
  · have hflat : u ∈ (t.splitOn 95).flatten := by
      rw [flatten_splitOn]
      exact List.mem_filter.mpr ⟨hu, by simpa using hunder⟩
    obtain ⟨group, hgroup, hmem⟩ := List.mem_flatten.mp hflat
    exact .inr (.inr ((hgroups.1 group hgroup).2 u hmem))

theorem intChar_of_int? {t : PyText} {n : ℤ} (h : int? t = some n) : ∀ u ∈ t, IntChar u := by
  intro u hu
  rcases mem_stripWhere_or (p := intSpace) hu with hcore | hspace
  · unfold int? at h
    have hdigits {digits : PyText} {f : ℕ → ℤ} (hread : (readDigits digits).map f = some n) :
        ∀ v ∈ digits, IntChar v := by
      obtain ⟨m, hm, -⟩ := Option.map_eq_some_iff.mp hread
      exact intChar_of_readDigits hm
    split at h
    case h_1 digits heq =>
      rw [heq] at hcore
      rcases List.mem_cons.mp hcore with rfl | hrest
      · exact .inr (.inl (by simp))
      · exact hdigits h u hrest
    case h_2 digits heq =>
      rw [heq] at hcore
      rcases List.mem_cons.mp hcore with rfl | hrest
      · exact .inr (.inl (by simp))
      · exact hdigits h u hrest
    case h_3 => exact hdigits h u hcore
  · simp only [intSpace, Bool.and_eq_true] at hspace
    exact .inl hspace.1

/-! ## Reading what `str` has written -/

theorem digitValue?_digit : ∀ d < 10, digitValue? (48 + d) = some d := by decide

theorem intSpace_digit : ∀ d < 10, intSpace (48 + d) = false := by decide

/-- The code points of decimal digits. -/
theorem exists_digit {c : Char} (h : c.isDigit = true) : ∃ d < 10, c.toNat = 48 + d := by
  have hrange : 48 ≤ c.toNat ∧ c.toNat ≤ 57 := by
    simpa [Char.isDigit, UInt32.le_iff_toNat_le] using h
  exact ⟨c.toNat - 48, by omega, by omega⟩

def decimals (n : ℕ) : PyText := (Nat.toDigits 10 n).map Char.toNat

theorem exists_of_mem_decimals {n u : ℕ} (h : u ∈ decimals n) : ∃ d < 10, u = 48 + d := by
  obtain ⟨c, hc, rfl⟩ := List.mem_map.mp h
  exact exists_digit (Nat.isDigit_of_mem_toDigits (by omega) (by omega) hc)

theorem decimals_ne_nil (n : ℕ) : decimals n ≠ [] := by
  simp [decimals, Nat.toDigits_ne_nil]

theorem foldl_digits (cs : List Char) (hcs : ∀ c ∈ cs, c.isDigit = true) (n : ℕ) :
    (cs.map Char.toNat).foldl (fun n u => 10 * n + (digitValue? u).getD 0) n =
      Nat.ofDigitChars 10 cs n := by
  induction cs generalizing n with
  | nil => rfl
  | cons c cs ih =>
    obtain ⟨d, hd, hc⟩ := exists_digit (hcs c List.mem_cons_self)
    rw [List.map_cons, List.foldl_cons, Nat.ofDigitChars_cons, hc, digitValue?_digit d hd,
      ih (fun c hc => hcs c (List.mem_cons_of_mem _ hc))]
    congr 1
    change 10 * n + d = 10 * n + (48 + d - 48)
    omega

theorem readDigits_decimals {n : ℕ} (h : (Nat.toDigits 10 n).length ≤ maxStrDigits) :
    readDigits (decimals n) = some n := by
  have hunder : 95 ∉ decimals n := by
    intro hmem
    obtain ⟨d, hd, heq⟩ := exists_of_mem_decimals hmem
    omega
  have hall : (decimals n).all (fun u => (digitValue? u).isSome) = true := by
    refine List.all_eq_true.mpr (fun u hu => ?_)
    obtain ⟨d, hd, rfl⟩ := exists_of_mem_decimals hu
    rw [digitValue?_digit d hd]
    rfl
  have hlength : (decimals n).length ≤ maxStrDigits := by rwa [decimals, List.length_map]
  unfold readDigits
  rw [List.splitOn_eq_singleton hunder]
  simp only [List.all_cons, List.all_nil, List.flatten_cons, List.flatten_nil, List.append_nil,
    hall, decimals_ne_nil, hlength, ne_eq, not_false_eq_true, decide_true, Bool.and_self, if_true]
  rw [decimals, foldl_digits _ (fun c hc => Nat.isDigit_of_mem_toDigits (by omega) (by omega) hc),
    Nat.ofDigitChars_ten_toDigits]

theorem ofInt?_eq_some {n : ℤ} {t : PyText} (h : ofInt? n = some t) :
    (Nat.toDigits 10 n.natAbs).length ≤ maxStrDigits ∧
      (t = decimals n.natAbs ∧ n = n.natAbs ∨ t = 45 :: decimals n.natAbs ∧ n = -n.natAbs) := by
  unfold ofInt? at h
  split_ifs at h with hlength
  cases h
  refine ⟨hlength, ?_⟩
  cases n with
  | ofNat m => exact .inl ⟨rfl, rfl⟩
  | negSucc m => exact .inr ⟨rfl, rfl⟩

/-- `str` writes a sign and digits. -/
theorem ofInt?_chars {n : ℤ} {t : PyText} (h : ofInt? n = some t) :
    t ≠ [] ∧ ∀ u ∈ t, u = 45 ∨ ∃ d < 10, u = 48 + d := by
  obtain ⟨-, ⟨rfl, -⟩ | ⟨rfl, -⟩⟩ := ofInt?_eq_some h
  · exact ⟨decimals_ne_nil _, fun u hu => .inr (exists_of_mem_decimals hu)⟩
  · refine ⟨List.cons_ne_nil _ _, fun u hu => ?_⟩
    rcases List.mem_cons.mp hu with rfl | hu
    · exact .inl rfl
    · exact .inr (exists_of_mem_decimals hu)

/-- What `str` writes `int` reads. -/
theorem int?_of_ofInt? {n : ℤ} {t : PyText} (h : ofInt? n = some t) : int? t = some n := by
  have hstrip : stripWhere intSpace t = t := by
    refine stripWhere_eq_self (fun u hu => ?_)
    rcases (ofInt?_chars h).2 u hu with rfl | ⟨d, hd, rfl⟩
    · decide
    · exact intSpace_digit d hd
  unfold int?
  rw [hstrip]
  obtain ⟨hlength, ⟨rfl, hn⟩ | ⟨rfl, hn⟩⟩ := ofInt?_eq_some h
  · have hread := readDigits_decimals hlength
    obtain ⟨u, digits, hcons⟩ := List.exists_cons_of_ne_nil (decimals_ne_nil n.natAbs)
    obtain ⟨d, hd, hu⟩ := exists_of_mem_decimals (n := n.natAbs) (u := u)
      (by rw [hcons]; exact List.mem_cons_self)
    rw [hcons] at hread ⊢
    split
    case h_1 heq =>
      have hhead := (List.cons.inj heq).1
      omega
    case h_2 heq =>
      have hhead := (List.cons.inj heq).1
      omega
    case h_3 =>
      rw [hread, Option.map_some, ← hn]
  · change (readDigits (decimals n.natAbs)).map _ = _
    rw [readDigits_decimals hlength, Option.map_some, ← hn]

/-! ## UTF-8 -/

theorem encode?_eq_some {t : PyText} (h : ∀ u ∈ t, PyValue.isScalar u = true) :
    encode? t = some ((t.map Char.ofNat).flatMap String.utf8EncodeChar) :=
  if_pos (List.all_eq_true.mpr h)

theorem encode?_append {t t' : PyText} {bytes bytes' : List UInt8} (h : encode? t = some bytes)
    (h' : encode? t' = some bytes') : encode? (t ++ t') = some (bytes ++ bytes') := by
  unfold encode? at h h' ⊢
  split_ifs at h h' with ht ht'
  cases h
  cases h'
  rw [List.all_append, ht, ht', if_pos (Bool.and_self true), List.map_append, List.flatMap_append]

def utf8 (s : String) : List UInt8 := s.toList.flatMap String.utf8EncodeChar

theorem utf8_append (s s' : String) : utf8 (s ++ s') = utf8 s ++ utf8 s' := by
  rw [utf8, String.toList_append, List.flatMap_append]
  rfl

theorem ofString_append (s s' : String) : ofString (s ++ s') = ofString s ++ ofString s' := by
  rw [ofString, String.toList_append, List.map_append]
  rfl

theorem encode?_ofString (s : String) : encode? (ofString s) = some (utf8 s) := by
  have hscalar : ∀ u ∈ ofString s, PyValue.isScalar u = true := by
    intro u hu
    obtain ⟨c, -, rfl⟩ := List.mem_map.mp hu
    exact PyValue.isScalar_toNat c
  have hchars : (ofString s).map Char.ofNat = s.toList := by
    rw [ofString, List.map_map]
    exact List.map_id'' Char.ofNat_toNat s.toList
  rw [encode?_eq_some hscalar, hchars]
  rfl

/-- UTF-8 gives different texts different bytes. -/
theorem encode?_inj {t t' : PyText} {bytes : List UInt8} (h : encode? t = some bytes)
    (h' : encode? t' = some bytes) : t = t' := by
  have hscalars {l : PyText} (hl : l.all PyValue.isScalar = true) :
      (l.map Char.ofNat).map Char.toNat = l := by
    rw [List.map_map]
    refine (List.map_congr_left (fun u hu => ?_)).trans (List.map_id l)
    have hu := List.all_eq_true.mp hl u hu
    simp only [PyValue.isScalar, Bool.or_eq_true, Bool.and_eq_true, decide_eq_true_eq] at hu
    have hvalid : u.isValidChar := by
      rcases hu with hlow | ⟨hlow, hhigh⟩
      · exact .inl hlow
      · exact .inr ⟨by omega, hhigh⟩
    rw [Function.comp_apply, Char.ofNat, dif_pos hvalid]
    rfl
  unfold encode? at h h'
  split_ifs at h h' with ht ht'
  have hbytes := (Option.some.inj h).trans (Option.some.inj h').symm
  have hchars : t.map Char.ofNat = t'.map Char.ofNat := by
    refine String.ofList_injective (String.toByteArray_inj.mp ?_)
    rw [String.toByteArray_ofList, String.toByteArray_ofList, List.utf8Encode, List.utf8Encode,
      hbytes]
  rw [← hscalars ht, hchars, hscalars ht']

/-- Lists up to the first occurrence of `a`, and after it. -/
theorem append_cons_inj {α : Type} {a : α} {x x' z z' : List α} (hx : a ∉ x) (hx' : a ∉ x')
    (h : x ++ a :: z = x' ++ a :: z') : x = x' ∧ z = z' := by
  rcases List.append_eq_append_iff.mp h with ⟨c, rfl, hc⟩ | ⟨c, rfl, hc⟩
  · cases c with
    | nil => exact ⟨(List.append_nil x).symm, (List.cons.inj hc).2⟩
    | cons b c =>
      rw [(List.cons.inj hc).1] at hx'
      exact absurd (List.mem_append_right _ List.mem_cons_self) hx'
  · cases c with
    | nil => exact ⟨List.append_nil x', (List.cons.inj hc).2.symm⟩
    | cons b c =>
      rw [(List.cons.inj hc).1] at hx
      exact absurd (List.mem_append_right _ List.mem_cons_self) hx

/-- Only the full stop has the byte of the full stop. -/
theorem dot_notMem_utf8EncodeChar {c : Char} (hc : c ≠ '.') :
    (46 : UInt8) ∉ String.utf8EncodeChar c := by
  have hne : c.val.toNat ≠ 46 := by
    intro h
    exact hc (Char.ext (UInt32.toNat_inj.mp h))
  have hbyte {n : ℕ} (h : (46 : UInt8) = UInt8.ofNat n) : n % 256 = 46 := by
    have hnat := congrArg UInt8.toNat h
    rw [UInt8.toNat_ofNat'] at hnat
    exact hnat.symm
  unfold String.utf8EncodeChar
  intro hmem
  dsimp only at hmem
  split_ifs at hmem <;> simp only [List.mem_cons, List.not_mem_nil, or_false] at hmem
  · have h := hbyte hmem
    omega
  · rcases hmem with h | h <;> have h := hbyte h <;> omega
  · rcases hmem with h | h | h <;> have h := hbyte h <;> omega
  · rcases hmem with h | h | h | h <;> have h := hbyte h <;> omega

/-- A text that `int` reads can be encoded, without the byte of the full stop. -/
theorem encode?_number {t : PyText} (h : ∀ u ∈ t, IntChar u) :
    ∃ bytes, encode? t = some bytes ∧ (46 : UInt8) ∉ bytes := by
  refine ⟨_, encode?_eq_some (fun u hu => (h u hu).scalar), fun hdot => ?_⟩
  obtain ⟨c, hc, hmem⟩ := List.mem_flatMap.mp hdot
  obtain ⟨u, hu, rfl⟩ := List.mem_map.mp hc
  refine dot_notMem_utf8EncodeChar (fun hchar => ?_) hmem
  rcases h u hu with hspace | hsign | hdigit
  · rw [isSpace, hchar] at hspace
    exact absurd hspace (by decide)
  · simp only [List.mem_cons, List.not_mem_nil, or_false] at hsign
    rcases hsign with rfl | rfl | rfl <;> exact absurd hchar (by decide)
  · rw [digitValue?, hchar] at hdigit
    exact absurd hdigit (by decide)

/-! ## Hexadecimal digests -/

theorem digitChar_inj : ∀ m < 16, ∀ n < 16, m.digitChar = n.digitChar → m = n := by
  decide +kernel

theorem hexChars_injective : Function.Injective hexChars := by
  intro bytes
  induction bytes with
  | nil =>
    rintro (_ | ⟨b, bytes⟩) h
    · rfl
    · cases h
  | cons b bytes ih =>
    rintro (_ | ⟨b', bytes'⟩) h
    · cases h
    · obtain ⟨hhigh, hrest⟩ := List.cons.inj h
      obtain ⟨hlow, hrest⟩ := List.cons.inj hrest
      have hb := b.toNat_lt
      have hb' := b'.toNat_lt
      have hhigh := digitChar_inj _ (by omega) _ (by omega) hhigh
      have hlow := digitChar_inj _ (by omega) _ (by omega) hlow
      rw [UInt8.toNat_inj.mp (by omega : b.toNat = b'.toNat), ih hrest]

theorem hexdigest_injective : Function.Injective hexdigest := by
  intro bytes bytes' h
  refine hexChars_injective (List.map_injective_iff.mpr (fun c c' hc => ?_) h)
  exact Char.ext (UInt32.toNat_inj.mp hc)

theorem hexdigest_ne_nil {digest : List UInt8} (h : digest ≠ []) : hexdigest digest ≠ [] := by
  intro hnil
  exact h (hexdigest_injective hnil)

def hexCodes : List ℕ := [48, 49, 50, 51, 52, 53, 54, 55, 56, 57, 97, 98, 99, 100, 101, 102]

theorem digitChar_mem_hexCodes : ∀ n < 16, n.digitChar.toNat ∈ hexCodes := by decide

theorem mem_hexdigest {digest : List UInt8} {u : ℕ} (h : u ∈ hexdigest digest) :
    u ∈ hexCodes := by
  obtain ⟨c, hc, rfl⟩ := List.mem_map.mp h
  obtain ⟨b, -, hdigit⟩ := List.mem_flatMap.mp hc
  have hb := b.toNat_lt
  simp only [List.mem_cons, List.not_mem_nil, or_false] at hdigit
  rcases hdigit with rfl | rfl
  · exact digitChar_mem_hexCodes _ (by omega)
  · exact digitChar_mem_hexCodes _ (by omega)

theorem isAscii_hexdigest (digest : List UInt8) : isAscii (hexdigest digest) = true := by
  have hall : ∀ u ∈ hexCodes, decide (u < 128) = true := by decide
  exact List.all_eq_true.mpr (fun u hu => hall u (mem_hexdigest hu))

end FastapiTemplate.PyText
