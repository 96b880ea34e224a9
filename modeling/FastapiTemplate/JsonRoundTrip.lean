import FastapiTemplate.JsonParser
import Mathlib.Data.List.TakeWhile

/-!
# JSON values are read back from their texts

First strings, by what one character contributes to the code units, then numbers, then
values. The number of steps that the parser may take is bounded by the length of the text.
-/

namespace FastapiTemplate.PyValue

variable {ascii : Bool}

/-! ## Strings -/

theorem hexValue_digitChar : ∀ d < 16, hexValue d.digitChar = some d := by
  decide

theorem hexUnit_hexText {u : ℕ} (hu : u < 65536) : hexUnit (u / 4096 % 16).digitChar
    (u / 256 % 16).digitChar (u / 16 % 16).digitChar (u % 16).digitChar = some u := by
  have hdigit (k : ℕ) : hexValue (k % 16).digitChar = some (k % 16) :=
    hexValue_digitChar _ (Nat.mod_lt _ (by omega))
  have hu' : ((u / 4096 % 16 * 16 + u / 256 % 16) * 16 + u / 16 % 16) * 16 + u % 16 = u := by
    omega
  simp only [hexUnit, hdigit, Option.bind_eq_bind, Option.bind_some, hu']
  rfl

theorem parseUnits_escapeUnit {u : ℕ} (hu : u < 65536) (rest : List Char) :
    parseUnits (escapeUnit u ++ rest) = (parseUnits rest).map (fun p => (u :: p.1, p.2)) := by
  simp only [escapeUnit, hexText, List.cons_append, List.nil_append]
  rw [parseUnits, hexUnit_hexText hu]
  cases parseUnits rest <;> rfl

def charUnits (ascii : Bool) (c : Char) : List ℕ := if ascii then utf16 c else [c.toNat]

theorem char_lt (c : Char) : c.toNat < 0x110000 ∧ ¬ (0xd800 ≤ c.toNat ∧ c.toNat < 0xe000) := by
  have hvalid := c.valid
  simp only [UInt32.isValidChar, Nat.isValidChar] at hvalid
  change c.val.toNat < 0x110000 ∧ ¬ (0xd800 ≤ c.val.toNat ∧ c.val.toNat < 0xe000)
  omega

theorem charUnits_of_lt {c : Char} (hc : c.toNat < 0x10000) : charUnits ascii c = [c.toNat] := by
  unfold charUnits utf16
  rw [if_pos hc, ite_self]

/-- A character that is escaped with a letter. -/
theorem parseUnits_letter {c d : Char} {u : ℕ} (hd : unescape d = some u) (hu : d ≠ 'u')
    (hc : c.toNat = u) (hlt : u < 0x10000) (rest : List Char) :
    parseUnits ('\\' :: d :: rest) =
      (parseUnits rest).map (fun p => (charUnits ascii c ++ p.1, p.2)) := by
  rw [charUnits_of_lt (by omega), hc]
  have hparse : parseUnits ('\\' :: d :: rest) = (do
      let u ← unescape d
      let p ← parseUnits rest
      pure (u :: p.1, p.2)) := by
    rw [parseUnits]
    intro a b c' d' rest' h
    exact absurd h hu
  rw [hparse, hd]
  cases parseUnits rest <;> rfl

theorem parseUnits_plain {c : Char} (hquote : c ≠ '"') (hbackslash : c ≠ '\\')
    (hc : 0x20 ≤ c.toNat) (rest : List Char) :
    parseUnits (c :: rest) = (parseUnits rest).map (fun p => (c.toNat :: p.1, p.2)) := by
  have hparse : parseUnits (c :: rest) = (do
      if c.toNat < 0x20 then none
      else
        let p ← parseUnits rest
        pure (c.toNat :: p.1, p.2)) := by
    rw [parseUnits.eq_def]
    split <;> simp_all
  rw [hparse, if_neg (by omega)]
  cases parseUnits rest <;> rfl

theorem parseUnits_utf16 (c : Char) (rest : List Char) :
    parseUnits ((utf16 c).flatMap escapeUnit ++ rest) =
      (parseUnits rest).map (fun p => (utf16 c ++ p.1, p.2)) := by
  have hc := (char_lt c).1
  unfold utf16
  by_cases hlt : c.toNat < 0x10000
  · rw [if_pos hlt]
    simp only [List.flatMap_cons, List.flatMap_nil, List.append_nil]
    exact parseUnits_escapeUnit hlt rest
  · rw [if_neg hlt]
    simp only [List.flatMap_cons, List.flatMap_nil, List.append_nil, List.append_assoc]
    rw [parseUnits_escapeUnit (by omega), parseUnits_escapeUnit (by omega)]
    cases parseUnits rest <;> rfl

theorem parseUnits_escapeChar (c : Char) (rest : List Char) :
    parseUnits (escapeChar ascii c ++ rest) =
      (parseUnits rest).map (fun p => (charUnits ascii c ++ p.1, p.2)) := by
  unfold escapeChar
  by_cases hquote : c = '"'
  · subst hquote
    exact parseUnits_letter rfl (by decide) rfl (by decide) rest
  rw [if_neg hquote]
  by_cases hbackslash : c = '\\'
  · subst hbackslash
    exact parseUnits_letter rfl (by decide) rfl (by decide) rest
  rw [if_neg hbackslash]
  by_cases hnewline : c = '\n'
  · subst hnewline
    exact parseUnits_letter rfl (by decide) rfl (by decide) rest
  rw [if_neg hnewline]
  by_cases hreturn : c = '\r'
  · subst hreturn
    exact parseUnits_letter rfl (by decide) rfl (by decide) rest
  rw [if_neg hreturn]
  by_cases htab : c = '\t'
  · subst htab
    exact parseUnits_letter rfl (by decide) rfl (by decide) rest
  rw [if_neg htab]
  by_cases hback : c.toNat = 8
  · rw [if_pos hback]
    exact parseUnits_letter rfl (by decide) hback (by decide) rest
  rw [if_neg hback]
  by_cases hfeed : c.toNat = 12
  · rw [if_pos hfeed]
    exact parseUnits_letter rfl (by decide) hfeed (by decide) rest
  rw [if_neg hfeed]
  by_cases hcontrol : c.toNat < 0x20
  · rw [if_pos hcontrol, charUnits_of_lt (by omega)]
    exact parseUnits_escapeUnit (by omega) rest
  rw [if_neg hcontrol]
  by_cases hescape : ascii = true ∧ 0x7f ≤ c.toNat
  · rw [if_pos hescape, parseUnits_utf16, charUnits, if_pos hescape.1]
  · rw [if_neg hescape]
    have hunits : charUnits ascii c = [c.toNat] := by
      cases ascii with
      | false => rfl
      | true => exact charUnits_of_lt (by simp only [true_and] at hescape; omega)
    rw [hunits]
    exact parseUnits_plain hquote hbackslash (by omega) rest

theorem parseUnits_string (cs rest : List Char) :
    parseUnits (cs.flatMap (escapeChar ascii) ++ '"' :: rest) =
      some (cs.flatMap (charUnits ascii), rest) := by
  induction cs with
  | nil => rfl
  | cons c cs ih =>
    rw [List.flatMap_cons, List.append_assoc, parseUnits_escapeChar, ih]
    rfl

theorem isScalar_toNat (c : Char) : isScalar c.toNat = true := by
  have hc := char_lt c
  simp only [isScalar, Bool.or_eq_true, Bool.and_eq_true, decide_eq_true_eq]
  omega

theorem joinUnits_scalar (c : Char) (us : List ℕ) :
    joinUnits (c.toNat :: us) = (joinUnits us).map (c :: ·) := by
  have hscalar := isScalar_toNat c
  cases us with
  | nil =>
    change joinUnits [c.toNat] = some [c]
    rw [joinUnits, if_pos hscalar, Char.ofNat_toNat]
  | cons v us =>
    have hhigh : isHigh c.toNat = false := by
      have hc := char_lt c
      simp only [isHigh, Bool.and_eq_false_iff, decide_eq_false_iff_not]
      omega
    rw [joinUnits, hhigh, if_neg (by simp), if_pos hscalar, Char.ofNat_toNat]

theorem joinUnits_charUnits (c : Char) (us : List ℕ) :
    joinUnits (charUnits ascii c ++ us) = (joinUnits us).map (c :: ·) := by
  by_cases hlt : c.toNat < 0x10000
  · rw [charUnits_of_lt hlt]
    exact joinUnits_scalar c us
  · unfold charUnits
    cases ascii with
    | false => exact joinUnits_scalar c us
    | true =>
      rw [if_pos rfl, utf16, if_neg hlt]
      have hc := (char_lt c).1
      have hhigh : isHigh (0xd800 + (c.toNat - 0x10000) / 1024) = true := by
        simp only [isHigh, Bool.and_eq_true, decide_eq_true_eq]
        omega
      have hlow : isLow (0xdc00 + (c.toNat - 0x10000) % 1024) = true := by
        simp only [isLow, Bool.and_eq_true, decide_eq_true_eq]
        omega
      have hjoin : 0x10000 + (0xd800 + (c.toNat - 0x10000) / 1024 - 0xd800) * 1024 +
          (0xdc00 + (c.toNat - 0x10000) % 1024 - 0xdc00) = c.toNat := by
        omega
      simp only [List.cons_append, List.nil_append]
      rw [joinUnits, hhigh, hlow, Bool.and_self, if_pos rfl, hjoin, Char.ofNat_toNat]

theorem joinUnits_string (cs : List Char) :
    joinUnits (cs.flatMap (charUnits ascii)) = some cs := by
  induction cs with
  | nil => rfl
  | cons c cs ih =>
    rw [List.flatMap_cons, joinUnits_charUnits, ih]
    rfl

theorem parseString_text (s : String) (rest : List Char) :
    parseString (s.toList.flatMap (escapeChar ascii) ++ '"' :: rest) = some (s, rest) := by
  unfold parseString
  rw [parseUnits_string]
  simp only [Option.bind_eq_bind, Option.bind_some, joinUnits_string, String.ofList_toList]
  rfl

/-! ## Numbers -/

/-- The text goes on with something that is not part of a number. -/
def NumberEnds (rest : List Char) : Prop := ∀ c ∈ rest.head?, isNumberChar c = false

theorem isNumberChar_of_isDigit {c : Char} (h : c.isDigit = true) : isNumberChar c = true := by
  simp [isNumberChar, h]

theorem takeWhile_number {t rest : List Char} (ht : ∀ c ∈ t, isNumberChar c = true)
    (hrest : NumberEnds rest) : (t ++ rest).takeWhile isNumberChar = t ∧
      (t ++ rest).dropWhile isNumberChar = rest := by
  have hends : rest.takeWhile isNumberChar = [] ∧ rest.dropWhile isNumberChar = rest := by
    cases rest with
    | nil => exact ⟨rfl, rfl⟩
    | cons c rest =>
      have hc : isNumberChar c = false := hrest c rfl
      rw [List.takeWhile_cons, List.dropWhile_cons, hc]
      exact ⟨rfl, rfl⟩
  rw [List.takeWhile_append_of_pos ht, List.dropWhile_append_of_pos ht, hends.1, hends.2,
    List.append_nil]
  exact ⟨rfl, rfl⟩

theorem parseNumber_int {t rest : List Char} (ht : ∀ c ∈ t, isNumberChar c = true)
    (hint : isIntText t = true) (hrest : NumberEnds rest) :
    parseNumber (t ++ rest) = some (.int (intOf t), rest) := by
  unfold parseNumber
  rw [(takeWhile_number ht hrest).1, (takeWhile_number ht hrest).2, if_pos hint]

/-- Only zero begins with the digit zero. -/
theorem toDigits_head? (n : ℕ) (hn : n ≠ 0) : (Nat.toDigits 10 n).head? ≠ some '0' := by
  induction n using Nat.strongRecOn with
  | ind n ih =>
    by_cases hlt : n < 10
    · rw [Nat.toDigits_of_lt_base hlt, List.head?_cons, Ne, Option.some.injEq]
      exact mt Nat.digitChar_eq_zero.mp hn
    · rw [Nat.toDigits_of_base_le (by omega) (by omega),
        List.head?_append_of_ne_nil _ Nat.toDigits_ne_nil]
      exact ih (n / 10) (by omega) (by omega)

theorem toDigits_isWholeText (n : ℕ) : isWholeText (Nat.toDigits 10 n) = true := by
  have hdigits : (Nat.toDigits 10 n).all Char.isDigit = true :=
    List.all_eq_true.mpr (fun c hc => Nat.isDigit_of_mem_toDigits (by omega) (by omega) hc)
  unfold isWholeText
  rw [hdigits]
  by_cases hn : n = 0
  · subst hn
    rfl
  · simp [Nat.toDigits_ne_nil, toDigits_head? n hn]

theorem isDigit_of_mem {n : ℕ} {c : Char} (hc : c ∈ Nat.toDigits 10 n) : c.isDigit = true :=
  Nat.isDigit_of_mem_toDigits (by omega) (by omega) hc

/-- Digits do not begin with a sign. -/
theorem toDigits_sign (n : ℕ) : dropSign (Nat.toDigits 10 n) = Nat.toDigits 10 n ∧
    intOf (Nat.toDigits 10 n) = (n : ℤ) := by
  have hvalue : Nat.ofDigitChars 10 (Nat.toDigits 10 n) 0 = n := Nat.ofDigitChars_ten_toDigits
  cases hds : Nat.toDigits 10 n with
  | nil => exact absurd hds Nat.toDigits_ne_nil
  | cons c ds =>
    have hc : c ≠ '-' := by
      rintro rfl
      have hdigit := isDigit_of_mem (n := n) (hds ▸ List.mem_cons_self)
      exact absurd hdigit (by decide)
    rw [hds] at hvalue
    constructor
    · simp [dropSign, hc]
    · simp [intOf, hc, hvalue]

theorem intText_spec (n : ℤ) : (∀ c ∈ intText n, isNumberChar c = true) ∧
    isIntText (intText n) = true ∧ intOf (intText n) = n := by
  cases n with
  | ofNat n =>
    have hsign := toDigits_sign n
    refine ⟨fun c hc => isNumberChar_of_isDigit (isDigit_of_mem hc), ?_, hsign.2⟩
    rw [isIntText, intText, hsign.1]
    exact toDigits_isWholeText n
  | negSucc n =>
    refine ⟨?_, toDigits_isWholeText (n + 1), ?_⟩
    · intro c hc
      rcases List.mem_cons.mp hc with rfl | hc
      · rfl
      · exact isNumberChar_of_isDigit (isDigit_of_mem hc)
    · change -(Nat.ofDigitChars 10 (Nat.toDigits 10 (n + 1)) 0 : ℤ) = _
      rw [Nat.ofDigitChars_ten_toDigits]
      rfl

theorem floatText_spec (f : FloatText) : (∀ c ∈ f.text, isNumberChar c = true) ∧
    isIntText f.text = false := by
  have hvalid := f.valid
  simp only [isFloatText, Bool.and_eq_true, decide_eq_true_eq] at hvalid
  obtain ⟨⟨⟨hchars, -⟩, hrest⟩, -⟩ := hvalid
  refine ⟨List.all_eq_true.mp hchars, ?_⟩
  rw [isIntText, isWholeText]
  have hall : (dropSign f.text).all Char.isDigit = false := by
    by_contra hdigits
    have hdigits' : ∀ c ∈ dropSign f.text, c.isDigit = true := by simpa using hdigits
    exact hrest (List.dropWhile_eq_nil_iff.mpr hdigits')
  rw [hall, Bool.false_and, Bool.false_and]

theorem parseNumber_float (f : FloatText) {rest : List Char} (hrest : NumberEnds rest) :
    parseNumber (f.text ++ rest) = some (.float f, rest) := by
  obtain ⟨hchars, hint⟩ := floatText_spec f
  unfold parseNumber
  rw [(takeWhile_number hchars hrest).1, (takeWhile_number hchars hrest).2, if_neg (by simp [hint]),
    dif_pos f.valid]

/-- A text that begins like a number is read as one. -/
theorem parseValue_number {t : List Char} (ht : ∀ c ∈ t, isNumberChar c = true) (hne : t ≠ [])
    (n : ℕ) (rest : List Char) : parseValue (n + 1) (t ++ rest) = parseNumber (t ++ rest) := by
  cases t with
  | nil => exact absurd rfl hne
  | cons c t =>
    have hc := ht c List.mem_cons_self
    rw [List.cons_append, parseValue]
    -- no other branch begins with a character of a number
    all_goals
      intro _ heq
      rw [(List.cons.inj heq).1] at hc
      exact absurd hc (by decide)

/-! ## Values -/

theorem skipSpace_of_ne {c : Char} (hc : isSpace c = false) (cs : List Char) :
    skipSpace (c :: cs) = c :: cs := by
  rw [skipSpace, List.dropWhile_cons, hc]
  rfl

theorem parseKey_text (key : String) (rest : List Char) :
    parseKey (stringText ascii key ++ ':' :: rest) = some (key, skipSpace rest) := by
  simp only [stringText, List.cons_append, List.append_assoc, List.nil_append]
  rw [parseKey, parseString_text]
  rfl

theorem intText_ne_nil (n : ℤ) : intText n ≠ [] := by
  cases n with
  | ofNat n => exact Nat.toDigits_ne_nil
  | negSucc n => exact List.cons_ne_nil _ _

theorem floatText_ne_nil (f : FloatText) : f.text ≠ [] := by
  intro hnil
  have hvalid := f.valid
  rw [hnil] at hvalid
  exact absurd hvalid (by decide)

mutual

def gappedText (ascii : Bool) (gap : List Char) : PyValue → List Char
  | .list (v :: vs) => '[' :: gappedText ascii gap v ++ gappedElements ascii gap vs
  | .dict ((k, v) :: items) =>
    '{' :: stringText ascii k ++ ':' :: (gap ++ gappedText ascii gap v) ++
      gappedItems ascii gap items
  | v => text ascii v

def gappedElements (ascii : Bool) (gap : List Char) : List PyValue → List Char
  | [] => [']']
  | v :: vs => ',' :: (gap ++ gappedText ascii gap v) ++ gappedElements ascii gap vs

def gappedItems (ascii : Bool) (gap : List Char) : List (String × PyValue) → List Char
  | [] => ['}']
  | (k, v) :: items =>
    ',' :: (gap ++ stringText ascii k) ++ ':' :: (gap ++ gappedText ascii gap v) ++
      gappedItems ascii gap items

end

mutual

theorem gappedText_space : ∀ v : PyValue, v.gappedText ascii [' '] = v.text ascii
  | .list (v :: vs) => by
    rw [gappedText, text, gappedText_space v, gappedElements_space vs]
  | .dict ((k, v) :: items) => by
    rw [gappedText, text, gappedText_space v, gappedItems_space items]
    rfl
  | .null | .bool _ | .int _ | .float _ | .str _ | .list [] | .dict [] | .set _ | .other _ => rfl

theorem gappedElements_space : ∀ vs : List PyValue,
    gappedElements ascii [' '] vs = elementsText ascii vs
  | [] => rfl
  | v :: vs => by
    rw [gappedElements, elementsText, gappedText_space v, gappedElements_space vs]
    rfl

theorem gappedItems_space : ∀ items : List (String × PyValue),
    gappedItems ascii [' '] items = itemsText ascii items
  | [] => rfl
  | (k, v) :: items => by
    rw [gappedItems, itemsText, gappedText_space v, gappedItems_space items]
    rfl

end

/-- The text begins with a character that is neither a space nor the end of a list. -/
def BeginsValue (t : List Char) : Prop := ∃ c cs, t = c :: cs ∧ isSpace c = false ∧ c ≠ ']'

theorem beginsValue_number {t : List Char} (ht : ∀ c ∈ t, isNumberChar c = true) (hne : t ≠ []) :
    BeginsValue t := by
  cases t with
  | nil => exact absurd rfl hne
  | cons c cs =>
    have hc := ht c List.mem_cons_self
    refine ⟨c, cs, rfl, ?_, ?_⟩
    · by_contra hspace
      simp only [isSpace, Bool.not_eq_false, Bool.or_eq_true, decide_eq_true_eq] at hspace
      rcases hspace with ((rfl | rfl) | rfl) | rfl <;> exact absurd hc (by decide)
    · rintro rfl
      exact absurd hc (by decide)

theorem beginsValue_text (gap : List Char) (v : PyValue) (hv : v.jsonable = true) :
    BeginsValue (v.gappedText ascii gap) := by
  cases v with
  | null => exact ⟨_, _, rfl, by decide, by decide⟩
  | bool b => cases b <;> exact ⟨_, _, rfl, by decide, by decide⟩
  | int n => exact beginsValue_number (intText_spec n).1 (intText_ne_nil n)
  | float f => exact beginsValue_number (floatText_spec f).1 (floatText_ne_nil f)
  | str s => exact ⟨_, _, rfl, by decide, by decide⟩
  | list items => cases items <;> exact ⟨_, _, rfl, by decide, by decide⟩
  | dict items => cases items <;> exact ⟨_, _, rfl, by decide, by decide⟩
  | set items => cases hv
  | other text => cases hv

theorem BeginsValue.skipSpace {t : List Char} (h : BeginsValue t) (rest : List Char) :
    skipSpace (t ++ rest) = t ++ rest := by
  obtain ⟨c, cs, rfl, hspace, -⟩ := h
  exact skipSpace_of_ne hspace _

theorem numberEnds_cons {c : Char} (hc : isNumberChar c = false) (cs : List Char) :
    NumberEnds (c :: cs) := by
  intro d hd
  cases hd
  exact hc

theorem numberEnds_elements (gap : List Char) (vs : List PyValue) (rest : List Char) :
    NumberEnds (gappedElements ascii gap vs ++ rest) := by
  cases vs <;> exact numberEnds_cons (by decide) _

theorem numberEnds_items (gap : List Char) (items : List (String × PyValue)) (rest : List Char) :
    NumberEnds (gappedItems ascii gap items ++ rest) := by
  cases items <;> exact numberEnds_cons (by decide) _

/-- A list that is not empty is read from its first element on. -/
theorem parseValue_list {t : List Char} (h : BeginsValue t) (n : ℕ) (rest : List Char) :
    parseValue (n + 1) ('[' :: (t ++ rest)) = (do
      let (v, rest) ← parseValue n (t ++ rest)
      let (vs, rest) ← parseElements n rest
      pure (.list (v :: vs), rest)) := by
  rw [parseValue, h.skipSpace]
  obtain ⟨c, cs, rfl, -, hc⟩ := h
  rw [List.cons_append]
  split
  · next heq => exact absurd (List.cons.inj heq).1 hc
  · rfl

/-- A list goes on after a comma. -/
theorem parseElements_cons (n : ℕ) (rest : List Char) :
    parseElements (n + 1) (',' :: rest) = (do
      let (v, rest) ← parseValue n (skipSpace rest)
      let (vs, rest) ← parseElements n rest
      pure (v :: vs, rest)) := rfl

theorem parseValue_dict (n : ℕ) (key : String) (rest : List Char) :
    parseValue (n + 1) ('{' :: (stringText ascii key ++ ':' :: rest)) = (do
      let (v, rest) ← parseValue n (skipSpace rest)
      let (items, rest) ← parseItems n rest
      pure (.dict (dictOf ((key, v) :: items)), rest)) := by
  have hkey := @parseKey_text ascii key rest
  simp only [stringText, List.cons_append] at hkey ⊢
  rw [parseValue, skipSpace_of_ne (by decide)]
  split
  · next heq => exact absurd (List.cons.inj heq).1 (by decide)
  · rw [hkey]
    rfl

section gap
variable {gap : List Char} (hgap : ∀ c ∈ gap, isSpace c = true)

include hgap

theorem skipSpace_gap (rest : List Char) : skipSpace (gap ++ rest) = skipSpace rest :=
  List.dropWhile_append_of_pos hgap

theorem parseItems_cons (n : ℕ) (key : String) (rest : List Char) :
    parseItems (n + 1) (',' :: (gap ++ (stringText ascii key ++ ':' :: rest))) = (do
      let (v, rest) ← parseValue n (skipSpace rest)
      let (items, rest) ← parseItems n rest
      pure ((key, v) :: items, rest)) := by
  have hkey := @parseKey_text ascii key rest
  have hspace : skipSpace (stringText ascii key ++ ':' :: rest) =
      stringText ascii key ++ ':' :: rest := rfl
  rw [parseItems, skipSpace_of_ne (by decide)]
  simp only [skipSpace_gap hgap, hspace, hkey, Option.bind_eq_bind, Option.bind_some]

mutual

theorem parseValue_text : ∀ (v : PyValue) (n : ℕ) (rest : List Char), v.jsonable = true →
    v.keysApart = true → (v.gappedText ascii gap).length ≤ n → NumberEnds rest →
    parseValue n (v.gappedText ascii gap ++ rest) = some (v, rest)
  | v, 0, rest, hv, _, hn, _ => by
    obtain ⟨c, cs, htext, -⟩ := @beginsValue_text ascii gap v hv
    rw [htext] at hn
    exact absurd hn (Nat.not_succ_le_zero _)
  | .null, n + 1, rest, _, _, _, _ => rfl
  | .bool true, n + 1, rest, _, _, _, _ => rfl
  | .bool false, n + 1, rest, _, _, _, _ => rfl
  | .int k, n + 1, rest, _, _, _, hrest => by
    obtain ⟨hchars, hint, hvalue⟩ := intText_spec k
    change parseValue (n + 1) (intText k ++ rest) = _
    rw [parseValue_number hchars (intText_ne_nil k), parseNumber_int hchars hint hrest, hvalue]
  | .float f, n + 1, rest, _, _, _, hrest => by
    change parseValue (n + 1) (f.text ++ rest) = _
    rw [parseValue_number (floatText_spec f).1 (floatText_ne_nil f), parseNumber_float f hrest]
  | .str s, n + 1, rest, _, _, _, _ => by
    change parseValue (n + 1) (stringText ascii s ++ rest) = _
    simp only [stringText, List.cons_append, List.append_assoc, List.nil_append]
    rw [parseValue, parseString_text]
    rfl
  | .list [], n + 1, rest, _, _, _, _ => rfl
  | .list (v :: vs), n + 1, rest, hv, hkeys, hn, _ => by
    simp only [jsonable, jsonableElements, Bool.and_eq_true] at hv
    simp only [keysApart, keysApartElements, Bool.and_eq_true] at hkeys
    simp only [gappedText, List.length_cons, List.length_append, List.cons_append] at hn
    have hvalue := parseValue_text v n (gappedElements ascii gap vs ++ rest) hv.1 hkeys.1 (by omega)
      (numberEnds_elements gap vs rest)
    have helements := parseElements_text vs n rest hv.2 hkeys.2 (by omega)
    simp only [gappedText, List.cons_append, List.append_assoc]
    rw [parseValue_list (beginsValue_text gap v hv.1), hvalue]
    simp only [Option.bind_eq_bind, Option.bind_some, helements]
    rfl
  | .dict [], n + 1, rest, _, _, _, _ => rfl
  | .dict ((k, v) :: items), n + 1, rest, hv, hkeys, hn, _ => by
    simp only [jsonable, jsonableItems, Bool.and_eq_true] at hv
    simp only [keysApart, keysApartItems, Bool.and_eq_true, decide_eq_true_eq] at hkeys
    simp only [gappedText, List.length_cons, List.length_append, List.cons_append] at hn
    have hvalue := parseValue_text v n (gappedItems ascii gap items ++ rest) hv.1 hkeys.2.1
      (by omega) (numberEnds_items gap items rest)
    have hitems := parseItems_text items n rest hv.2 hkeys.2.2 (by omega)
    simp only [gappedText, List.cons_append, List.append_assoc]
    rw [parseValue_dict, skipSpace_gap hgap, (beginsValue_text gap v hv.1).skipSpace, hvalue]
    simp only [Option.bind_eq_bind, Option.bind_some, hitems, dictOf_of_nodup hkeys.1]
    rfl
  | .set items, n + 1, rest, hv, _, _, _ => by cases hv
  | .other s, n + 1, rest, hv, _, _, _ => by cases hv

theorem parseElements_text : ∀ (vs : List PyValue) (n : ℕ) (rest : List Char),
    jsonableElements vs = true → keysApartElements vs = true →
    (gappedElements ascii gap vs).length ≤ n →
    parseElements n (gappedElements ascii gap vs ++ rest) = some (vs, rest)
  | [], 0, rest, _, _, hn => by cases hn
  | [], n + 1, rest, _, _, _ => rfl
  | v :: vs, 0, rest, _, _, hn => by cases hn
  | v :: vs, n + 1, rest, hv, hkeys, hn => by
    simp only [jsonableElements, Bool.and_eq_true] at hv
    simp only [keysApartElements, Bool.and_eq_true] at hkeys
    simp only [gappedElements, List.length_cons, List.length_append, List.cons_append] at hn
    have hvalue := parseValue_text v n (gappedElements ascii gap vs ++ rest) hv.1 hkeys.1 (by omega)
      (numberEnds_elements gap vs rest)
    have helements := parseElements_text vs n rest hv.2 hkeys.2 (by omega)
    simp only [gappedElements, List.cons_append, List.append_assoc]
    rw [parseElements_cons, skipSpace_gap hgap, (beginsValue_text gap v hv.1).skipSpace, hvalue]
    simp only [Option.bind_eq_bind, Option.bind_some, helements]
    rfl

theorem parseItems_text : ∀ (items : List (String × PyValue)) (n : ℕ) (rest : List Char),
    jsonableItems items = true → keysApartItems items = true →
    (gappedItems ascii gap items).length ≤ n →
    parseItems n (gappedItems ascii gap items ++ rest) = some (items, rest)
  | [], 0, rest, _, _, hn => by cases hn
  | [], n + 1, rest, _, _, _ => rfl
  | (k, v) :: items, 0, rest, _, _, hn => by cases hn
  | (k, v) :: items, n + 1, rest, hv, hkeys, hn => by
    simp only [jsonableItems, Bool.and_eq_true] at hv
    simp only [keysApartItems, Bool.and_eq_true] at hkeys
    simp only [gappedItems, List.length_cons, List.length_append, List.cons_append] at hn
    have hvalue := parseValue_text v n (gappedItems ascii gap items ++ rest) hv.1 hkeys.1 (by omega)
      (numberEnds_items gap items rest)
    have hitems := parseItems_text items n rest hv.2 hkeys.2 (by omega)
    simp only [gappedItems, List.cons_append, List.append_assoc]
    rw [parseItems_cons hgap, skipSpace_gap hgap, (beginsValue_text gap v hv.1).skipSpace, hvalue]
    simp only [Option.bind_eq_bind, Option.bind_some, hitems]
    rfl

end

/-- `json.loads` reads the text of a JSON value, with spaces after its commas and colons or none. -/
theorem loads_gappedText {v : PyValue} (hv : v.IsJson) :
    loads (String.ofList (v.gappedText ascii gap)) = some v := by
  have hspace := (@beginsValue_text ascii gap v hv.1).skipSpace []
  have hvalue := @parseValue_text ascii gap hgap v _ [] hv.1 hv.2 (Nat.le_refl _)
    (by intro c hc; cases hc)
  rw [List.append_nil] at hspace hvalue
  unfold loads
  rw [String.toList_ofList, hspace, hvalue]
  rfl

end gap

theorem loads_text {v : PyValue} (hv : v.IsJson) : loads (String.ofList (v.text ascii)) = some v := by
  rw [← gappedText_space]
  exact loads_gappedText (List.forall_mem_singleton.mpr rfl) hv

/-- What `json.dumps` has written `json.loads` reads back. -/
theorem loads_of_dumps {v : PyValue} (hv : v.IsJson) : ∃ s, v.dumps = some s ∧ loads s = some v := by
  refine ⟨String.ofList (v.text true), ?_, loads_text hv⟩
  rw [dumps, if_pos hv.1]

end FastapiTemplate.PyValue
