import FastapiTemplate.JsonRoundTrip

/-!
# Indented JSON texts

What `json.dumps` writes with an indentation: each element and each item has a line of its own.
`json.loads` reads it as it reads the text without.
-/

namespace FastapiTemplate.PyValue

variable (indent : ℕ)

def lineBreak (level : ℕ) : List Char := '\n' :: List.replicate (indent * level) ' '

mutual

def layoutText (level : ℕ) : PyValue → List Char
  | .list (v :: vs) =>
    '[' :: lineBreak indent (level + 1) ++ layoutText (level + 1) v ++ layoutElements level vs
  | .dict ((k, v) :: items) =>
    '{' :: lineBreak indent (level + 1) ++ stringText true k ++ ':' :: ' ' ::
      layoutText (level + 1) v ++ layoutItems level items
  | v => text true v

/-- The elements after the first one of a list at this level, and the end of the list. -/
def layoutElements (level : ℕ) : List PyValue → List Char
  | [] => lineBreak indent level ++ [']']
  | v :: vs =>
    ',' :: lineBreak indent (level + 1) ++ layoutText (level + 1) v ++ layoutElements level vs

def layoutItems (level : ℕ) : List (String × PyValue) → List Char
  | [] => lineBreak indent level ++ ['}']
  | (k, v) :: items =>
    ',' :: lineBreak indent (level + 1) ++ stringText true k ++ ':' :: ' ' ::
      layoutText (level + 1) v ++ layoutItems level items

end

def dumpsIndented (v : PyValue) : Option String :=
  if v.jsonable then some (String.ofList (v.layoutText indent 0)) else none

/-! ## Reading -/

section reading
variable {indent}

theorem lineBreak_space (level : ℕ) : ∀ c ∈ lineBreak indent level, isSpace c = true := by
  rw [lineBreak, List.forall_mem_cons]
  refine ⟨rfl, fun c hc => ?_⟩
  rw [List.eq_of_mem_replicate hc]
  rfl

theorem beginsValue_layoutText (level : ℕ) (v : PyValue) (hv : v.jsonable = true) :
    BeginsValue (v.layoutText indent level) := by
  have htext := @beginsValue_text true [] v hv
  cases v with
  | list items =>
    cases items with
    | nil => exact htext
    | cons v vs => exact ⟨_, _, rfl, rfl, by decide⟩
  | dict items =>
    cases items with
    | nil => exact htext
    | cons kv items => exact ⟨_, _, rfl, rfl, by decide⟩
  | _ => exact htext

theorem numberEnds_layoutElements (level : ℕ) (vs : List PyValue) (rest : List Char) :
    NumberEnds (layoutElements indent level vs ++ rest) := by
  cases vs <;> exact numberEnds_cons rfl _

theorem numberEnds_layoutItems (level : ℕ) (items : List (String × PyValue)) (rest : List Char) :
    NumberEnds (layoutItems indent level items ++ rest) := by
  cases items <;> exact numberEnds_cons rfl _

section gap
variable {gap : List Char} (hgap : ∀ c ∈ gap, isSpace c = true) (n : ℕ) (rest : List Char)
include hgap

theorem parseValue_list_gap :
    parseValue (n + 1) ('[' :: (gap ++ rest)) = parseValue (n + 1) ('[' :: rest) := by
  rw [parseValue, parseValue, skipSpace_gap hgap]

theorem parseValue_dict_gap :
    parseValue (n + 1) ('{' :: (gap ++ rest)) = parseValue (n + 1) ('{' :: rest) := by
  rw [parseValue, parseValue, skipSpace_gap hgap]

theorem parseElements_gap : parseElements (n + 1) (gap ++ rest) = parseElements (n + 1) rest := by
  rw [parseElements, parseElements, skipSpace_gap hgap]

theorem parseItems_gap : parseItems (n + 1) (gap ++ rest) = parseItems (n + 1) rest := by
  rw [parseItems, parseItems, skipSpace_gap hgap]

end gap

mutual

theorem parseValue_layoutText : ∀ (v : PyValue) (level n : ℕ) (rest : List Char),
    v.jsonable = true → v.keysApart = true → (v.layoutText indent level).length ≤ n →
    NumberEnds rest → parseValue n (v.layoutText indent level ++ rest) = some (v, rest)
  | .list (v :: vs), level, n + 1, rest, hv, hkeys, hn, _ => by
    simp only [jsonable, jsonableElements, Bool.and_eq_true] at hv
    simp only [keysApart, keysApartElements, Bool.and_eq_true] at hkeys
    simp only [layoutText, List.length_cons, List.length_append, List.cons_append] at hn
    have hvalue := parseValue_layoutText v (level + 1) n (layoutElements indent level vs ++ rest)
      hv.1 hkeys.1 (by omega) (numberEnds_layoutElements level vs rest)
    have helements := parseElements_layoutText vs level n rest hv.2 hkeys.2 (by omega)
    simp only [layoutText, List.cons_append, List.append_assoc]
    rw [parseValue_list_gap (lineBreak_space _),
      parseValue_list (beginsValue_layoutText (level + 1) v hv.1), hvalue]
    simp only [Option.bind_eq_bind, Option.bind_some, helements]
    rfl
  | .dict ((k, v) :: items), level, n + 1, rest, hv, hkeys, hn, _ => by
    simp only [jsonable, jsonableItems, Bool.and_eq_true] at hv
    simp only [keysApart, keysApartItems, Bool.and_eq_true, decide_eq_true_eq] at hkeys
    simp only [layoutText, List.length_cons, List.length_append, List.cons_append] at hn
    have hvalue := parseValue_layoutText v (level + 1) n (layoutItems indent level items ++ rest)
      hv.1 hkeys.2.1 (by omega) (numberEnds_layoutItems level items rest)
    have hitems := parseItems_layoutText items level n rest hv.2 hkeys.2.2 (by omega)
    have hspace (t : List Char) : skipSpace (' ' :: t) = skipSpace t := rfl
    simp only [layoutText, List.cons_append, List.append_assoc]
    rw [parseValue_dict_gap (lineBreak_space _), parseValue_dict, hspace,
      (beginsValue_layoutText (level + 1) v hv.1).skipSpace, hvalue]
    simp only [Option.bind_eq_bind, Option.bind_some, hitems, dictOf_of_nodup hkeys.1]
    rfl
  | .null, _, n, rest, hv, hkeys, hn, hrest
  | .bool true, _, n, rest, hv, hkeys, hn, hrest
  | .bool false, _, n, rest, hv, hkeys, hn, hrest
  | .int _, _, n, rest, hv, hkeys, hn, hrest
  | .float _, _, n, rest, hv, hkeys, hn, hrest
  | .str _, _, n, rest, hv, hkeys, hn, hrest
  | .list [], _, n, rest, hv, hkeys, hn, hrest
  | .dict [], _, n, rest, hv, hkeys, hn, hrest =>
    @parseValue_text true [] (List.forall_mem_nil _) _ n rest hv hkeys hn hrest
  | .list (_ :: _), _, 0, _, _, _, hn, _ => by cases hn
  | .dict (_ :: _), _, 0, _, _, _, hn, _ => by cases hn
  | .set _, _, _, _, hv, _, _, _ => by cases hv
  | .other _, _, _, _, hv, _, _, _ => by cases hv

theorem parseElements_layoutText : ∀ (vs : List PyValue) (level n : ℕ) (rest : List Char),
    jsonableElements vs = true → keysApartElements vs = true →
    (layoutElements indent level vs).length ≤ n →
    parseElements n (layoutElements indent level vs ++ rest) = some (vs, rest)
  | [], level, 0, rest, _, _, hn => by cases hn
  | [], level, n + 1, rest, _, _, _ => by
    rw [layoutElements, List.append_assoc, parseElements_gap (lineBreak_space level)]
    rfl
  | v :: vs, level, 0, rest, _, _, hn => by cases hn
  | v :: vs, level, n + 1, rest, hv, hkeys, hn => by
    simp only [jsonableElements, Bool.and_eq_true] at hv
    simp only [keysApartElements, Bool.and_eq_true] at hkeys
    simp only [layoutElements, List.length_cons, List.length_append, List.cons_append] at hn
    have hvalue := parseValue_layoutText v (level + 1) n
      (layoutElements indent level vs ++ rest) hv.1 hkeys.1 (by omega)
      (numberEnds_layoutElements level vs rest)
    have helements := parseElements_layoutText vs level n rest hv.2 hkeys.2 (by omega)
    simp only [layoutElements, List.cons_append, List.append_assoc]
    rw [parseElements_cons, skipSpace_gap (lineBreak_space _),
      (beginsValue_layoutText (level + 1) v hv.1).skipSpace, hvalue]
    simp only [Option.bind_eq_bind, Option.bind_some, helements]
    rfl

theorem parseItems_layoutText : ∀ (items : List (String × PyValue)) (level n : ℕ)
    (rest : List Char), jsonableItems items = true → keysApartItems items = true →
    (layoutItems indent level items).length ≤ n →
    parseItems n (layoutItems indent level items ++ rest) = some (items, rest)
  | [], level, 0, rest, _, _, hn => by cases hn
  | [], level, n + 1, rest, _, _, _ => by
    rw [layoutItems, List.append_assoc, parseItems_gap (lineBreak_space level)]
    rfl
  | (k, v) :: items, level, 0, rest, _, _, hn => by cases hn
  | (k, v) :: items, level, n + 1, rest, hv, hkeys, hn => by
    simp only [jsonableItems, Bool.and_eq_true] at hv
    simp only [keysApartItems, Bool.and_eq_true] at hkeys
    simp only [layoutItems, List.length_cons, List.length_append, List.cons_append] at hn
    have hvalue := parseValue_layoutText v (level + 1) n
      (layoutItems indent level items ++ rest) hv.1 hkeys.1 (by omega)
      (numberEnds_layoutItems level items rest)
    have hitems := parseItems_layoutText items level n rest hv.2 hkeys.2 (by omega)
    have hspace (t : List Char) : skipSpace (' ' :: t) = skipSpace t := rfl
    simp only [layoutItems, List.cons_append, List.append_assoc]
    rw [parseItems_cons (lineBreak_space _), hspace,
      (beginsValue_layoutText (level + 1) v hv.1).skipSpace, hvalue]
    simp only [Option.bind_eq_bind, Option.bind_some, hitems]
    rfl

end

/-- What `json.dumps` has written with an indentation `json.loads` reads back. -/
theorem loads_of_dumpsIndented {v : PyValue} (hv : v.IsJson) :
    ∃ s, v.dumpsIndented indent = some s ∧ loads s = some v := by
  refine ⟨String.ofList (v.layoutText indent 0), ?_, ?_⟩
  · rw [dumpsIndented, if_pos hv.1]
  · have hspace := (@beginsValue_layoutText indent 0 v hv.1).skipSpace []
    have hvalue := @parseValue_layoutText indent v 0 _ [] hv.1 hv.2 (Nat.le_refl _)
      (by intro c hc; cases hc)
    rw [List.append_nil] at hspace hvalue
    unfold loads
    rw [String.toList_ofList, hspace, hvalue]
    rfl

end reading

end FastapiTemplate.PyValue
