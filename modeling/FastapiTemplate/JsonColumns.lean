import FastapiTemplate.JsonRoundTrip
import Mathlib.Data.List.Nodup

/-!
# `jsonb` and text columns

What the server accepts and prints as `jsonb`, and the codec that `init_connection` registers:
a parameter is encoded with `json.dumps`, a column is decoded with `json.loads`. A parameter
that is itself a JSON text is therefore stored as a JSON string. The order in which the server
keeps the keys of an object is not modelled, nor how it rewrites numbers.
-/

namespace FastapiTemplate.PyValue

def noNulIn (s : String) : Bool := s.toList.all (fun c => c.toNat ≠ 0)

/-- `value or default` -/
def textOr (value : Option String) (default : String) : String :=
  match value with
  | some s => if s = "" then default else s
  | none => default

def fitsVarchar (n : ℕ) (s : String) : Bool := noNulIn s && s.length ≤ n

mutual

/-- No string in the value contains the character NUL, which the server does not accept. -/
def noNul : PyValue → Bool
  | .str s => noNulIn s
  | .list items => noNulElements items
  | .dict items => noNulItems items
  | _ => true

def noNulElements : List PyValue → Bool
  | [] => true
  | v :: vs => noNul v && noNulElements vs

def noNulItems : List (String × PyValue) → Bool
  | [] => true
  | (k, v) :: items => noNulIn k && noNul v && noNulItems items

end

instance (v : PyValue) : Decidable v.IsJson := inferInstanceAs (Decidable (_ ∧ _))

theorem isJson_str (s : String) : (str s).IsJson := ⟨rfl, rfl⟩

end FastapiTemplate.PyValue

namespace FastapiTemplate

open PyValue

structure Jsonb where
  value : PyValue
  isJson : value.IsJson

namespace Jsonb

def ofText (text : String) : Option Jsonb := do
  let v ← loads text
  if h : v.IsJson ∧ v.noNul = true then some ⟨v, h.1⟩ else none

def toText (j : Jsonb) : String := String.ofList (j.value.text false)

def encode (v : PyValue) : Option Jsonb := v.dumps.bind ofText

def decode (j : Jsonb) : Option PyValue := loads j.toText

def ofStr (s : String) : Jsonb := ⟨.str s, isJson_str s⟩

theorem decode_eq (j : Jsonb) : j.decode = some j.value := loads_text j.isJson

theorem encode_eq {v : PyValue} (hv : v.IsJson) (hnul : v.noNul = true) :
    encode v = some ⟨v, hv⟩ := by
  obtain ⟨s, hdumps, hloads⟩ := loads_of_dumps hv
  have hstored : v.IsJson ∧ v.noNul = true := ⟨hv, hnul⟩
  simp only [encode, hdumps, Option.bind_some, ofText, hloads, Option.bind_eq_bind, dif_pos hstored]

/-! ## JSON texts as parameters -/

theorem hexText_blank_le (u : ℕ) : ∀ c ∈ hexText u, 32 ≤ c.toNat := by
  have hdigit : ∀ d < 16, 32 ≤ d.digitChar.toNat := by
    decide
  intro c hc
  simp only [hexText, List.mem_cons, List.not_mem_nil, or_false] at hc
  rcases hc with rfl | rfl | rfl | rfl <;> exact hdigit _ (Nat.mod_lt _ (by omega))

theorem escapeUnit_blank_le (u : ℕ) : ∀ c ∈ escapeUnit u, 32 ≤ c.toNat := by
  intro c hc
  rcases List.mem_cons.mp hc with rfl | hc
  · decide
  rcases List.mem_cons.mp hc with rfl | hc
  · decide
  · exact hexText_blank_le u c hc

theorem ite_blank_le {p : Prop} [Decidable p] {t e : List Char} (ht : p → ∀ c ∈ t, 32 ≤ c.toNat)
    (he : ¬ p → ∀ c ∈ e, 32 ≤ c.toNat) : ∀ c ∈ if p then t else e, 32 ≤ c.toNat := by
  by_cases hp : p
  · rw [if_pos hp]
    exact ht hp
  · rw [if_neg hp]
    exact he hp

theorem escapeChar_blank_le (ascii : Bool) (c : Char) : ∀ d ∈ escapeChar ascii c, 32 ≤ d.toNat := by
  have hletter (a b : Char) (ha : 32 ≤ a.toNat) (hb : 32 ≤ b.toNat) : ∀ d ∈ [a, b], 32 ≤ d.toNat := by
    intro d hd
    simp only [List.mem_cons, List.not_mem_nil, or_false] at hd
    rcases hd with rfl | rfl
    · exact ha
    · exact hb
  unfold escapeChar
  -- the seven escapes with a letter
  iterate 7 refine ite_blank_le (fun _ => hletter _ _ (by decide) (by decide)) (fun _ => ?_)
  refine ite_blank_le (fun _ => escapeUnit_blank_le _) (fun hcontrol => ?_)
  apply ite_blank_le
  · intro _ d hd
    obtain ⟨u, _, hu⟩ := List.mem_flatMap.mp hd
    exact escapeUnit_blank_le u d hu
  · intro _ d hd
    rw [List.mem_singleton.mp hd]
    omega

theorem stringText_blank_le (ascii : Bool) (s : String) : ∀ c ∈ stringText ascii s, 32 ≤ c.toNat := by
  intro c hc
  simp only [stringText, List.cons_append, List.mem_cons, List.mem_append, List.not_mem_nil,
    or_false] at hc
  rcases hc with rfl | hc | rfl
  · decide
  · obtain ⟨d, _, hd⟩ := List.mem_flatMap.mp hc
    exact escapeChar_blank_le ascii d c hd
  · decide

theorem isNumberChar_blank_le {c : Char} (hc : isNumberChar c = true) : 32 ≤ c.toNat := by
  simp only [isNumberChar, Bool.or_eq_true, decide_eq_true_eq] at hc
  rcases hc with ((((hdigit | rfl) | rfl) | rfl) | rfl) | rfl
  · have hzero : '0'.toNat ≤ c.toNat := (Char.isDigit_iff_toNat.mp hdigit).1
    exact le_trans (by decide) hzero
  all_goals decide

theorem blank_le_of_all {t : List Char} (h : t.all (fun c => 32 ≤ c.toNat) = true) :
    ∀ c ∈ t, 32 ≤ c.toNat := fun c hc => of_decide_eq_true (List.all_eq_true.mp h c hc)

mutual

theorem text_blank_le (ascii : Bool) : ∀ v : PyValue, ∀ c ∈ v.text ascii, 32 ≤ c.toNat
  | .null => by simp only [text]; exact blank_le_of_all (by decide)
  | .bool true => by simp only [text]; exact blank_le_of_all (by decide)
  | .bool false => by simp only [text]; exact blank_le_of_all (by decide)
  | .int n => fun c hc => isNumberChar_blank_le ((intText_spec n).1 c hc)
  | .float f => fun c hc => isNumberChar_blank_le ((floatText_spec f).1 c hc)
  | .str s => stringText_blank_le ascii s
  | .list [] => by simp only [text]; exact blank_le_of_all (by decide)
  | .list (v :: vs) => by
    intro c hc
    simp only [text, List.cons_append, List.mem_cons, List.mem_append] at hc
    rcases hc with rfl | hc | hc
    · decide
    · exact text_blank_le ascii v c hc
    · exact elementsText_blank_le ascii vs c hc
  | .dict [] => by simp only [text]; exact blank_le_of_all (by decide)
  | .dict ((k, v) :: items) => by
    intro c hc
    simp only [text, List.cons_append, List.mem_cons, List.mem_append] at hc
    rcases hc with rfl | (hc | rfl | rfl | hc) | hc
    · decide
    · exact stringText_blank_le ascii k c hc
    · decide
    · decide
    · exact text_blank_le ascii v c hc
    · exact itemsText_blank_le ascii items c hc
  | .set items => by simp only [text]; exact fun c hc => absurd hc List.not_mem_nil
  | .other s => by simp only [text]; exact fun c hc => absurd hc List.not_mem_nil

theorem elementsText_blank_le (ascii : Bool) :
    ∀ vs : List PyValue, ∀ c ∈ elementsText ascii vs, 32 ≤ c.toNat
  | [] => by simp only [elementsText]; exact blank_le_of_all (by decide)
  | v :: vs => by
    intro c hc
    simp only [elementsText, List.cons_append, List.mem_cons, List.mem_append] at hc
    rcases hc with rfl | rfl | hc | hc
    · decide
    · decide
    · exact text_blank_le ascii v c hc
    · exact elementsText_blank_le ascii vs c hc

theorem itemsText_blank_le (ascii : Bool) :
    ∀ items : List (String × PyValue), ∀ c ∈ itemsText ascii items, 32 ≤ c.toNat
  | [] => by simp only [itemsText]; exact blank_le_of_all (by decide)
  | (k, v) :: items => by
    intro c hc
    simp only [itemsText, List.cons_append, List.mem_cons, List.mem_append] at hc
    rcases hc with rfl | rfl | (hc | rfl | rfl | hc) | hc
    · decide
    · decide
    · exact stringText_blank_le ascii k c hc
    · decide
    · decide
    · exact text_blank_le ascii v c hc
    · exact itemsText_blank_le ascii items c hc

end

theorem text_ne_nul (ascii : Bool) (v : PyValue) : ∀ c ∈ v.text ascii, c.toNat ≠ 0 := by
  intro c hc
  have hblank := text_blank_le ascii v c hc
  omega

/-- A parameter that `json.dumps` has written is stored as a string. -/
theorem encode_dumps {v : PyValue} {s : String} (h : v.dumps = some s) :
    encode (.str s) = some (ofStr s) := by
  have hnul : (PyValue.str s).noNul = true := by
    unfold dumps at h
    split_ifs at h
    cases h
    simp only [noNul, noNulIn, String.toList_ofList, List.all_eq_true, decide_eq_true_eq]
    exact text_ne_nul true v
  exact encode_eq (isJson_str s) hnul

/-- A value that is passed as its JSON text. -/
def textParam (v : PyValue) : Option Jsonb := do
  let text ← v.dumps
  encode (.str text)

/-- The text of a JSON value is stored as a string. -/
theorem textParam_eq {v : PyValue} (hv : v.IsJson) :
    ∃ text, textParam v = some (ofStr text) ∧ loads text = some v := by
  obtain ⟨text, hdumps, hloads⟩ := loads_of_dumps hv
  refine ⟨text, ?_, hloads⟩
  simp only [textParam, hdumps, Option.bind_eq_bind, Option.bind_some]
  exact encode_dumps hdumps

/-- A parameter that is only passed when there is a value. -/
def optionalParam {α β : Type} (f : α → Option β) : Option α → Option (Option β)
  | none => some none
  | some a => (f a).map some

/-! ## Concatenation -/

/-- A value that is not an array counts as an array of one element. -/
def elements : PyValue → List PyValue
  | .list vs => vs
  | v => [v]

def override (items news : List (String × PyValue)) : List (String × PyValue) :=
  news.foldl (fun d x => dictSet d x.1 x.2) items

theorem isJson_list_append {vs ws : List PyValue} (hv : (PyValue.list vs).IsJson)
    (hw : (PyValue.list ws).IsJson) : (PyValue.list (vs ++ ws)).IsJson := by
  induction vs with
  | nil => exact hw
  | cons v vs ih =>
    simp only [IsJson, jsonable, jsonableElements, keysApart, keysApartElements, Bool.and_eq_true,
      List.cons_append] at hv ih ⊢
    have hrest := ih ⟨hv.1.2, hv.2.2⟩
    exact ⟨⟨hv.1.1, hrest.1⟩, hv.2.1, hrest.2⟩

theorem isJson_elements {v : PyValue} (hv : v.IsJson) : (PyValue.list (elements v)).IsJson := by
  cases v with
  | list vs => exact hv
  | _ =>
    simp only [IsJson, jsonable, jsonableElements, keysApart, keysApartElements, Bool.and_eq_true,
      elements] at hv ⊢
    exact ⟨⟨hv.1, trivial⟩, hv.2, trivial⟩

theorem jsonableItems_iff {items : List (String × PyValue)} :
    jsonableItems items = true ↔ ∀ x ∈ items, x.2.jsonable = true := by
  induction items with
  | nil => simp [jsonableItems]
  | cons x items ih => rw [jsonableItems, Bool.and_eq_true, ih, List.forall_mem_cons]

theorem keysApartItems_iff {items : List (String × PyValue)} :
    keysApartItems items = true ↔ ∀ x ∈ items, x.2.keysApart = true := by
  induction items with
  | nil => simp [keysApartItems]
  | cons x items ih => rw [keysApartItems, Bool.and_eq_true, ih, List.forall_mem_cons]

/-- A dictionary of JSON values with every key once. -/
theorem isJson_dict_iff {items : List (String × PyValue)} : (PyValue.dict items).IsJson ↔
    (items.map (·.1)).Nodup ∧ ∀ x ∈ items, x.2.IsJson := by
  simp only [IsJson, jsonable, keysApart, Bool.and_eq_true, decide_eq_true_eq, jsonableItems_iff,
    keysApartItems_iff]
  constructor
  · rintro ⟨hv, hkeys, happart⟩
    exact ⟨hkeys, fun x hx => ⟨hv x hx, happart x hx⟩⟩
  · rintro ⟨hkeys, hall⟩
    exact ⟨fun x hx => (hall x hx).1, hkeys, fun x hx => (hall x hx).2⟩

theorem mem_dictSet {items : List (String × PyValue)} {key : String} {v : PyValue}
    {x : String × PyValue} (hx : x ∈ dictSet items key v) : x ∈ items ∨ x = (key, v) := by
  unfold dictSet at hx
  split_ifs at hx with hany
  · obtain ⟨y, hy, hyx⟩ := List.mem_map.mp hx
    split_ifs at hyx
    · exact .inr hyx.symm
    · exact .inl (hyx ▸ hy)
  · simpa using hx

theorem dictSet_keys_nodup {items : List (String × PyValue)} (h : (items.map (·.1)).Nodup)
    (key : String) (v : PyValue) : ((dictSet items key v).map (·.1)).Nodup := by
  unfold dictSet
  split_ifs with hany
  · have hkeys : (items.map (fun x => if x.1 = key then (key, v) else x)).map (·.1) =
        items.map (·.1) := by
      rw [List.map_map]
      apply List.map_congr_left
      intro x _
      by_cases hx : x.1 = key
      · simp [hx]
      · simp [hx]
    rw [hkeys]
    exact h
  · rw [List.map_append]
    apply List.nodup_append.mpr
    refine ⟨h, List.nodup_singleton key, ?_⟩
    rintro k hk k' hk' rfl
    rw [List.mem_singleton.mp hk'] at hk
    obtain ⟨x, hx, hkey⟩ := List.mem_map.mp hk
    exact hany (List.any_eq_true.mpr ⟨x, hx, by simpa using hkey⟩)

theorem isJson_override {items news : List (String × PyValue)}
    (hitems : (PyValue.dict items).IsJson) (hnews : (PyValue.dict news).IsJson) :
    (PyValue.dict (override items news)).IsJson := by
  have hvalues := (isJson_dict_iff.mp hnews).2
  clear hnews
  unfold override
  induction news generalizing items with
  | nil => exact hitems
  | cons x news ih =>
    obtain ⟨hkeys, hall⟩ := isJson_dict_iff.mp hitems
    obtain ⟨hx, hrest⟩ := List.forall_mem_cons.mp hvalues
    have hset : (PyValue.dict (dictSet items x.1 x.2)).IsJson := by
      apply isJson_dict_iff.mpr
      refine ⟨dictSet_keys_nodup hkeys x.1 x.2, fun y hy => ?_⟩
      rcases mem_dictSet hy with hy | rfl
      · exact hall y hy
      · exact hx
    exact ih hset hrest

/-- `a || b`: objects are merged, anything else is concatenated to an array. -/
def concatValue (a b : PyValue) : PyValue :=
  match a, b with
  | .dict items, .dict news => .dict (override items news)
  | a, b => .list (elements a ++ elements b)

theorem isJson_concatValue {a b : PyValue} (ha : a.IsJson) (hb : b.IsJson) :
    (concatValue a b).IsJson := by
  unfold concatValue
  split
  · exact isJson_override ha hb
  · exact isJson_list_append (isJson_elements ha) (isJson_elements hb)

def concat (a b : Jsonb) : Jsonb := ⟨concatValue a.value b.value, isJson_concatValue a.isJson b.isJson⟩

/-- A string is not merged into an object. -/
theorem concat_ofStr (j : Jsonb) (s : String) :
    (j.concat (ofStr s)).value = .list (elements j.value ++ [.str s]) := by
  change concatValue j.value (.str s) = _
  unfold concatValue
  split
  · next heq => cases heq
  · rfl

end Jsonb
end FastapiTemplate
