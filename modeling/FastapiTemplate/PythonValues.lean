import FastapiTemplate.JsonColumns

/-!
# Untrusted texts and values

What a program gets that decodes JSON from outside: a text may hold lone surrogates, so it is a
list of code points and not a `String`. The library functions that read, print and write such
values are a structure of their own. They raise a `RecursionError` for values that are nested too
deeply, and how deep that is depends on the interpreter.
-/

namespace FastapiTemplate

/-- A `str`, by its code points. -/
abbrev PyText := List ℕ

namespace PyText

def ofString (s : String) : PyText := s.toList.map Char.toNat

/-- The text as a `String`, which a lone surrogate prevents. -/
def toString? (t : PyText) : Option String :=
  if t.all PyValue.isScalar then some (String.ofList (t.map Char.ofNat)) else none

@[simp] theorem toString?_ofString (s : String) : (ofString s).toString? = some s := by
  have hscalar : (ofString s).all PyValue.isScalar = true := by
    apply List.all_eq_true.mpr
    intro u hu
    obtain ⟨c, -, rfl⟩ := List.mem_map.mp hu
    exact PyValue.isScalar_toNat c
  have hmap : (ofString s).map Char.ofNat = s.toList := by
    rw [ofString, List.map_map]
    apply List.map_id''
    exact Char.ofNat_toNat
  rw [toString?, if_pos hscalar, hmap, String.ofList_toList]

end PyText

def setItem {κ ν : Type} [DecidableEq κ] (items : List (κ × ν)) (x : κ × ν) : List (κ × ν) :=
  if items.any (·.1 = x.1) then items.map (fun y => if y.1 = x.1 then x else y) else items ++ [x]

/-- What `json.loads` gives. A float is given by its `repr`. -/
inductive JsonValue
  | null
  | bool (b : Bool)
  | int (n : ℤ)
  | float (repr : String)
  | str (s : PyText)
  | list (items : List JsonValue)
  | dict (items : List (PyText × JsonValue))

namespace JsonValue

def truthy : JsonValue → Bool
  | .null => false
  | .bool b => b
  | .int n => n ≠ 0
  | .float repr => repr ≠ "0.0" ∧ repr ≠ "-0.0"
  | .str s => s ≠ []
  | .list items => !items.isEmpty
  | .dict items => !items.isEmpty

def get? (items : List (PyText × JsonValue)) (key : String) : Option JsonValue :=
  (items.find? (·.1 = PyText.ofString key)).map (·.2)

mutual

def ofPy : PyValue → JsonValue
  | .null => .null
  | .bool b => .bool b
  | .int n => .int n
  | .float f => .float (String.ofList f.text)
  | .str s => .str (.ofString s)
  | .list items => .list (ofPyElements items)
  | .dict items => .dict (ofPyItems items)
  | .set items => .list (ofPyElements items)
  | .other text => .str (.ofString text)

def ofPyElements : List PyValue → List JsonValue
  | [] => []
  | v :: vs => ofPy v :: ofPyElements vs

def ofPyItems : List (String × PyValue) → List (PyText × JsonValue)
  | [] => []
  | (k, v) :: items => (.ofString k, ofPy v) :: ofPyItems items

end

def ofStrings (items : List (String × String)) : List (PyText × JsonValue) :=
  items.map (fun x => (PyText.ofString x.1, .str (.ofString x.2)))

end JsonValue

theorem except_bind_eq_ok_iff {ε α β : Type} {x : Except ε α} {f : α → Except ε β} {b : β} :
    (x >>= f) = .ok b ↔ ∃ a, x = .ok a ∧ f a = .ok b := by
  cases x with
  | error e =>
    constructor
    · rintro ⟨⟩
    · rintro ⟨a, ⟨⟩, -⟩
  | ok a =>
    constructor
    · intro h
      exact ⟨a, rfl, h⟩
    · rintro ⟨a', ⟨⟩, h⟩
      exact h

inductive LibraryError
  | valueError (message : String)
  | recursionError
  deriving DecidableEq, Repr

/-- The text of a JSON value as `json.dumps` writes it, with every character below the blank
escaped. -/
structure JsonText where
  text : String
  nonempty : text ≠ ""
  noNul : PyValue.noNulIn text = true
  deriving DecidableEq

/-- What is stored for a text that is passed as a `jsonb` parameter. -/
def JsonText.stored (t : JsonText) : Jsonb := Jsonb.ofStr t.text

def PyValue.ofStrings (items : List (String × String)) : PyValue :=
  .dict (items.map (fun x => (x.1, .str x.2)))

/-- The library: `json.loads` of bytes and of a text, `bytes.decode` with `errors="replace"`, `str`
of a value that is no text and of a dictionary of texts, and `json.dumps` with the usual separators
and with `(",", ":")`. What is printed comes from `json.loads`, so only its depth can be refused. -/
structure Python where
  loads : List UInt8 → Except LibraryError JsonValue
  loadsText : String → Except LibraryError JsonValue
  decodeReplacing : List UInt8 → String
  str : JsonValue → Option PyText
  strDict : List (String × String) → String
  dumps : JsonValue → Option JsonText
  dumpsCompact : JsonValue → Option JsonText
  strDict_noNul : ∀ items, PyValue.noNulIn (strDict items) = true
  dumps_strings : ∀ items, (dumps (.dict (JsonValue.ofStrings items))).map JsonText.text =
    some (String.ofList ((PyValue.ofStrings items).text true))

def Python.strOf (py : Python) : JsonValue → Option PyText
  | .str s => some s
  | v => py.str v

/-! ## The library for shallow values -/

namespace Python

theorem noNulIn_text (v : PyValue) : PyValue.noNulIn (String.ofList (v.text true)) = true := by
  simp only [PyValue.noNulIn, String.toList_ofList, List.all_eq_true, decide_eq_true_eq]
  exact Jsonb.text_ne_nul true v

mutual

/-- The value with a lone surrogate replaced. -/
def shown : JsonValue → PyValue
  | .null => .null
  | .bool b => .bool b
  | .int n => .int n
  | .float repr => if h : isFloatText repr.toList then .float ⟨repr.toList, h⟩ else .str repr
  | .str s => .str (s.toString?.getD "?")
  | .list items => .list (shownElements items)
  | .dict items => .dict (shownItems items)

def shownElements : List JsonValue → List PyValue
  | [] => []
  | v :: vs => shown v :: shownElements vs

def shownItems : List (PyText × JsonValue) → List (String × PyValue)
  | [] => []
  | (k, v) :: items => (k.toString?.getD "?", shown v) :: shownItems items

end

def plainText (v : JsonValue) : Option JsonText :=
  let text := String.ofList ((shown v).text true)
  if h : text ≠ "" then some ⟨text, h, noNulIn_text (shown v)⟩ else none

def plainLoads (text : String) : Except LibraryError JsonValue :=
  match PyValue.loads text with
  | some v => .ok (.ofPy v)
  | none => .error (.valueError "Expecting value")

def plainStr : JsonValue → PyText
  | .null => .ofString "None"
  | .bool true => .ofString "True"
  | .bool false => .ofString "False"
  | v => .ofString (String.ofList ((shown v).text true))

def plainStrDict (items : List (String × String)) : String :=
  let texts := items.map (fun x => "'" ++ x.1 ++ "': '" ++ x.2 ++ "'")
  String.ofList (("\x7b" ++ ", ".intercalate texts ++ "\x7d").toList.filter (·.toNat ≠ 0))

theorem shown_ofStrings (items : List (String × String)) :
    shown (.dict (JsonValue.ofStrings items)) = PyValue.ofStrings items := by
  have hitems : shownItems (JsonValue.ofStrings items) =
      items.map (fun x => (x.1, PyValue.str x.2)) := by
    induction items with
    | nil => rfl
    | cons x items ih =>
      have hcons : JsonValue.ofStrings (x :: items) =
          (PyText.ofString x.1, .str (.ofString x.2)) :: JsonValue.ofStrings items := rfl
      simp only [hcons, shownItems, shown, PyText.toString?_ofString, Option.getD_some, ih,
        List.map_cons]
  rw [shown, hitems, PyValue.ofStrings]

theorem text_ofStrings_ne (items : List (String × String)) :
    String.ofList ((PyValue.ofStrings items).text true) ≠ "" := by
  intro h
  have hnil := congrArg String.toList h
  rw [String.toList_ofList] at hnil
  cases items with
  | nil => simp [PyValue.ofStrings, PyValue.text] at hnil
  | cons x items => simp [PyValue.ofStrings, PyValue.text] at hnil

/-- The library for numbers, texts and empty lists and dictionaries. -/
def plain : Python where
  loads bytes :=
    match String.fromUTF8? ⟨bytes.toArray⟩ with
    | some text => plainLoads text
    | none => .error (.valueError "invalid start byte")
  loadsText := plainLoads
  decodeReplacing bytes := (String.fromUTF8? ⟨bytes.toArray⟩).getD ""
  str v := some (plainStr v)
  strDict := plainStrDict
  dumps := plainText
  dumpsCompact := plainText
  strDict_noNul items := by
    simp only [PyValue.noNulIn, plainStrDict, String.toList_ofList]
    apply List.all_eq_true.mpr
    intro c hc
    exact (List.mem_filter.mp hc).2
  dumps_strings items := by
    simp only [plainText, shown_ofStrings, dif_pos (text_ofStrings_ne items), Option.map_some]

end Python

end FastapiTemplate
