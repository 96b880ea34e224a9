import Mathlib.Data.List.Basic
import Mathlib.Data.Int.Notation
import Mathlib.Data.Nat.Notation

/-!
# Values and their JSON texts

Values as `json.dumps` and `json.loads` of Python see them, and the text of a value. With
`ascii` every character outside of ASCII is escaped, as `json.dumps` does it; without, only
what JSON asks for is escaped, as PostgreSQL prints `jsonb`. Strings are sequences of
Unicode scalar values.
-/

namespace FastapiTemplate

def isNumberChar (c : Char) : Bool := c.isDigit || c = '-' || c = '+' || c = '.' || c = 'e' || c = 'E'

/-- `0`, or digits that do not begin with `0`. -/
def isWholeText (ds : List Char) : Bool :=
  ds.all Char.isDigit && ds ≠ [] && (ds.head? ≠ some '0' || ds = ['0'])

def dropSign (t : List Char) : List Char :=
  match t with
  | '-' :: rest => rest
  | rest => rest

def isIntText (t : List Char) : Bool := isWholeText (dropSign t)

def isExponentText (t : List Char) : Bool :=
  match t with
  | [] => true
  | c :: '-' :: ds => (c = 'e' || c = 'E') && ds ≠ [] && ds.all Char.isDigit
  | c :: '+' :: ds => (c = 'e' || c = 'E') && ds ≠ [] && ds.all Char.isDigit
  | c :: ds => (c = 'e' || c = 'E') && ds ≠ [] && ds.all Char.isDigit

def isFloatText (t : List Char) : Bool :=
  let rest := (dropSign t).dropWhile Char.isDigit
  t.all isNumberChar && isWholeText ((dropSign t).takeWhile Char.isDigit) && rest ≠ [] &&
    match rest with
    | '.' :: ds => ds.takeWhile Char.isDigit ≠ [] && isExponentText (ds.dropWhile Char.isDigit)
    | rest => isExponentText rest

/-- A float, given by the text that represents it. -/
structure FloatText where
  text : List Char
  valid : isFloatText text = true
  deriving DecidableEq

/-- A `list` may also be a tuple; keys of a `dict` are strings; `other` is a value of another
type, given by its `str()`. -/
inductive PyValue
  | null
  | bool (b : Bool)
  | int (n : ℤ)
  | float (f : FloatText)
  | str (s : String)
  | list (items : List PyValue)
  | dict (items : List (String × PyValue))
  | set (items : List PyValue)
  | other (text : String)

namespace PyValue

/-! ## Texts -/

def intText (n : ℤ) : List Char :=
  match n with
  | .ofNat n => Nat.toDigits 10 n
  | .negSucc n => '-' :: Nat.toDigits 10 (n + 1)

def hexText (u : ℕ) : List Char :=
  [(u / 4096 % 16).digitChar, (u / 256 % 16).digitChar, (u / 16 % 16).digitChar, (u % 16).digitChar]

def utf16 (c : Char) : List ℕ :=
  if c.toNat < 0x10000 then [c.toNat]
  else [0xd800 + (c.toNat - 0x10000) / 1024, 0xdc00 + (c.toNat - 0x10000) % 1024]

def escapeUnit (u : ℕ) : List Char := '\\' :: 'u' :: hexText u

def escapeChar (ascii : Bool) (c : Char) : List Char :=
  if c = '"' then ['\\', '"']
  else if c = '\\' then ['\\', '\\']
  else if c = '\n' then ['\\', 'n']
  else if c = '\r' then ['\\', 'r']
  else if c = '\t' then ['\\', 't']
  else if c.toNat = 8 then ['\\', 'b']
  else if c.toNat = 12 then ['\\', 'f']
  else if c.toNat < 0x20 then escapeUnit c.toNat
  else if ascii ∧ 0x7f ≤ c.toNat then (utf16 c).flatMap escapeUnit
  else [c]

def stringText (ascii : Bool) (s : String) : List Char :=
  '"' :: s.toList.flatMap (escapeChar ascii) ++ ['"']

mutual

/-- The JSON text; of a value that has none, nothing in particular. -/
def text (ascii : Bool) : PyValue → List Char
  | .null => ['n', 'u', 'l', 'l']
  | .bool true => ['t', 'r', 'u', 'e']
  | .bool false => ['f', 'a', 'l', 's', 'e']
  | .int n => intText n
  | .float f => f.text
  | .str s => stringText ascii s
  | .list [] => ['[', ']']
  | .list (v :: vs) => '[' :: text ascii v ++ elementsText ascii vs
  | .dict [] => ['{', '}']
  | .dict ((k, v) :: items) =>
    '{' :: stringText ascii k ++ ':' :: ' ' :: text ascii v ++ itemsText ascii items
  | .set _ => []
  | .other _ => []

def elementsText (ascii : Bool) : List PyValue → List Char
  | [] => [']']
  | v :: vs => ',' :: ' ' :: text ascii v ++ elementsText ascii vs

def itemsText (ascii : Bool) : List (String × PyValue) → List Char
  | [] => ['}']
  | (k, v) :: items =>
    ',' :: ' ' :: stringText ascii k ++ ':' :: ' ' :: text ascii v ++ itemsText ascii items

end

/-! ## JSON values -/

mutual

def jsonable : PyValue → Bool
  | .list items => jsonableElements items
  | .dict items => jsonableItems items
  | .set _ => false
  | .other _ => false
  | _ => true

def jsonableElements : List PyValue → Bool
  | [] => true
  | v :: vs => jsonable v && jsonableElements vs

def jsonableItems : List (String × PyValue) → Bool
  | [] => true
  | (_, v) :: items => jsonable v && jsonableItems items

end

mutual

def keysApart : PyValue → Bool
  | .list items => keysApartElements items
  | .dict items => (items.map (·.1)).Nodup && keysApartItems items
  | _ => true

def keysApartElements : List PyValue → Bool
  | [] => true
  | v :: vs => keysApart v && keysApartElements vs

def keysApartItems : List (String × PyValue) → Bool
  | [] => true
  | (_, v) :: items => keysApart v && keysApartItems items

end

def IsJson (v : PyValue) : Prop := v.jsonable = true ∧ v.keysApart = true

/-- `json.dumps`, which raises a `TypeError` for other values. -/
def dumps (v : PyValue) : Option String :=
  if v.jsonable then some (String.ofList (v.text true)) else none

/-! ## Dictionaries -/

def dictGet? (items : List (String × PyValue)) (key : String) : Option PyValue :=
  (items.find? (·.1 = key)).map (·.2)

def dictSet (items : List (String × PyValue)) (key : String) (v : PyValue) :
    List (String × PyValue) :=
  if items.any (·.1 = key) then items.map (fun x => if x.1 = key then (key, v) else x)
  else items ++ [(key, v)]

/-- The dictionary of these items; of several items with one key, the last one counts. -/
def dictOf (items : List (String × PyValue)) : List (String × PyValue) :=
  items.foldl (fun d x => dictSet d x.1 x.2) []

theorem dictSet_of_notMem {items : List (String × PyValue)} {key : String}
    (h : key ∉ items.map (·.1)) (v : PyValue) : dictSet items key v = items ++ [(key, v)] := by
  unfold dictSet
  rw [if_neg]
  intro hany
  obtain ⟨x, hx, hkey⟩ := List.any_eq_true.mp hany
  exact h (List.mem_map.mpr ⟨x, hx, by simpa using hkey⟩)

theorem dictOf_of_nodup {items : List (String × PyValue)} (h : (items.map (·.1)).Nodup) :
    dictOf items = items := by
  have hfold (before : List (String × PyValue)) (hall : ((before ++ items).map (·.1)).Nodup) :
      items.foldl (fun d x => dictSet d x.1 x.2) before = before ++ items := by
    induction items generalizing before with
    | nil => rw [List.foldl_nil, List.append_nil]
    | cons x items ih =>
      have hx : x.1 ∉ before.map (·.1) := by
        intro hmem
        rw [List.map_append, List.map_cons] at hall
        exact (List.nodup_append.mp hall).2.2 x.1 hmem x.1 List.mem_cons_self rfl
      have hrest : (items.map (·.1)).Nodup := by
        rw [List.map_cons] at h
        exact h.of_cons
      rw [List.foldl_cons, dictSet_of_notMem hx, ih hrest, List.append_assoc]
      · rfl
      · rw [List.append_assoc]
        exact hall
  exact hfold [] h

end PyValue
end FastapiTemplate
