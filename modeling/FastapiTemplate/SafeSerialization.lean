import FastapiTemplate.DeadLetterTasks
import FastapiTemplate.Dictionaries

/-!
# Values that are safe to serialize

`api/utils/serialization.py`: `json_serialize_safe` keeps the values that JSON has, turns what holds
other values into lists and dictionaries with strings as keys, and any other value into its text. It
keeps every float, and JSON has neither infinities nor `NaN`. The payloads of dead letters are such
values.
-/

namespace FastapiTemplate.Serialization

/-! ## Objects -/

inductive PyFloat
  | finite (f : FloatText)
  | infinite (negative : Bool)
  | nan
  deriving DecidableEq

inductive Scalar
  | none
  | bool (b : Bool)
  | int (n : ℤ)
  | float (x : PyFloat)
  | str (s : PyText)
  deriving DecidableEq

inductive CollectionType
  | list
  | tuple
  | set
  | subclass (name : String)
  deriving DecidableEq, Repr

/-- The name of a subclass is given where the object is not of the type itself, as a member of an
`IntEnum` or an `OrderedDict`. The items of a set are in the order in which it gives them. -/
inductive PyObject
  | scalar (x : Scalar) (subclass : Option String)
  | collection (type : CollectionType) (items : List PyObject)
  | dict (subclass : Option String) (items : List (PyObject × PyObject))
  | other (name : String)

/-- `str(obj)`, or `none` if it raises an exception. A string is its own text. -/
structure Printer where
  str : PyObject → Option PyText
  str_str : ∀ s, str (.scalar (.str s) none) = some s

def ofKey (key : PyText) : PyObject := .scalar (.str key) none

def ofEntries (entries : List (PyText × PyObject)) : List (PyObject × PyObject) :=
  entries.map fun x => (ofKey x.1, x.2)

variable (p : Printer)

mutual

/-- The result with this many frames left on the stack, or `none` if an exception is raised. -/
def jsonSerializeSafe : ℕ → PyObject → Option PyObject
  | 0, _ => none
  | _ + 1, .scalar x subclass => some (.scalar x subclass)
  | stack + 1, .collection _ items =>
    (jsonSerializeSafeItems stack items).map (.collection .list)
  | stack + 1, .dict _ items =>
    (jsonSerializeSafeEntries stack items).map
      (fun entries => .dict none (ofEntries (dictOf entries)))
  | _ + 1, .other name => (p.str (.other name)).map ofKey

def jsonSerializeSafeItems : ℕ → List PyObject → Option (List PyObject)
  | _, [] => some []
  | stack, v :: vs =>
    (jsonSerializeSafe stack v).bind fun w => (jsonSerializeSafeItems stack vs).map (w :: ·)

def jsonSerializeSafeEntries : ℕ → List (PyObject × PyObject) → Option (List (PyText × PyObject))
  | _, [] => some []
  | stack, (k, v) :: items =>
    (p.str k).bind fun key => (jsonSerializeSafe stack v).bind fun w =>
      (jsonSerializeSafeEntries stack items).map ((key, w) :: ·)

end

/-! ## JSON values -/

def Scalar.isJson : Scalar → Bool
  | .float (.infinite _) => false
  | .float .nan => false
  | _ => true

def keyText : PyObject → Option PyText
  | .scalar (.str s) none => some s
  | _ => none

mutual

/-- A scalar of JSON, a list of such values, or a dictionary of such values whose keys are strings.
The keys of a dictionary are distinct. -/
def isJson : PyObject → Bool
  | .scalar x _ => x.isJson
  | .collection type items => type = .list && isJsonItems items
  | .dict subclass items =>
    subclass = none && decide (items.map (fun x => keyText x.1)).Nodup && isJsonEntries items
  | .other _ => false

def isJsonItems : List PyObject → Bool
  | [] => true
  | v :: vs => isJson v && isJsonItems vs

def isJsonEntries : List (PyObject × PyObject) → Bool
  | [] => true
  | (k, v) :: items => (keyText k).isSome && isJson v && isJsonEntries items

end

/-! ## What an object needs -/

mutual

/-- The number of frames that the object takes. -/
def depth : PyObject → ℕ
  | .scalar _ _ => 1
  | .collection _ items => depthItems items + 1
  | .dict _ items => depthEntries items + 1
  | .other _ => 1

def depthItems : List PyObject → ℕ
  | [] => 0
  | v :: vs => max (depth v) (depthItems vs)

def depthEntries : List (PyObject × PyObject) → ℕ
  | [] => 0
  | (_, v) :: items => max (depth v) (depthEntries items)

end

mutual

/-- `str` raises no exception for a key, nor for a value that is no JSON type. -/
def printable : PyObject → Bool
  | .scalar _ _ => true
  | .collection _ items => printableItems items
  | .dict _ items => printableEntries items
  | .other name => (p.str (.other name)).isSome

def printableItems : List PyObject → Bool
  | [] => true
  | v :: vs => printable v && printableItems vs

def printableEntries : List (PyObject × PyObject) → Bool
  | [] => true
  | (k, v) :: items => (p.str k).isSome && printable v && printableEntries items

end

mutual

/-- No infinity and no `NaN` is kept; a value is not kept if a later key has the same text. -/
def keepsFinite : PyObject → Bool
  | .scalar x _ => x.isJson
  | .collection _ items => keepsFiniteItems items
  | .dict _ items => (dictOf (finiteEntries items)).all (·.2)
  | .other _ => true

def keepsFiniteItems : List PyObject → Bool
  | [] => true
  | v :: vs => keepsFinite v && keepsFiniteItems vs

def finiteEntries : List (PyObject × PyObject) → List (PyText × Bool)
  | [] => []
  | (k, v) :: items => ((p.str k).getD [], keepsFinite v) :: finiteEntries items

end

/-! ## When there is a result -/

theorem depth_pos (v : PyObject) : 0 < depth v := by
  cases v <;> rw [depth] <;> exact Nat.succ_pos _

mutual

theorem isSome_jsonSerializeSafe : ∀ (stack : ℕ) (v : PyObject),
    (jsonSerializeSafe p stack v).isSome = (decide (depth v ≤ stack) && printable p v)
  | 0, v => by
    rw [decide_eq_false (Nat.not_le.mpr (depth_pos v)), Bool.false_and]
    cases v <;> rfl
  | stack + 1, .scalar x subclass => by simp [jsonSerializeSafe, depth, printable]
  | stack + 1, .collection type items => by
    rw [jsonSerializeSafe, Option.isSome_map, isSome_jsonSerializeSafeItems stack items, depth,
      printable]
    simp only [Nat.add_le_add_iff_right]
  | stack + 1, .dict subclass items => by
    rw [jsonSerializeSafe, Option.isSome_map, isSome_jsonSerializeSafeEntries stack items, depth,
      printable]
    simp only [Nat.add_le_add_iff_right]
  | stack + 1, .other name => by simp [jsonSerializeSafe, depth, printable]

theorem isSome_jsonSerializeSafeItems : ∀ (stack : ℕ) (vs : List PyObject),
    (jsonSerializeSafeItems p stack vs).isSome =
      (decide (depthItems vs ≤ stack) && printableItems p vs)
  | stack, [] => by simp [jsonSerializeSafeItems, depthItems, printableItems]
  | stack, v :: vs => by
    have hv := isSome_jsonSerializeSafe stack v
    have hvs := isSome_jsonSerializeSafeItems stack vs
    rw [jsonSerializeSafeItems, depthItems, printableItems]
    cases hw : jsonSerializeSafe p stack v <;> cases hws : jsonSerializeSafeItems p stack vs <;>
      grind

theorem isSome_jsonSerializeSafeEntries : ∀ (stack : ℕ) (items : List (PyObject × PyObject)),
    (jsonSerializeSafeEntries p stack items).isSome =
      (decide (depthEntries items ≤ stack) && printableEntries p items)
  | stack, [] => by simp [jsonSerializeSafeEntries, depthEntries, printableEntries]
  | stack, (k, v) :: items => by
    have hv := isSome_jsonSerializeSafe stack v
    have hitems := isSome_jsonSerializeSafeEntries stack items
    rw [jsonSerializeSafeEntries, depthEntries, printableEntries]
    cases hkey : p.str k <;> cases hw : jsonSerializeSafe p stack v <;>
      cases hentries : jsonSerializeSafeEntries p stack items <;> grind

end

/-! ## What a call returns -/

section inversion
variable {p} {stack : ℕ} {out : PyObject}

theorem exists_of_collection {type : CollectionType} {items : List PyObject}
    (h : jsonSerializeSafe p (stack + 1) (.collection type items) = some out) :
    ∃ ws, jsonSerializeSafeItems p stack items = some ws ∧ out = .collection .list ws := by
  rw [jsonSerializeSafe] at h
  obtain ⟨ws, hws, rfl⟩ := Option.map_eq_some_iff.mp h
  exact ⟨ws, hws, rfl⟩

theorem exists_of_dict {subclass : Option String} {items : List (PyObject × PyObject)}
    (h : jsonSerializeSafe p (stack + 1) (.dict subclass items) = some out) :
    ∃ entries, jsonSerializeSafeEntries p stack items = some entries ∧
      out = .dict none (ofEntries (dictOf entries)) := by
  rw [jsonSerializeSafe] at h
  obtain ⟨entries, hentries, rfl⟩ := Option.map_eq_some_iff.mp h
  exact ⟨entries, hentries, rfl⟩

theorem exists_of_other {name : String}
    (h : jsonSerializeSafe p (stack + 1) (.other name) = some out) : ∃ text, out = ofKey text := by
  rw [jsonSerializeSafe] at h
  obtain ⟨text, -, rfl⟩ := Option.map_eq_some_iff.mp h
  exact ⟨text, rfl⟩

theorem exists_of_items_cons {v : PyObject} {vs ws : List PyObject}
    (h : jsonSerializeSafeItems p stack (v :: vs) = some ws) :
    ∃ w rest, jsonSerializeSafe p stack v = some w ∧
      jsonSerializeSafeItems p stack vs = some rest ∧ ws = w :: rest := by
  rw [jsonSerializeSafeItems] at h
  obtain ⟨w, hw, h⟩ := Option.bind_eq_some_iff.mp h
  obtain ⟨rest, hrest, rfl⟩ := Option.map_eq_some_iff.mp h
  exact ⟨w, rest, hw, hrest, rfl⟩

theorem exists_of_entries_cons {k v : PyObject} {items : List (PyObject × PyObject)}
    {entries : List (PyText × PyObject)}
    (h : jsonSerializeSafeEntries p stack ((k, v) :: items) = some entries) :
    ∃ key w rest, p.str k = some key ∧ jsonSerializeSafe p stack v = some w ∧
      jsonSerializeSafeEntries p stack items = some rest ∧ entries = (key, w) :: rest := by
  rw [jsonSerializeSafeEntries] at h
  obtain ⟨key, hkey, h⟩ := Option.bind_eq_some_iff.mp h
  obtain ⟨w, hw, h⟩ := Option.bind_eq_some_iff.mp h
  obtain ⟨rest, hrest, rfl⟩ := Option.map_eq_some_iff.mp h
  exact ⟨key, w, rest, hkey, hw, hrest, rfl⟩

end inversion

/-! ## What the result is -/

theorem isJsonEntries_ofEntries (entries : List (PyText × PyObject)) :
    isJsonEntries (ofEntries entries) = entries.all (fun x => isJson x.2) := by
  induction entries with
  | nil => rfl
  | cons x entries ih =>
    change ((keyText (ofKey x.1)).isSome && isJson x.2 && isJsonEntries (ofEntries entries)) = _
    rw [ih, List.all_cons]
    rfl

theorem keyTexts_ofEntries (entries : List (PyText × PyObject)) :
    (ofEntries entries).map (fun x => keyText x.1) = (entries.map (·.1)).map some := by
  rw [ofEntries, List.map_map, List.map_map]
  rfl

/-- The keys of a dictionary that the function builds are distinct. -/
theorem isJson_dict (entries : List (PyText × PyObject)) :
    isJson (.dict none (ofEntries (dictOf entries))) =
      (dictOf (entries.map (Prod.map id isJson))).all (·.2) := by
  have hkeys : ((ofEntries (dictOf entries)).map (fun x => keyText x.1)).Nodup := by
    rw [keyTexts_ofEntries]
    exact (nodup_dictOf entries).map (fun _ _ => Option.some.inj)
  rw [isJson, decide_eq_true hkeys, isJsonEntries_ofEntries, ← map_dictOf, List.all_map]
  simp only [Function.comp_def, Prod.map_snd, decide_true, Bool.true_and]

mutual

theorem isJson_jsonSerializeSafe : ∀ (stack : ℕ) (v out : PyObject),
    jsonSerializeSafe p stack v = some out → isJson out = keepsFinite p v
  | 0, v, out, h => by cases v <;> cases h
  | stack + 1, .scalar x subclass, out, h => by
    rw [jsonSerializeSafe] at h
    cases h
    rw [isJson, keepsFinite]
  | stack + 1, .collection type items, out, h => by
    obtain ⟨ws, hws, rfl⟩ := exists_of_collection h
    rw [isJson, keepsFinite, isJsonItems_jsonSerializeSafe stack items ws hws]
    simp only [decide_true, Bool.true_and]
  | stack + 1, .dict subclass items, out, h => by
    obtain ⟨entries, hentries, rfl⟩ := exists_of_dict h
    rw [isJson_dict, keepsFinite, isJsonEntries_jsonSerializeSafe stack items entries hentries]
  | stack + 1, .other name, out, h => by
    obtain ⟨text, rfl⟩ := exists_of_other h
    rw [keepsFinite]
    rfl

theorem isJsonItems_jsonSerializeSafe : ∀ (stack : ℕ) (vs ws : List PyObject),
    jsonSerializeSafeItems p stack vs = some ws → isJsonItems ws = keepsFiniteItems p vs
  | stack, [], ws, h => by
    rw [jsonSerializeSafeItems] at h
    cases h
    rfl
  | stack, v :: vs, ws, h => by
    obtain ⟨w, ws, hw, hws, rfl⟩ := exists_of_items_cons h
    rw [isJsonItems, keepsFiniteItems, isJson_jsonSerializeSafe stack v w hw,
      isJsonItems_jsonSerializeSafe stack vs ws hws]

theorem isJsonEntries_jsonSerializeSafe : ∀ (stack : ℕ) (items : List (PyObject × PyObject))
    (entries : List (PyText × PyObject)), jsonSerializeSafeEntries p stack items = some entries →
      entries.map (Prod.map id isJson) = finiteEntries p items
  | stack, [], entries, h => by
    rw [jsonSerializeSafeEntries] at h
    cases h
    rfl
  | stack, (k, v) :: items, entries, h => by
    obtain ⟨key, w, entries, hkey, hw, hentries, rfl⟩ := exists_of_entries_cons h
    rw [List.map_cons, finiteEntries, isJsonEntries_jsonSerializeSafe stack items entries hentries,
      ← isJson_jsonSerializeSafe stack v w hw, hkey, Option.getD_some, Prod.map_apply, id_eq]

end

/-! ## The result is not deeper than the stack -/

theorem depthEntries_ofEntries_le {stack : ℕ} {entries : List (PyText × PyObject)}
    (h : ∀ x ∈ entries, depth x.2 ≤ stack) : depthEntries (ofEntries entries) ≤ stack := by
  induction entries with
  | nil => exact Nat.zero_le stack
  | cons x entries ih =>
    change max (depth x.2) (depthEntries (ofEntries entries)) ≤ stack
    exact Nat.max_le.mpr ⟨h x List.mem_cons_self, ih (fun y hy => h y (List.mem_cons_of_mem x hy))⟩

mutual

theorem depth_jsonSerializeSafe_le : ∀ (stack : ℕ) (v out : PyObject),
    jsonSerializeSafe p stack v = some out → depth out ≤ stack
  | 0, v, out, h => by cases v <;> cases h
  | stack + 1, .scalar x subclass, out, h => by
    rw [jsonSerializeSafe] at h
    cases h
    exact Nat.succ_le_succ (Nat.zero_le stack)
  | stack + 1, .collection type items, out, h => by
    obtain ⟨ws, hws, rfl⟩ := exists_of_collection h
    exact Nat.succ_le_succ (depthItems_jsonSerializeSafe_le stack items ws hws)
  | stack + 1, .dict subclass items, out, h => by
    obtain ⟨entries, hentries, rfl⟩ := exists_of_dict h
    have hle := depthEntries_jsonSerializeSafe_le stack items entries hentries
    exact Nat.succ_le_succ
      (depthEntries_ofEntries_le (fun x hx => hle x (mem_of_mem_dictOf hx)))
  | stack + 1, .other name, out, h => by
    obtain ⟨text, rfl⟩ := exists_of_other h
    exact Nat.succ_le_succ (Nat.zero_le stack)

theorem depthItems_jsonSerializeSafe_le : ∀ (stack : ℕ) (vs ws : List PyObject),
    jsonSerializeSafeItems p stack vs = some ws → depthItems ws ≤ stack
  | stack, [], ws, h => by
    rw [jsonSerializeSafeItems] at h
    cases h
    exact Nat.zero_le stack
  | stack, v :: vs, ws, h => by
    obtain ⟨w, ws, hw, hws, rfl⟩ := exists_of_items_cons h
    exact Nat.max_le.mpr ⟨depth_jsonSerializeSafe_le stack v w hw,
      depthItems_jsonSerializeSafe_le stack vs ws hws⟩

theorem depthEntries_jsonSerializeSafe_le : ∀ (stack : ℕ) (items : List (PyObject × PyObject))
    (entries : List (PyText × PyObject)), jsonSerializeSafeEntries p stack items = some entries →
      ∀ x ∈ entries, depth x.2 ≤ stack
  | stack, [], entries, h => by
    rw [jsonSerializeSafeEntries] at h
    cases h
    intro x hx
    cases hx
  | stack, (k, v) :: items, entries, h => by
    obtain ⟨key, w, entries, -, hw, hentries, rfl⟩ := exists_of_entries_cons h
    intro x hx
    rcases List.mem_cons.mp hx with rfl | hx
    · exact depth_jsonSerializeSafe_le stack v w hw
    · exact depthEntries_jsonSerializeSafe_le stack items entries hentries x hx

end

/-! ## JSON values stay as they are -/

theorem eq_ofKey_of_keyText {k : PyObject} {text : PyText} (h : keyText k = some text) :
    k = ofKey text := by
  unfold keyText at h
  split at h
  · cases h
    rfl
  · cases h

mutual

theorem jsonSerializeSafe_of_isJson : ∀ (stack : ℕ) (v : PyObject), isJson v = true →
    depth v ≤ stack → jsonSerializeSafe p stack v = some v
  | 0, v, _, hdepth => by cases v <;> cases hdepth
  | stack + 1, .scalar x subclass, _, _ => by rw [jsonSerializeSafe]
  | stack + 1, .collection type items, hjson, hdepth => by
    rw [isJson, Bool.and_eq_true, decide_eq_true_iff] at hjson
    obtain ⟨rfl, hitems⟩ := hjson
    rw [jsonSerializeSafe, jsonSerializeSafeItems_of_isJson stack items hitems
      (Nat.le_of_succ_le_succ hdepth), Option.map_some]
  | stack + 1, .dict subclass items, hjson, hdepth => by
    rw [isJson, Bool.and_eq_true, Bool.and_eq_true, decide_eq_true_iff, decide_eq_true_iff] at hjson
    obtain ⟨⟨rfl, hkeys⟩, hitems⟩ := hjson
    obtain ⟨entries, hentries, rfl⟩ := jsonSerializeSafeEntries_of_isJson stack items hitems
      (Nat.le_of_succ_le_succ hdepth)
    rw [keyTexts_ofEntries] at hkeys
    rw [jsonSerializeSafe, hentries, Option.map_some, dictOf_of_nodup hkeys.of_map]
  | _ + 1, .other name, hjson, _ => by cases hjson

theorem jsonSerializeSafeItems_of_isJson : ∀ (stack : ℕ) (vs : List PyObject),
    isJsonItems vs = true → depthItems vs ≤ stack → jsonSerializeSafeItems p stack vs = some vs
  | stack, [], _, _ => by rw [jsonSerializeSafeItems]
  | stack, v :: vs, hjson, hdepth => by
    rw [isJsonItems, Bool.and_eq_true] at hjson
    rw [depthItems, Nat.max_le] at hdepth
    rw [jsonSerializeSafeItems, jsonSerializeSafe_of_isJson stack v hjson.1 hdepth.1,
      Option.bind_some, jsonSerializeSafeItems_of_isJson stack vs hjson.2 hdepth.2, Option.map_some]

theorem jsonSerializeSafeEntries_of_isJson : ∀ (stack : ℕ) (items : List (PyObject × PyObject)),
    isJsonEntries items = true → depthEntries items ≤ stack →
      ∃ entries, jsonSerializeSafeEntries p stack items = some entries ∧ ofEntries entries = items
  | stack, [], _, _ => ⟨[], by rw [jsonSerializeSafeEntries], rfl⟩
  | stack, (k, v) :: items, hjson, hdepth => by
    rw [isJsonEntries, Bool.and_eq_true, Bool.and_eq_true, Option.isSome_iff_exists] at hjson
    obtain ⟨⟨⟨text, htext⟩, hv⟩, hitems⟩ := hjson
    rw [depthEntries, Nat.max_le] at hdepth
    obtain ⟨entries, hentries, rfl⟩ :=
      jsonSerializeSafeEntries_of_isJson stack items hitems hdepth.2
    have hkept := jsonSerializeSafe_of_isJson stack v hv hdepth.1
    refine ⟨(text, v) :: entries, ?_, ?_⟩
    · rw [jsonSerializeSafeEntries, eq_ofKey_of_keyText htext, ofKey, p.str_str, Option.bind_some,
        hkept, Option.bind_some, hentries, Option.map_some]
    · rw [eq_ofKey_of_keyText htext]
      rfl

end

/-! ## The normaliser -/

/-- There is a result, it is a value of JSON, a second run keeps it, and a value of JSON is its own
result. -/
def Normalises (stack : ℕ) (v : PyObject) : Prop :=
  ∃ out, jsonSerializeSafe p stack v = some out ∧ isJson out = true ∧
    jsonSerializeSafe p stack out = some out ∧ (isJson v = true → out = v)

def namedPrinter : Printer where
  str
    | .scalar (.str s) _ => some s
    | .other name => some (PyText.ofString name)
    | _ => none
  str_str _ := rfl

mutual

def ofPy : PyValue → PyObject
  | .null => .scalar .none none
  | .bool b => .scalar (.bool b) none
  | .int n => .scalar (.int n) none
  | .float f => .scalar (.float (.finite f)) none
  | .str s => ofKey (PyText.ofString s)
  | .list items => .collection .list (ofPyElements items)
  | .dict items => .dict none (ofEntries (dictOf (ofPyItems items)))
  | .set items => .collection .set (ofPyElements items)
  | .other text => .other text

def ofPyElements : List PyValue → List PyObject
  | [] => []
  | v :: vs => ofPy v :: ofPyElements vs

def ofPyItems : List (String × PyValue) → List (PyText × PyObject)
  | [] => []
  | (k, v) :: items => (PyText.ofString k, ofPy v) :: ofPyItems items

end

def keyed (items : List (String × PyValue)) : List (PyText × PyValue) :=
  items.map fun x => (PyText.ofString x.1, x.2)

theorem ofPyItems_eq (items : List (String × PyValue)) :
    ofPyItems items = (keyed items).map (Prod.map id ofPy) := by
  induction items with
  | nil => rw [ofPyItems]; rfl
  | cons x items ih => rw [ofPyItems, ih]; rfl

theorem keyed_jsonSerializeSafeItems (items : List (String × PyValue)) :
    keyed (DeadLetter.jsonSerializeSafeItems items) =
      (keyed items).map (Prod.map id DeadLetter.jsonSerializeSafe) := by
  induction items with
  | nil => rw [DeadLetter.jsonSerializeSafeItems]; rfl
  | cons x items ih =>
    rw [DeadLetter.jsonSerializeSafeItems]
    exact congrArg (_ :: ·) ih

theorem depth_le_of_mem {entries : List (PyText × PyObject)} {stack : ℕ}
    (h : depthEntries (ofEntries entries) ≤ stack) : ∀ x ∈ entries, depth x.2 ≤ stack := by
  induction entries with
  | nil => exact nofun
  | cons x entries ih =>
    obtain ⟨hx, hrest⟩ := Nat.max_le.mp h
    exact List.forall_mem_cons.mpr ⟨hx, ih hrest⟩

/-- Entries are converted one by one. -/
theorem jsonSerializeSafeEntries_ofEntries {stack : ℕ} {ν : Type} (object result : ν → PyObject)
    {entries : List (PyText × ν)}
    (h : ∀ x ∈ entries, jsonSerializeSafe p stack (object x.2) = some (result x.2)) :
    jsonSerializeSafeEntries p stack (ofEntries (entries.map (Prod.map id object))) =
      some (entries.map (Prod.map id result)) := by
  induction entries with
  | nil =>
    change jsonSerializeSafeEntries p stack [] = _
    rw [jsonSerializeSafeEntries]
    rfl
  | cons x entries ih =>
    obtain ⟨hx, hrest⟩ := List.forall_mem_cons.mp h
    change jsonSerializeSafeEntries p stack
      ((ofKey x.1, object x.2) :: ofEntries (entries.map (Prod.map id object))) = _
    rw [jsonSerializeSafeEntries, ofKey, p.str_str, Option.bind_some, hx, Option.bind_some, ih hrest]
    rfl

def Printer.PrintsNames : Prop := ∀ name, p.str (.other name) = some (PyText.ofString name)

section payloads
variable {p}

mutual

/-- The values of dead letters are such objects, and the function does the same to them. -/
theorem jsonSerializeSafe_ofPy (hnames : p.PrintsNames) :
    ∀ (stack : ℕ) (v : PyValue), depth (ofPy v) ≤ stack →
      jsonSerializeSafe p stack (ofPy v) = some (ofPy (DeadLetter.jsonSerializeSafe v))
  | 0, v, hdepth => absurd hdepth (Nat.not_le.mpr (depth_pos (ofPy v)))
  | _ + 1, .null, _ => rfl
  | _ + 1, .bool _, _ => rfl
  | _ + 1, .int _, _ => rfl
  | _ + 1, .float _, _ => rfl
  | _ + 1, .str _, _ => rfl
  | stack + 1, .list items, hdepth => by
    rw [ofPy] at hdepth
    rw [DeadLetter.jsonSerializeSafe, ofPy, ofPy, jsonSerializeSafe,
      jsonSerializeSafeItems_ofPyElements hnames stack items (Nat.le_of_succ_le_succ hdepth),
      Option.map_some]
  | stack + 1, .set items, hdepth => by
    rw [ofPy] at hdepth
    rw [DeadLetter.jsonSerializeSafe, ofPy, ofPy, jsonSerializeSafe,
      jsonSerializeSafeItems_ofPyElements hnames stack items (Nat.le_of_succ_le_succ hdepth),
      Option.map_some]
  | stack + 1, .dict items, hdepth => by
    rw [ofPy] at hdepth
    have hle := depth_le_of_mem (Nat.le_of_succ_le_succ hdepth)
    rw [ofPyItems_eq, ← map_dictOf] at hle
    have heach : ∀ x ∈ dictOf (keyed items), jsonSerializeSafe p stack (ofPy x.2) =
        some (ofPy (DeadLetter.jsonSerializeSafe x.2)) := by
      intro x hx
      obtain ⟨y, hy, rfl⟩ := List.mem_map.mp (mem_of_mem_dictOf hx)
      exact jsonSerializeSafe_ofPyItems hnames stack items y hy (hle _ (List.mem_map_of_mem hx))
    rw [DeadLetter.jsonSerializeSafe, ofPy, ofPy, jsonSerializeSafe, ofPyItems_eq, ← map_dictOf,
      jsonSerializeSafeEntries_ofEntries p ofPy (fun v => ofPy (DeadLetter.jsonSerializeSafe v)) heach,
      Option.map_some, map_dictOf, dictOf_of_nodup (nodup_dictOf _), ofPyItems_eq,
      keyed_jsonSerializeSafeItems, List.map_map]
    rfl
  | _ + 1, .other text, _ => by
    rw [DeadLetter.jsonSerializeSafe, ofPy, ofPy, jsonSerializeSafe, hnames, Option.map_some]

theorem jsonSerializeSafeItems_ofPyElements (hnames : p.PrintsNames) :
    ∀ (stack : ℕ) (vs : List PyValue), depthItems (ofPyElements vs) ≤ stack →
      jsonSerializeSafeItems p stack (ofPyElements vs) =
        some (ofPyElements (DeadLetter.jsonSerializeSafeElements vs))
  | stack, [], _ => by
    rw [DeadLetter.jsonSerializeSafeElements, ofPyElements, jsonSerializeSafeItems]
  | stack, v :: vs, hdepth => by
    rw [ofPyElements, depthItems, Nat.max_le] at hdepth
    rw [DeadLetter.jsonSerializeSafeElements, ofPyElements, ofPyElements, jsonSerializeSafeItems,
      jsonSerializeSafe_ofPy hnames stack v hdepth.1, Option.bind_some,
      jsonSerializeSafeItems_ofPyElements hnames stack vs hdepth.2, Option.map_some]

theorem jsonSerializeSafe_ofPyItems (hnames : p.PrintsNames) :
    ∀ (stack : ℕ) (items : List (String × PyValue)), ∀ x ∈ items, depth (ofPy x.2) ≤ stack →
      jsonSerializeSafe p stack (ofPy x.2) = some (ofPy (DeadLetter.jsonSerializeSafe x.2))
  | _, [], _, hx, _ => by cases hx
  | stack, (k, v) :: items, x, hx, hdepth => by
    rcases List.mem_cons.mp hx with rfl | hx
    · exact jsonSerializeSafe_ofPy hnames stack v hdepth
    · exact jsonSerializeSafe_ofPyItems hnames stack items x hx hdepth

end

end payloads

end FastapiTemplate.Serialization
