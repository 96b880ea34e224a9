import FastapiTemplate.CompactJson

/-!
# Models with schemas

Python objects, and the classes of models that say what the fields are. A model is built from a record
without looking at the values (`construct`), dumped to a JSON value by what its values are, and read
back by its schema (`validate`). What the scalars accept and their texts are parameters; a scalar takes
an instance of its own, and the text of one, back to the instance.
-/

namespace FastapiTemplate

structure ModelClass where
  name : String
  excluded : List String
  deriving DecidableEq

inductive PyObject (U D : Type)
  | null
  | bool (b : Bool)
  | int (n : ℤ)
  | float (f : FloatText)
  | str (s : String)
  | uuid (u : U)
  | datetime (d : D)
  | list (items : List (PyObject U D))
  | dict (items : List (String × PyObject U D))
  | model (cls : ModelClass) (fields : List (String × PyObject U D))

inductive ScalarSchema
  | bool
  | int
  | str
  | uuid
  | datetime

/-- The default of a field; `now` is a factory. -/
inductive FieldDefault
  | null
  | bool (b : Bool)
  | int (n : ℤ)
  | emptyList
  | now

inductive Schema
  | scalar (k : ScalarSchema)
  | optional (s : Schema)
  | list (s : Schema)
  | model (cls : ModelClass) (fields : List (String × Schema × Option FieldDefault))

abbrev SchemaFields := List (String × Schema × Option FieldDefault)

variable {U D : Type}

namespace PyObject

def ofOption {α : Type} (f : α → PyObject U D) : Option α → PyObject U D
  | none => .null
  | some a => f a

def get? (items : List (String × PyObject U D)) (key : String) : Option (PyObject U D) :=
  (items.find? (·.1 = key)).map (·.2)

theorem get?_cons_self (key : String) (x : PyObject U D) (items : List (String × PyObject U D)) :
    get? ((key, x) :: items) key = some x := by
  simp [get?]

theorem get?_cons_of_ne {key other : String} (h : other ≠ key) (x : PyObject U D)
    (items : List (String × PyObject U D)) : get? ((other, x) :: items) key = get? items key := by
  simp [get?, h]

def IsScalar : ScalarSchema → PyObject U D → Prop
  | .bool, .bool _ => True
  | .int, .int _ => True
  | .str, .str _ => True
  | .uuid, .uuid _ => True
  | .datetime, .datetime _ => True
  | _, _ => False

mutual

def ofJson : PyValue → PyObject U D
  | .null => .null
  | .bool b => .bool b
  | .int n => .int n
  | .float f => .float f
  | .str s => .str s
  | .list items => .list (ofJsonElements items)
  | .dict items => .dict (ofJsonItems items)
  | .set _ => .null
  | .other _ => .null

def ofJsonElements : List PyValue → List (PyObject U D)
  | [] => []
  | v :: vs => ofJson v :: ofJsonElements vs

def ofJsonItems : List (String × PyValue) → List (String × PyObject U D)
  | [] => []
  | (k, v) :: items => (k, ofJson v) :: ofJsonItems items

end

end PyObject

def FieldDefault.value (now : D) : FieldDefault → PyObject U D
  | .null => .null
  | .bool b => .bool b
  | .int n => .int n
  | .emptyList => .list []
  | .now => .datetime now

structure ScalarRules (U D : Type) where
  uuidText : U → String
  datetimeText : D → String
  accepts : ScalarSchema → PyObject U D → Option (PyObject U D)
  accepts_instance : ∀ k x, x.IsScalar k → accepts k x = some x
  accepts_uuidText : ∀ u, accepts .uuid (.str (uuidText u)) = some (.uuid u)
  accepts_datetimeText : ∀ d, accepts .datetime (.str (datetimeText d)) = some (.datetime d)
  accepts_null : ∀ k, accepts k .null = none

/-- `model_construct`: a field that is neither given nor has a default is not set. -/
def construct (now : D) (cls : ModelClass) (fields : SchemaFields)
    (record : List (String × PyObject U D)) : PyObject U D :=
  .model cls (fields.filterMap (fun (name, _, default) =>
    ((PyObject.get? record name).orElse (fun _ => default.map (·.value now))).map (name, ·)))

namespace ScalarRules

variable (P : ScalarRules U D) (now : D)

mutual

/-- `model_dump(mode="json")`, and `model_dump_json` before it is a text: by the value, whatever the
schema says. -/
def dump : PyObject U D → PyValue
  | .null => .null
  | .bool b => .bool b
  | .int n => .int n
  | .float f => .float f
  | .str s => .str s
  | .uuid u => .str (P.uuidText u)
  | .datetime d => .str (P.datetimeText d)
  | .list items => .list (dumpElements items)
  | .dict items => .dict (dumpItems [] items)
  | .model cls fields => .dict (dumpItems cls.excluded fields)

def dumpElements : List (PyObject U D) → List PyValue
  | [] => []
  | x :: xs => dump x :: dumpElements xs

def dumpItems (excluded : List String) : List (String × PyObject U D) → List (String × PyValue)
  | [] => []
  | (k, x) :: items =>
    if k ∈ excluded then dumpItems excluded items else (k, dump x) :: dumpItems excluded items

end

mutual

/-- `model_validate`. An instance of the class is taken as it is; another model by its attributes. -/
def validate : Schema → PyObject U D → Option (PyObject U D)
  | .scalar k, x => P.accepts k x
  | .optional _, .null => some .null
  | .optional s, x => validate s x
  | .list s, .list items => (items.mapM (validate s)).map .list
  | .list _, _ => none
  | .model cls fields, .model cls' given =>
    if cls' = cls then some (.model cls given) else (validateFields fields given).map (.model cls)
  | .model cls fields, .dict items => (validateFields fields items).map (.model cls)
  | .model .., _ => none

def validateFields : SchemaFields → List (String × PyObject U D) → Option (List (String × PyObject U D))
  | [], _ => some []
  | (name, s, default) :: fields, items => do
    let x ← match PyObject.get? items name with
      | some x => validate s x
      | none => default.map (·.value now)
    let xs ← validateFields fields items
    pure ((name, x) :: xs)

end

/-! ## Round trips -/

mutual

def Fits : Schema → PyObject U D → Prop
  | .scalar k, x => x.IsScalar k
  | .optional s, x => x = .null ∨ Fits s x
  | .list s, .list items => ∀ x ∈ items, Fits s x
  | .list _, _ => False
  | .model cls fields, .model cls' given => cls' = cls ∧ FieldsFit fields given
  | .model .., _ => False

def FieldsFit : SchemaFields → List (String × PyObject U D) → Prop
  | [], given => given = []
  | _ :: _, [] => False
  | (name, s, _) :: fields, (k, x) :: given => k = name ∧ Fits s x ∧ FieldsFit fields given

end

mutual

def masked : Schema → PyObject U D → PyObject U D
  | .optional s, x => masked s x
  | .list s, .list items => .list (items.map (masked s))
  | .model cls fields, .model _ given => .model cls (maskFields cls.excluded fields given)
  | _, x => x

def maskFields (excluded : List String) :
    SchemaFields → List (String × PyObject U D) → List (String × PyObject U D)
  | (_, s, default) :: fields, (k, x) :: given =>
    (k, if k ∈ excluded then (default.map (·.value now)).getD x else masked s x) ::
      maskFields excluded fields given
  | _, given => given

end

end ScalarRules

mutual

/-- No two fields of a model have one name, and excluded fields have a default. -/
def Schema.wellFormed : Schema → Bool
  | .scalar _ => true
  | .optional s => s.wellFormed
  | .list s => s.wellFormed
  | .model cls fields => (fields.map (·.1)).Nodup && fieldsWellFormed cls.excluded fields

def fieldsWellFormed (excluded : List String) : SchemaFields → Bool
  | [] => true
  | (name, s, default) :: fields =>
    s.wellFormed && (name ∉ excluded || default.isSome) && fieldsWellFormed excluded fields

end

namespace ScalarRules

variable {P : ScalarRules U D} {now : D}

mutual

theorem jsonable_dump : ∀ x : PyObject U D, (P.dump x).jsonable = true
  | .null | .bool _ | .int _ | .float _ | .str _ | .uuid _ | .datetime _ => by
    simp only [dump, PyValue.jsonable]
  | .list items => by
    rw [dump, PyValue.jsonable]
    exact jsonable_dumpElements items
  | .dict items => by
    rw [dump, PyValue.jsonable]
    exact jsonable_dumpItems [] items
  | .model cls fields => by
    rw [dump, PyValue.jsonable]
    exact jsonable_dumpItems cls.excluded fields

theorem jsonable_dumpElements :
    ∀ xs : List (PyObject U D), PyValue.jsonableElements (P.dumpElements xs) = true
  | [] => rfl
  | x :: xs => by
    rw [dumpElements, PyValue.jsonableElements, jsonable_dump x, jsonable_dumpElements xs]
    rfl

theorem jsonable_dumpItems (excluded : List String) : ∀ items : List (String × PyObject U D),
    PyValue.jsonableItems (P.dumpItems excluded items) = true
  | [] => rfl
  | (k, x) :: items => by
    rw [dumpItems]
    split_ifs
    · exact jsonable_dumpItems excluded items
    · rw [PyValue.jsonableItems, jsonable_dump x, jsonable_dumpItems excluded items]
      rfl

end

theorem FieldsFit.names {fields : SchemaFields} {given : List (String × PyObject U D)}
    (h : FieldsFit fields given) : given.map (·.1) = fields.map (·.1) := by
  induction fields generalizing given with
  | nil =>
    rw [FieldsFit] at h
    rw [h]
    rfl
  | cons field fields ih =>
    cases given with
    | nil => exact absurd h (by simp [FieldsFit])
    | cons x given =>
      rw [FieldsFit] at h
      rw [List.map_cons, List.map_cons, h.1, ih h.2.2]

theorem dumpItems_names_sublist (excluded : List String) (items : List (String × PyObject U D)) :
    ((P.dumpItems excluded items).map (·.1)).Sublist (items.map (·.1)) := by
  induction items with
  | nil => exact List.Sublist.refl _
  | cons x items ih =>
    rw [dumpItems]
    split_ifs
    · exact ih.cons _
    · exact ih.cons_cons _

theorem get?_of_notMem {k : String} {items : List (String × PyObject U D)}
    (h : k ∉ items.map (·.1)) : PyObject.get? items k = none := by
  rw [PyObject.get?, Option.map_eq_none_iff, List.find?_eq_none]
  intro x hx
  rw [decide_eq_true_eq]
  exact fun heq => h (heq ▸ List.mem_map_of_mem hx)

theorem ofJsonItems_names (items : List (String × PyValue)) :
    (PyObject.ofJsonItems (U := U) (D := D) items).map (·.1) = items.map (·.1) := by
  induction items with
  | nil => rfl
  | cons x items ih => rw [PyObject.ofJsonItems, List.map_cons, List.map_cons, ih]

/-- A field of the dump is looked up under its name. -/
theorem get?_dumpItems {excluded : List String} {items : List (String × PyObject U D)}
    (hnodup : (items.map (·.1)).Nodup) {k : String} {x : PyObject U D} (hx : (k, x) ∈ items) :
    PyObject.get? (PyObject.ofJsonItems (P.dumpItems excluded items)) k =
      if k ∈ excluded then none else some (PyObject.ofJson (U := U) (D := D) (P.dump x)) := by
  induction items with
  | nil => cases hx
  | cons y items ih =>
    obtain ⟨hy, hrest⟩ := List.nodup_cons.mp hnodup
    rw [dumpItems]
    rcases List.mem_cons.mp hx with rfl | hx
    · split_ifs
      · apply get?_of_notMem
        rw [ofJsonItems_names]
        exact fun hmem => hy ((dumpItems_names_sublist excluded items).subset hmem)
      · exact PyObject.get?_cons_self ..
    · have hne : y.1 ≠ k := by
        rintro rfl
        exact hy (List.mem_map.mpr ⟨_, hx, rfl⟩)
      split_ifs with hexcluded hk hk
      · rw [ih hrest hx, if_pos hk]
      · rw [ih hrest hx, if_neg hk]
      · rw [PyObject.ofJsonItems, PyObject.get?_cons_of_ne hne, ih hrest hx, if_pos hk]
      · rw [PyObject.ofJsonItems, PyObject.get?_cons_of_ne hne, ih hrest hx, if_neg hk]

theorem keysApart_of_isScalar {k : ScalarSchema} {x : PyObject U D} (hx : x.IsScalar k) :
    (P.dump x).keysApart = true := by
  cases x with
  | list | dict | model => cases k <;> cases hx
  | _ => rfl

theorem keysApart_dumpElements {xs : List (PyObject U D)}
    (h : ∀ x ∈ xs, (P.dump x).keysApart = true) :
    PyValue.keysApartElements (P.dumpElements xs) = true := by
  induction xs with
  | nil => rfl
  | cons x xs ih =>
    rw [dumpElements, PyValue.keysApartElements, h x List.mem_cons_self,
      ih (fun y hy => h y (List.mem_cons_of_mem x hy))]
    rfl

mutual

theorem keysApart_dump : ∀ (s : Schema) (x : PyObject U D), s.wellFormed = true → Fits s x →
    (P.dump x).keysApart = true
  | .scalar k, x, _, hx => by
    rw [Fits] at hx
    exact keysApart_of_isScalar hx
  | .optional s, x, hs, hx => by
    rw [Schema.wellFormed] at hs
    rw [Fits] at hx
    rcases hx with rfl | hx
    · rfl
    · exact keysApart_dump s x hs hx
  | .list s, x, hs, hx => by
    cases x with
    | list items =>
      rw [Schema.wellFormed] at hs
      rw [Fits] at hx
      rw [dump, PyValue.keysApart]
      exact keysApart_dumpElements (fun y hy => keysApart_dump s y hs (hx y hy))
    | _ => exact absurd hx (by simp [Fits])
  | .model cls fields, x, hs, hx => by
    cases x with
    | model cls' given =>
      rw [Schema.wellFormed, Bool.and_eq_true, decide_eq_true_eq] at hs
      rw [Fits] at hx
      rw [dump, PyValue.keysApart, Bool.and_eq_true, decide_eq_true_eq, hx.1]
      refine ⟨?_, keysApart_dumpItems fields given hs.2 hx.2⟩
      rw [← hx.2.names] at hs
      exact (dumpItems_names_sublist cls.excluded given).nodup hs.1
    | _ => exact absurd hx (by simp [Fits])

theorem keysApart_dumpItems {excluded : List String} : ∀ (fields : SchemaFields)
    (given : List (String × PyObject U D)), fieldsWellFormed excluded fields = true →
    FieldsFit fields given → PyValue.keysApartItems (P.dumpItems excluded given) = true
  | [], given, _, hgiven => by
    rw [FieldsFit] at hgiven
    rw [hgiven]
    rfl
  | (name, s, default) :: fields, [], _, hgiven => absurd hgiven (by simp [FieldsFit])
  | (name, s, default) :: fields, (k, x) :: given, hfields, hgiven => by
    rw [fieldsWellFormed, Bool.and_eq_true, Bool.and_eq_true] at hfields
    rw [FieldsFit] at hgiven
    have hrest := keysApart_dumpItems fields given hfields.2 hgiven.2.2
    rw [dumpItems]
    split_ifs
    · exact hrest
    · rw [PyValue.keysApartItems, keysApart_dump s x hfields.1.1 hgiven.2.1, hrest]
      rfl

end

/-- The dump of a value of the schema is a JSON value. -/
theorem isJson_dump {s : Schema} {x : PyObject U D} (hs : s.wellFormed = true) (hx : Fits s x) :
    (P.dump x).IsJson := ⟨jsonable_dump x, keysApart_dump s x hs hx⟩

/-! ## Reading back -/

theorem accepts_dump {k : ScalarSchema} {x : PyObject U D} (hx : x.IsScalar k) :
    P.accepts k (PyObject.ofJson (P.dump x)) = some x := by
  cases x with
  | uuid u =>
    cases k with
    | uuid => exact P.accepts_uuidText u
    | _ => cases hx
  | datetime d =>
    cases k with
    | datetime => exact P.accepts_datetimeText d
    | _ => cases hx
  | list | dict | model => cases k <;> cases hx
  | _ => exact P.accepts_instance k _ hx

theorem validate_optional (s : Schema) {x : PyObject U D} (hx : x ≠ .null) :
    P.validate now (.optional s) x = P.validate now s x := by
  cases x with
  | null => exact absurd rfl hx
  | _ => rw [validate]; simp

theorem masked_scalar (k : ScalarSchema) (x : PyObject U D) : masked now (.scalar k) x = x := by
  simp [masked]

theorem masked_null : ∀ s : Schema, masked now s (.null : PyObject U D) = .null
  | .scalar _ => by simp [masked]
  | .optional s => by
    rw [masked]
    exact masked_null s
  | .list _ => by simp [masked]
  | .model .. => by simp [masked]

theorem ofJson_dump_ne_null {x : PyObject U D} (hx : x ≠ .null) :
    PyObject.ofJson (U := U) (D := D) (P.dump x) ≠ .null := by
  cases x with
  | null => exact absurd rfl hx
  | _ => nofun

theorem mapM_eq_some {X Y : Type} {f : X → Option Y} {g : X → Y} {xs : List X}
    (h : ∀ x ∈ xs, f x = some (g x)) : xs.mapM f = some (xs.map g) := by
  induction xs with
  | nil => rfl
  | cons x xs ih =>
    rw [List.mapM_cons, h x List.mem_cons_self, ih (fun y hy => h y (List.mem_cons_of_mem x hy))]
    rfl

theorem mapM_eq_none {X Y : Type} {f : X → Option Y} {xs : List X} {x : X} (hx : x ∈ xs)
    (h : f x = none) : xs.mapM f = none := by
  induction xs with
  | nil => cases hx
  | cons y xs ih =>
    rw [List.mapM_cons]
    rcases List.mem_cons.mp hx with rfl | hx
    · rw [h]
      rfl
    · rw [ih hx]
      cases f y <;> rfl

theorem dumpElements_eq_map (items : List (PyObject U D)) : P.dumpElements items = items.map P.dump := by
  induction items with
  | nil => rfl
  | cons x items ih => rw [dumpElements, ih, List.map_cons]

theorem ofJsonElements_eq_map (vs : List PyValue) :
    PyObject.ofJsonElements (U := U) (D := D) vs = vs.map PyObject.ofJson := by
  induction vs with
  | nil => rfl
  | cons v vs ih => rw [PyObject.ofJsonElements, ih, List.map_cons]

theorem validate_elements {s : Schema} {f : PyObject U D → PyObject U D} {xs : List (PyObject U D)}
    (h : ∀ x ∈ xs, P.validate now s (PyObject.ofJson (P.dump x)) = some (f x)) :
    (PyObject.ofJsonElements (P.dumpElements xs)).mapM (P.validate now s) = some (xs.map f) := by
  rw [dumpElements_eq_map, ofJsonElements_eq_map, List.mapM_map, List.mapM_map]
  exact mapM_eq_some h

mutual

theorem validate_dump : ∀ (s : Schema) (x : PyObject U D), s.wellFormed = true → Fits s x →
    P.validate now s (PyObject.ofJson (P.dump x)) = some (masked now s x)
  | .scalar k, x, _, hx => by
    rw [Fits] at hx
    rw [validate, accepts_dump hx, masked_scalar]
  | .optional s, x, hs, hx => by
    rw [Schema.wellFormed] at hs
    rw [Fits] at hx
    by_cases hnull : x = .null
    · rw [hnull, masked_null]
      rfl
    · rw [validate_optional s (ofJson_dump_ne_null hnull), masked]
      exact validate_dump s x hs (hx.resolve_left hnull)
  | .list s, x, hs, hx => by
    cases x with
    | list items =>
      rw [Schema.wellFormed] at hs
      rw [Fits] at hx
      rw [dump, PyObject.ofJson, validate,
        validate_elements (fun y hy => validate_dump s y hs (hx y hy)), masked]
      rfl
    | _ => exact absurd hx (by simp [Fits])
  | .model cls fields, x, hs, hx => by
    cases x with
    | model cls' given =>
      rw [Schema.wellFormed, Bool.and_eq_true, decide_eq_true_eq] at hs
      rw [Fits] at hx
      have hnodup : (given.map (·.1)).Nodup := hx.2.names ▸ hs.1
      rw [dump, PyObject.ofJson, validate, hx.1, masked,
        validateFields_dump fields given _ hs.2 hx.2 (fun k y hy => get?_dumpItems hnodup hy)]
      rfl
    | _ => exact absurd hx (by simp [Fits])

/-- The fields are looked up in the whole dump; the induction is on those that are left. -/
theorem validateFields_dump {excluded : List String} : ∀ (fields : SchemaFields)
    (given items : List (String × PyObject U D)), fieldsWellFormed excluded fields = true →
    FieldsFit fields given →
    (∀ k x, (k, x) ∈ given → PyObject.get? items k =
      if k ∈ excluded then none else some (PyObject.ofJson (P.dump x))) →
    P.validateFields now fields items = some (maskFields now excluded fields given)
  | [], given, items, _, hgiven, _ => by
    rw [FieldsFit] at hgiven
    rw [hgiven, validateFields, maskFields]
    simp
  | (name, s, default) :: fields, [], items, _, hgiven, _ => absurd hgiven (by simp [FieldsFit])
  | (name, s, default) :: fields, (k, x) :: given, items, hfields, hgiven, hitems => by
    rw [fieldsWellFormed, Bool.and_eq_true, Bool.and_eq_true] at hfields
    rw [FieldsFit] at hgiven
    obtain ⟨rfl, hx, hgiven⟩ := hgiven
    have hrest := validateFields_dump fields given items hfields.2 hgiven
      (fun k' y hy => hitems k' y (List.mem_cons_of_mem _ hy))
    rw [validateFields, hitems k x List.mem_cons_self, hrest, maskFields]
    split_ifs with hexcluded
    · obtain ⟨d, rfl⟩ : ∃ d, default = some d := by
        simpa [hexcluded, Option.isSome_iff_exists] using hfields.1.2
      rfl
    · simp only [validate_dump s x hfields.1.1 hx]
      rfl

end

end ScalarRules

end FastapiTemplate
