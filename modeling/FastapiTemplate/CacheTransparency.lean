import FastapiTemplate.CacheDecorator

/-!
# Values that come out of the cache

An entry that a call has filled is read back as the value that the function has returned, with the
defaults of the fields that no dump includes. `get_role_by_id` builds its role without validation, so
that the permissions, which come out of the cache as models, are dictionaries before.
-/

namespace FastapiTemplate.Caching

open ScalarRules

variable {U D : Type}

section entries
variable {P : ScalarRules U D} {now : D} {key : String} {hashKey : Option String} {model : Schema}
  {value : PyObject U D}

theorem getFromCache_saved {serializedData : String} (h : serialized P value = some serializedData)
    (s : Store) : getFromCache P now key hashKey (some model) (saveToCache P key hashKey value s) =
      deserialized P now (some model) serializedData := by
  rw [getFromCache, saveToCache, h]
  simp

/-- What is read back of a model. -/
theorem deserialized_model {cls : ModelClass} {fields : List (String × PyObject U D)}
    (hjson : (P.dump (.model cls fields)).IsJson) :
    deserialized P now (some model) (String.ofList (P.dump (.model cls fields)).compactText) =
      P.validate now model (.ofJson (P.dump (.model cls fields))) := by
  have hne : String.ofList (P.dump (.model cls fields)).compactText ≠ "" := by
    obtain ⟨c, cs, htext, -⟩ := PyValue.beginsValue_compactText _ hjson.1
    rw [htext]
    simp
  rw [deserialized, if_neg hne, PyValue.loads_compactText hjson, dump]
  rfl

/-- What is read back of a list of models. -/
theorem deserialized_list {items : List (PyObject U D)}
    (hmodels : ∀ x ∈ items, ∃ cls fields, x = .model cls fields)
    (hjson : ∀ x ∈ items, (P.dump x).IsJson) :
    ∃ serializedData, serialized P (.list items) = some serializedData ∧
      deserialized P now (some model) serializedData =
        (items.mapM (fun x => P.validate now model (.ofJson (P.dump x)))).map .list := by
  have hitems : items.map (serializeItem P) = items.map P.dump := by
    apply List.map_congr_left
    intro x hx
    obtain ⟨cls, fields, rfl⟩ := hmodels x hx
    rfl
  have hlist : (PyValue.list (items.map P.dump)).IsJson := by
    rw [← dumpElements_eq_map]
    exact ⟨jsonable_dumpElements items, keysApart_dumpElements (fun x hx => (hjson x hx).2)⟩
  obtain ⟨serializedData, hdumps, hloads⟩ := PyValue.loads_of_dumps hlist
  refine ⟨serializedData, ?_, ?_⟩
  · rw [serialized, hitems, hdumps]
  · have hne : serializedData ≠ "" := by
      rintro rfl
      cases hloads
    rw [deserialized, if_neg hne, hloads, Option.bind_some]
    simp only [List.mapM_map]
    rfl

/-- A model of the schema is read back with the defaults of what is left out. -/
theorem getFromCache_model {cls : ModelClass} {fields : SchemaFields}
    (hmodel : (Schema.model cls fields).wellFormed = true) (hvalue : Fits (.model cls fields) value)
    (s : Store) : getFromCache P now key hashKey (some (.model cls fields))
      (saveToCache P key hashKey value s) = some (masked now (.model cls fields) value) := by
  cases value with
  | model cls' given =>
    rw [getFromCache_saved rfl, deserialized_model (isJson_dump hmodel hvalue),
      validate_dump _ _ hmodel hvalue]
  | _ => exact absurd hvalue (by simp [Fits])

/-- So is a list of them. -/
theorem getFromCache_list {cls : ModelClass} {fields : SchemaFields} {items : List (PyObject U D)}
    (hmodel : (Schema.model cls fields).wellFormed = true)
    (hitems : ∀ x ∈ items, Fits (.model cls fields) x) (s : Store) :
    getFromCache P now key hashKey (some (.model cls fields)) (saveToCache P key hashKey (.list items) s) =
      some (.list (items.map (masked now (.model cls fields)))) := by
  have hmodels : ∀ x ∈ items, ∃ cls fields, x = .model cls fields := by
    intro x hx
    have hfits := hitems x hx
    cases x with
    | model cls' given => exact ⟨cls', given, rfl⟩
    | _ => exact absurd hfits (by simp [Fits])
  have hjson : ∀ x ∈ items, (P.dump x).IsJson := fun x hx => isJson_dump hmodel (hitems x hx)
  obtain ⟨serializedData, hserialized, hread⟩ := deserialized_list hmodels hjson
  rw [getFromCache_saved hserialized, hread,
    mapM_eq_some (fun x hx => validate_dump _ _ hmodel (hitems x hx))]
  rfl

end entries

/-! ## Results of the functions -/

def PermissionRow.permission (row : PermissionRow U D) : PyObject U D :=
  .model ⟨"PermissionData", []⟩ [("name", .str row.name), ("description", .ofOption .str row.description),
    ("id", .uuid row.id), ("created_at", .datetime row.createdAt)]

def RoleRow.role (row : RoleRow U D) (permissions : List (PyObject U D)) : PyObject U D :=
  .model ⟨"RoleData", []⟩ [("name", .str row.name), ("description", .ofOption .str row.description),
    ("id", .uuid row.id), ("created_at", .datetime row.createdAt),
    ("updated_at", .datetime row.updatedAt), ("permissions", .list permissions)]

section results
variable {P : TextRules U D} {now : D}

theorem fits_optional (k : ScalarSchema) {α : Type} (f : α → PyObject U D)
    (hf : ∀ a, (f a).IsScalar k) (o : Option α) :
    Fits (.optional (.scalar k)) (PyObject.ofOption f o) := by
  rw [Fits]
  cases o with
  | none => exact .inl rfl
  | some a =>
    right
    rw [Fits]
    exact hf a

theorem fits_str (o : Option String) : Fits (.optional (.scalar .str)) (.ofOption .str o : PyObject U D) :=
  fits_optional .str .str (fun _ => trivial) o

theorem fits_int (o : Option ℤ) : Fits (.optional (.scalar .int)) (.ofOption .int o : PyObject U D) :=
  fits_optional .int .int (fun _ => trivial) o

theorem fits_uuid (o : Option U) : Fits (.optional (.scalar .uuid)) (.ofOption .uuid o : PyObject U D) :=
  fits_optional .uuid .uuid (fun _ => trivial) o

theorem fits_datetime (o : Option D) :
    Fits (.optional (.scalar .datetime)) (.ofOption .datetime o : PyObject U D) :=
  fits_optional .datetime .datetime (fun _ => trivial) o

/-- A field that is given is validated. -/
theorem validateFields_given {name : String} {sch : Schema} {default : Option FieldDefault}
    {fields : SchemaFields} {items : List (String × PyObject U D)} {x y : PyObject U D}
    (hget : PyObject.get? items name = some x) (hx : P.validate now sch x = some y) :
    P.validateFields now ((name, sch, default) :: fields) items =
      (P.validateFields now fields items).map ((name, y) :: ·) := by
  rw [validateFields, hget]
  simp only [hx, Option.bind_eq_bind, Option.bind_some]
  cases P.validateFields now fields items <;> rfl

theorem validate_permission (row : PermissionRow U D) :
    P.validate now permissionData (.ofJson (row.json P)) = some row.permission := by
  have hname : P.validate now (.scalar .str) (.ofJson (.str row.name)) = some (.str row.name) :=
    P.accepts_instance _ _ trivial
  have hdescription : P.validate now (.optional (.scalar .str))
      (.ofJson (row.description.elim .null .str)) = some (.ofOption .str row.description) := by
    cases hrow : row.description with
    | none => rfl
    | some description => exact P.accepts_instance .str _ trivial
  have hid : P.validate now (.scalar .uuid) (.ofJson (.str (P.uuidText row.id))) = some (.uuid row.id) :=
    P.accepts_uuidText row.id
  have htime : P.validate now (.scalar .datetime) (.ofJson (.str (P.jsonTime row.createdAt))) =
      some (.datetime row.createdAt) := P.accepts_jsonTime row.createdAt
  rw [permissionData, PermissionRow.json, PyObject.ofJson, validate, validateFields_given rfl hname,
    validateFields_given rfl hdescription, validateFields_given rfl hid, validateFields_given rfl htime]
  rfl

/-- The permissions of a record, which are dictionaries, become models. -/
theorem validate_permissions (rows : List (PermissionRow U D)) :
    P.validate now (.list permissionData) (.list (rows.map (fun p => .ofJson (p.json P)))) =
      some (.list (rows.map (·.permission))) := by
  rw [validate, List.mapM_map, mapM_eq_some (g := (·.permission)) (fun p _ => validate_permission p)]
  rfl

theorem validate_roleRecord (row : RoleRow U D) : P.validate now roleData (.dict (row.record P)) =
    some (row.role (row.permissions.map (·.permission))) := by
  have hname : P.validate now (.scalar .str) (.str row.name) = some (.str row.name) :=
    P.accepts_instance _ _ trivial
  have hdescription : P.validate now (.optional (.scalar .str)) (.ofOption .str row.description) =
      some (.ofOption .str row.description) := by
    cases hrow : row.description with
    | none => rfl
    | some description => exact P.accepts_instance .str _ trivial
  have hid : P.validate now (.scalar .uuid) (.uuid row.id) = some (.uuid row.id) :=
    P.accepts_instance _ _ trivial
  have htime (d : D) : P.validate now (.scalar .datetime) (.datetime d) = some (.datetime d) :=
    P.accepts_instance _ _ trivial
  rw [roleData, roleDataFields, RoleRow.record, validate, validateFields_given rfl hname,
    validateFields_given rfl hdescription, validateFields_given rfl hid,
    validateFields_given rfl (htime row.createdAt), validateFields_given rfl (htime row.updatedAt),
    validateFields_given rfl (validate_permissions row.permissions)]
  rfl

theorem dump_permission (row : PermissionRow U D) :
    P.dump (.ofJson (row.json P) : PyObject U D) = row.json P := by
  cases hdescription : row.description <;>
    simp [PermissionRow.json, PyObject.ofJson, PyObject.ofJsonItems, dump, dumpItems, hdescription]

theorem keysApart_permission (row : PermissionRow U D) : (row.json P).keysApart = true := by
  cases hdescription : row.description <;>
    simp [PermissionRow.json, PyValue.keysApart, PyValue.keysApartItems, hdescription]

/-- A role whose permissions are dictionaries can be stored, -/
theorem isJson_builtRole (row : RoleRow U D) :
    (P.dump (row.role (row.permissions.map (fun p => .ofJson (p.json P))))).IsJson := by
  have hpermissions : PyValue.keysApartElements (P.dumpElements
      (row.permissions.map (fun p => (.ofJson (p.json P) : PyObject U D)))) = true := by
    apply keysApart_dumpElements
    intro x hx
    obtain ⟨p, -, rfl⟩ := List.mem_map.mp hx
    rw [dump_permission]
    exact keysApart_permission p
  have hdescription : (P.dump (.ofOption .str row.description)).keysApart = true := by
    cases row.description <;> rfl
  refine ⟨jsonable_dump _, ?_⟩
  simp [RoleRow.role, dump, dumpItems, PyValue.keysApart, PyValue.keysApartItems, hpermissions,
    hdescription]

/-- and is read back with models. -/
theorem validate_builtRole (row : RoleRow U D) : P.validate now roleData
    (.ofJson (P.dump (row.role (row.permissions.map (fun p => .ofJson (p.json P)))))) =
      some (row.role (row.permissions.map (·.permission))) := by
  have hname : P.validate now (.scalar .str) (.ofJson (P.dump (.str row.name))) = some (.str row.name) :=
    P.accepts_instance _ _ trivial
  have hdescription : P.validate now (.optional (.scalar .str))
      (.ofJson (P.dump (.ofOption .str row.description))) = some (.ofOption .str row.description) := by
    cases hrow : row.description with
    | none => rfl
    | some description => exact P.accepts_instance .str _ trivial
  have hid : P.validate now (.scalar .uuid) (.ofJson (P.dump (.uuid row.id))) = some (.uuid row.id) :=
    P.accepts_uuidText row.id
  have htime (d : D) : P.validate now (.scalar .datetime) (.ofJson (P.dump (.datetime d))) =
      some (.datetime d) := P.accepts_datetimeText d
  have hpermissions : P.validate now (.list permissionData) (.ofJson (P.dump (.list
      (row.permissions.map (fun p => .ofJson (p.json P)))))) =
        some (.list (row.permissions.map (·.permission))) := by
    rw [dump, dumpElements_eq_map, PyObject.ofJson, ofJsonElements_eq_map, List.map_map, List.map_map]
    have hback : ((PyObject.ofJson ∘ P.dump) ∘ fun p : PermissionRow U D => .ofJson (p.json P)) =
        fun p => (.ofJson (p.json P) : PyObject U D) :=
      funext (fun p => congrArg PyObject.ofJson (dump_permission p))
    rw [hback]
    exact validate_permissions row.permissions
  rw [roleData, roleDataFields, RoleRow.role, dump, PyObject.ofJson, validate,
    validateFields_given rfl hname, validateFields_given rfl hdescription,
    validateFields_given rfl hid, validateFields_given rfl (htime row.createdAt),
    validateFields_given rfl (htime row.updatedAt), validateFields_given rfl hpermissions]
  rfl

theorem construct_role (row : RoleRow U D) :
    construct now ⟨"RoleData", []⟩ roleDataFields (row.record P) =
      row.role (row.permissions.map (fun p => .ofJson (p.json P))) := by
  simp [construct, roleDataFields, RoleRow.record, RoleRow.role, PyObject.get?]

theorem construct_apiKey (row : ApiKeyRow U D) :
    construct now ⟨"ApiKeyData", ["hashed_key"]⟩ apiKeyDataFields row.record =
      .model ⟨"ApiKeyData", ["hashed_key"]⟩ row.record := by
  simp [construct, apiKeyDataFields, ApiKeyRow.record, PyObject.get?]

theorem construct_appVersion (row : AppVersionRow D) :
    construct now ⟨"AppVersionData", []⟩ appVersionDataFields row.record =
      (.model ⟨"AppVersionData", []⟩ row.record : PyObject U D) := by
  simp [construct, appVersionDataFields, AppVersionRow.record, PyObject.get?]

theorem construct_systemConfig (row : SystemConfigRow U D) :
    construct now ⟨"SystemConfigData", []⟩ systemConfigDataFields row.record =
      .model ⟨"SystemConfigData", []⟩ row.record := by
  simp [construct, systemConfigDataFields, SystemConfigRow.record, PyObject.get?]

/-! ## What fits the schemas -/

theorem fits_scalar {k : ScalarSchema} {x : PyObject U D} (hx : x.IsScalar k) :
    Fits (.scalar k) x := by
  rw [Fits]
  exact hx

theorem fits_permission (row : PermissionRow U D) : Fits permissionData row.permission := by
  rw [permissionData, PermissionRow.permission, Fits]
  simp only [FieldsFit, true_and, and_true]
  exact ⟨fits_scalar trivial, fits_str _, fits_scalar trivial, fits_scalar trivial⟩

theorem fits_role (row : RoleRow U D) : Fits roleData (row.role (row.permissions.map (·.permission))) := by
  rw [roleData, roleDataFields, RoleRow.role, Fits]
  simp only [FieldsFit, true_and, and_true]
  refine ⟨fits_scalar trivial, fits_str _, fits_scalar trivial, fits_scalar trivial,
    fits_scalar trivial, ?_⟩
  rw [Fits]
  intro x hx
  obtain ⟨p, -, rfl⟩ := List.mem_map.mp hx
  exact fits_permission p

theorem fits_apiKey {row : ApiKeyRow U D} (hscopes : none ∉ row.scopes) :
    Fits apiKeyData (.model ⟨"ApiKeyData", ["hashed_key"]⟩ row.record) := by
  rw [apiKeyData, apiKeyDataFields, ApiKeyRow.record, Fits]
  simp only [FieldsFit, true_and, and_true]
  refine ⟨fits_scalar trivial, fits_uuid _, fits_scalar trivial, fits_scalar trivial, ?_, ?_,
    fits_int _, fits_datetime _, fits_datetime _, fits_scalar trivial, fits_scalar trivial,
    fits_scalar trivial⟩
  · rw [Fits]
    exact .inr (fits_scalar trivial)
  · rw [Fits]
    intro x hx
    obtain ⟨scope, hmem, rfl⟩ := List.mem_map.mp hx
    cases scope with
    | none => exact absurd hmem hscopes
    | some scope => exact fits_scalar trivial

theorem fits_appVersion {row : AppVersionRow D} (hcreated : row.createdAt ≠ none)
    (hupdated : row.updatedAt ≠ none) :
    Fits appVersionData (.model ⟨"AppVersionData", []⟩ row.record : PyObject U D) := by
  obtain ⟨created, hcreated⟩ := Option.ne_none_iff_exists'.mp hcreated
  obtain ⟨updated, hupdated⟩ := Option.ne_none_iff_exists'.mp hupdated
  rw [appVersionData, appVersionDataFields, AppVersionRow.record, hcreated, hupdated, Fits]
  simp only [FieldsFit, true_and, and_true]
  exact ⟨fits_scalar trivial, fits_scalar trivial, fits_scalar trivial, fits_scalar trivial,
    fits_str _, fits_str _, fits_scalar trivial, fits_scalar trivial⟩

theorem fits_systemConfig (row : SystemConfigRow U D) :
    Fits systemConfigData (.model ⟨"SystemConfigData", []⟩ row.record) := by
  rw [systemConfigData, systemConfigDataFields, SystemConfigRow.record, Fits]
  simp only [FieldsFit, true_and, and_true]
  exact ⟨fits_scalar trivial, fits_scalar trivial, fits_scalar trivial, fits_uuid _⟩

/-! ## What is left out -/

theorem masked_role (row : RoleRow U D) :
    masked now roleData (row.role (row.permissions.map (·.permission))) =
      row.role (row.permissions.map (·.permission)) := by
  have hpermission (p : PermissionRow U D) : masked now permissionData p.permission = p.permission := by
    simp [permissionData, PermissionRow.permission, masked, maskFields]
  have hpermissions : (row.permissions.map (·.permission)).map (masked now permissionData) =
      row.permissions.map (·.permission) := by
    rw [List.map_map]
    exact List.map_congr_left (fun p _ => hpermission p)
  simp [roleData, roleDataFields, RoleRow.role, masked, maskFields, -List.map_map, hpermissions]

def withoutHash : PyObject U D → PyObject U D
  | .model cls fields => .model cls (fields.map (fun x => if x.1 = "hashed_key" then (x.1, .null) else x))
  | x => x

theorem masked_apiKey (row : ApiKeyRow U D) :
    masked now apiKeyData (.model ⟨"ApiKeyData", ["hashed_key"]⟩ row.record) =
      withoutHash (.model ⟨"ApiKeyData", ["hashed_key"]⟩ row.record) := by
  simp [apiKeyData, apiKeyDataFields, ApiKeyRow.record, masked, maskFields, withoutHash,
    FieldDefault.value]

theorem masked_appVersion (row : AppVersionRow D) :
    masked now appVersionData (.model ⟨"AppVersionData", []⟩ row.record : PyObject U D) =
      .model ⟨"AppVersionData", []⟩ row.record := by
  simp [appVersionData, appVersionDataFields, AppVersionRow.record, masked, maskFields]

theorem masked_systemConfig (row : SystemConfigRow U D) :
    masked now systemConfigData (.model ⟨"SystemConfigData", []⟩ row.record) =
      .model ⟨"SystemConfigData", []⟩ row.record := by
  simp [systemConfigData, systemConfigDataFields, SystemConfigRow.record, masked, maskFields]

/-! ## Entries that are never read -/

theorem validateFields_eq_none {fields : SchemaFields} {items : List (String × PyObject U D)}
    {name : String} {sch : Schema} {default : Option FieldDefault} {x : PyObject U D}
    (hmem : (name, sch, default) ∈ fields) (hget : PyObject.get? items name = some x)
    (hx : P.validate now sch x = none) : P.validateFields now fields items = none := by
  induction fields with
  | nil => cases hmem
  | cons field fields ih =>
    rw [validateFields]
    rcases List.mem_cons.mp hmem with rfl | hmem
    · simp only [hget, hx]
      rfl
    · rw [ih hmem]
      split <;> exact Option.bind_fun_none _

theorem keysApart_ofOption {α : Type} {f : α → PyObject U D} (hf : ∀ a, (P.dump (f a)).keysApart = true)
    (o : Option α) : (P.dump (.ofOption f o)).keysApart = true := by
  cases o with
  | none => rfl
  | some a => exact hf a

theorem isJson_appVersion (row : AppVersionRow D) :
    (P.dump (.model ⟨"AppVersionData", []⟩ row.record)).IsJson := by
  have hstr := keysApart_ofOption (P := P) (f := .str) (fun _ => rfl)
  have htime := keysApart_ofOption (P := P) (f := .datetime) (fun _ => rfl)
  refine ⟨jsonable_dump _, ?_⟩
  simp [AppVersionRow.record, dump, dumpItems, PyValue.keysApart, PyValue.keysApartItems, hstr, htime]

theorem isJson_apiKey (row : ApiKeyRow U D) :
    (P.dump (.model ⟨"ApiKeyData", ["hashed_key"]⟩ row.record)).IsJson := by
  have hstr := keysApart_ofOption (P := P) (f := .str) (fun _ => rfl)
  have hint := keysApart_ofOption (P := P) (f := .int) (fun _ => rfl)
  have huuid := keysApart_ofOption (P := P) (f := .uuid) (fun _ => rfl)
  have htime := keysApart_ofOption (P := P) (f := .datetime) (fun _ => rfl)
  have hscopes : PyValue.keysApartElements
      (P.dumpElements (row.scopes.map (.ofOption .str))) = true := by
    apply keysApart_dumpElements
    intro x hx
    obtain ⟨scope, -, rfl⟩ := List.mem_map.mp hx
    exact hstr scope
  refine ⟨jsonable_dump _, ?_⟩
  simp [ApiKeyRow.record, dump, dumpItems, PyValue.keysApart, PyValue.keysApartItems, hint, huuid,
    htime, hscopes]

/-- A scope that is `NULL` is no string. -/
theorem validate_apiKey_eq_none {row : ApiKeyRow U D} (hscopes : none ∈ row.scopes) :
    P.validate now apiKeyData
      (.ofJson (P.dump (.model ⟨"ApiKeyData", ["hashed_key"]⟩ row.record))) = none := by
  have hlist : P.validate now (.list (.scalar .str))
      (.ofJson (P.dump (.list (row.scopes.map (.ofOption .str))))) = none := by
    have hmem : PyObject.ofOption .str none ∈ row.scopes.map (PyObject.ofOption (U := U) (D := D) .str) :=
      List.mem_map_of_mem hscopes
    have hfail : (P.validate now (.scalar .str) ∘ PyObject.ofJson ∘ P.dump) (.ofOption .str none) = none :=
      P.accepts_null .str
    rw [dump, dumpElements_eq_map, PyObject.ofJson, ofJsonElements_eq_map, validate, List.map_map,
      List.mapM_map, mapM_eq_none hmem hfail]
    rfl
  have hfield : ("scopes", .list (.scalar .str), some .emptyList) ∈ apiKeyDataFields := by
    simp [apiKeyDataFields]
  have hget : PyObject.get? (PyObject.ofJsonItems (P.dumpItems ["hashed_key"] row.record)) "scopes" =
      some (.ofJson (P.dump (.list (row.scopes.map (.ofOption .str)))) : PyObject U D) := by
    simp [ApiKeyRow.record, dumpItems, PyObject.ofJsonItems, PyObject.get?]
  rw [apiKeyData, dump, PyObject.ofJson, validate, validateFields_eq_none hfield hget hlist]
  rfl

/-- A time that is `NULL` is no time. -/
theorem validate_appVersion_eq_none {row : AppVersionRow D}
    (h : row.createdAt = none ∨ row.updatedAt = none) :
    P.validate now appVersionData
      (.ofJson (P.dump (.model ⟨"AppVersionData", []⟩ row.record))) = none := by
  have hnone {name : String} (hfield : (name, .scalar .datetime, none) ∈ appVersionDataFields)
      (hget : PyObject.get? (PyObject.ofJsonItems (P.dumpItems [] row.record)) name =
        some (.null : PyObject U D)) :
      P.validate now appVersionData
        (.ofJson (P.dump (.model ⟨"AppVersionData", []⟩ row.record))) = none := by
    rw [appVersionData, dump, PyObject.ofJson, validate,
      validateFields_eq_none hfield hget (P.accepts_null .datetime)]
    rfl
  rcases h with h | h
  · apply @hnone "created_at" (by simp [appVersionDataFields])
    simp [AppVersionRow.record, dumpItems, PyObject.ofJsonItems, PyObject.get?, h, PyObject.ofOption,
      dump, PyObject.ofJson]
  · apply @hnone "updated_at" (by simp [appVersionDataFields])
    simp [AppVersionRow.record, dumpItems, PyObject.ofJsonItems, PyObject.get?, h, PyObject.ofOption,
      dump, PyObject.ofJson]

end results

/-! ## Hits -/

namespace CachedCall

/-- A call that missed has returned `value` and filled the entry, and a later call finds `hit`. -/
def Hits (P : TextRules U D) (c : CachedCall U D) (value hit : PyObject U D) : Prop :=
  ∃ (now later : D) (key : String) (s : Store), c.returns P now = some value ∧
    (∀ t, getFromCache P.toScalarRules t key c.hashKey (some c.model) s = none) ∧
    getFromCache P.toScalarRules later key c.hashKey (some c.model)
      (wrapper P.toScalarRules now key c.hashKey (some c.model) value s).2 = some hit

/-- What a hit returns for a value: an API key comes without its hash. -/
def seen : CachedCall U D → PyObject U D → PyObject U D
  | .getApiKeyByHash _, value => withoutHash value
  | _, value => value

/-- The call builds a role with permissions, which stay dictionaries. -/
def BuildsPermissions : CachedCall U D → Prop
  | .getRoleById (some row) => row.permissions ≠ []
  | _ => False

variable {P : TextRules U D} {c : CachedCall U D} {value hit : PyObject U D}

/-- The entry that is hit is the one that has been saved. -/
theorem Hits.saved (h : c.Hits P value hit) : ∃ (now later : D) (key : String) (s : Store),
    c.returns P now = some value ∧ value ≠ .null ∧
      getFromCache P.toScalarRules later key c.hashKey (some c.model)
        (saveToCache P.toScalarRules key c.hashKey value s) = some hit := by
  obtain ⟨now, later, key, s, hreturns, hmiss, hhit⟩ := h
  rw [wrapper, hmiss now] at hhit
  refine ⟨now, later, key, s, hreturns, ?_, hhit⟩
  -- nothing is saved for `None`
  rintro rfl
  change getFromCache P.toScalarRules later key c.hashKey (some c.model) s = some hit at hhit
  rw [hmiss later] at hhit
  cases hhit

/-- `None` is never hit. -/
theorem not_hits_of_returns_null (hreturns : ∀ now, c.returns P now = some .null) :
    ¬ c.Hits P value hit := by
  intro h
  obtain ⟨now, later, key, s, hvalue, hne, -⟩ := h.saved
  rw [hreturns now] at hvalue
  cases hvalue
  exact hne rfl

theorem hit_getAllRoles {rows : List (RoleRow U D)}
    (h : (CachedCall.getAllRoles rows).Hits P value hit) : hit = value := by
  obtain ⟨now, later, key, s, hreturns, -, hhit⟩ := h.saved
  rw [returns, mapM_eq_some (fun row _ => validate_roleRecord row)] at hreturns
  cases hreturns
  have hfits : ∀ x ∈ rows.map (fun row => row.role (row.permissions.map (·.permission))),
      Fits roleData x := by
    intro x hx
    obtain ⟨row, -, rfl⟩ := List.mem_map.mp hx
    exact fits_role row
  have hmasked : (rows.map (fun row => row.role (row.permissions.map (·.permission)))).map
      (masked later roleData) = rows.map (fun row => row.role (row.permissions.map (·.permission))) := by
    rw [List.map_map]
    exact List.map_congr_left (fun row _ => masked_role row)
  have hread := (getFromCache_list rfl hfits s).symm.trans hhit
  rw [show Schema.model ⟨"RoleData", []⟩ roleDataFields = roleData from rfl, hmasked] at hread
  exact (Option.some.inj hread).symm

/-- A role is read back with its permissions as models. -/
theorem getFromCache_role (now later : D) (key : String) (s : Store) (row : RoleRow U D) :
    getFromCache P.toScalarRules later key (some "roles_cache") (some roleData)
      (saveToCache P.toScalarRules key (some "roles_cache")
        (construct now ⟨"RoleData", []⟩ roleDataFields (row.record P)) s) =
      some (row.role (row.permissions.map (·.permission))) := by
  rw [construct_role, getFromCache_saved rfl]
  exact (deserialized_model (isJson_builtRole row)).trans (validate_builtRole row)

theorem getFromCache_apiKey (later : D) (key : String) (s : Store) {row : ApiKeyRow U D}
    (hscopes : none ∉ row.scopes) :
    getFromCache P.toScalarRules later key none (some apiKeyData)
      (saveToCache P.toScalarRules key none (.model ⟨"ApiKeyData", ["hashed_key"]⟩ row.record) s) =
      some (withoutHash (.model ⟨"ApiKeyData", ["hashed_key"]⟩ row.record)) := by
  exact (getFromCache_model rfl (fits_apiKey hscopes) s).trans (congrArg _ (masked_apiKey row))

theorem getFromCache_apiKey_eq_none (later : D) (key : String) (s : Store) {row : ApiKeyRow U D}
    (hscopes : none ∈ row.scopes) :
    getFromCache P.toScalarRules later key none (some apiKeyData)
      (saveToCache P.toScalarRules key none (.model ⟨"ApiKeyData", ["hashed_key"]⟩ row.record) s) =
      none := by
  rw [getFromCache_saved rfl]
  exact (deserialized_model (isJson_apiKey row)).trans (validate_apiKey_eq_none hscopes)

theorem hit_getRoleById {row : RoleRow U D} (h : (CachedCall.getRoleById (some row)).Hits P value hit) :
    value = row.role (row.permissions.map (fun p => .ofJson (p.json P))) ∧
      hit = row.role (row.permissions.map (·.permission)) := by
  obtain ⟨now, later, key, s, hreturns, -, hhit⟩ := h.saved
  cases hreturns
  exact ⟨construct_role row, Option.some.inj (hhit.symm.trans (getFromCache_role now later key s row))⟩

theorem hit_getApiKeyByHash {row : ApiKeyRow U D}
    (h : (CachedCall.getApiKeyByHash (some row)).Hits P value hit) :
    value = .model ⟨"ApiKeyData", ["hashed_key"]⟩ row.record ∧ none ∉ row.scopes ∧
      hit = withoutHash value := by
  obtain ⟨now, later, key, s, hreturns, -, hhit⟩ := h.saved
  rw [returns, PyObject.ofOption, construct_apiKey] at hreturns
  cases hreturns
  by_cases hscopes : none ∈ row.scopes
  · have hnone := hhit.symm.trans (getFromCache_apiKey_eq_none later key s hscopes)
    cases hnone
  · have hread := hhit.symm.trans (getFromCache_apiKey later key s hscopes)
    exact ⟨rfl, hscopes, Option.some.inj hread⟩

theorem hit_getVersionInfo {row : AppVersionRow D}
    (h : (CachedCall.getVersionInfo (some row)).Hits P value hit) : hit = value := by
  obtain ⟨now, later, key, s, hreturns, -, hhit⟩ := h.saved
  rw [returns, PyObject.ofOption, construct_appVersion] at hreturns
  cases hreturns
  by_cases hnull : row.createdAt = none ∨ row.updatedAt = none
  · rw [getFromCache_saved rfl] at hhit
    have hnone := hhit.symm.trans ((deserialized_model (isJson_appVersion (P := P) row)).trans
      (validate_appVersion_eq_none hnull))
    cases hnone
  · obtain ⟨hcreated, hupdated⟩ := not_or.mp hnull
    have hread := hhit.symm.trans (getFromCache_model rfl (fits_appVersion hcreated hupdated) s)
    exact (Option.some.inj hread).trans (masked_appVersion row)

theorem hit_getAllVersions {rows : List (AppVersionRow D)}
    (h : (CachedCall.getAllVersions rows).Hits P value hit) : hit = value := by
  obtain ⟨now, later, key, s, hreturns, -, hhit⟩ := h.saved
  simp only [returns, construct_appVersion] at hreturns
  cases hreturns
  by_cases hnull : ∃ row ∈ rows, row.createdAt = none ∨ row.updatedAt = none
  · -- one row that is not read back is enough
    obtain ⟨row, hmem, hnull⟩ := hnull
    have hmodels : ∀ x ∈ rows.map (fun r => (.model ⟨"AppVersionData", []⟩ r.record : PyObject U D)),
        ∃ cls fields, x = .model cls fields := by
      intro x hx
      obtain ⟨r, -, rfl⟩ := List.mem_map.mp hx
      exact ⟨_, _, rfl⟩
    have hjson : ∀ x ∈ rows.map (fun r => (.model ⟨"AppVersionData", []⟩ r.record : PyObject U D)),
        (P.dump x).IsJson := by
      intro x hx
      obtain ⟨r, -, rfl⟩ := List.mem_map.mp hx
      exact isJson_appVersion r
    obtain ⟨serializedData, hserialized, hread⟩ := deserialized_list hmodels hjson
    rw [getFromCache_saved hserialized] at hhit
    have hnone := hhit.symm.trans hread
    rw [mapM_eq_none (List.mem_map_of_mem hmem) (validate_appVersion_eq_none hnull)] at hnone
    cases hnone
  · have hfits : ∀ x ∈ rows.map (fun r => (.model ⟨"AppVersionData", []⟩ r.record : PyObject U D)),
        Fits appVersionData x := by
      intro x hx
      obtain ⟨row, hmem, rfl⟩ := List.mem_map.mp hx
      exact fits_appVersion (fun hcreated => hnull ⟨row, hmem, .inl hcreated⟩)
        (fun hupdated => hnull ⟨row, hmem, .inr hupdated⟩)
    have hread := Option.some.inj (hhit.symm.trans (getFromCache_list rfl hfits s))
    rw [hread, List.map_map]
    exact congrArg _ (List.map_congr_left (fun row _ => masked_appVersion row))

theorem hit_getConfig {record : Option (SystemConfigRow U D)} {seeded : SystemConfigRow U D}
    (h : (CachedCall.getConfig record seeded).Hits P value hit) : hit = value := by
  obtain ⟨now, later, key, s, hreturns, -, hhit⟩ := h.saved
  rw [returns, construct_systemConfig] at hreturns
  cases hreturns
  have hread := hhit.symm.trans (getFromCache_model rfl (fits_systemConfig _) s)
  exact (Option.some.inj hread).trans (masked_systemConfig _)

inductive HitCase (P : TextRules U D) : CachedCall U D → PyObject U D → PyObject U D → Prop
  | same {c : CachedCall U D} (hc : ∀ row, c ≠ .getApiKeyByHash row) (value : PyObject U D) :
      HitCase P c value value
  | apiKey (row : ApiKeyRow U D) (hscopes : none ∉ row.scopes) :
      HitCase P (.getApiKeyByHash (some row)) (.model ⟨"ApiKeyData", ["hashed_key"]⟩ row.record)
        (withoutHash (.model ⟨"ApiKeyData", ["hashed_key"]⟩ row.record))
  | role (row : RoleRow U D) (hpermissions : row.permissions ≠ []) :
      HitCase P (.getRoleById (some row))
        (row.role (row.permissions.map (fun p => .ofJson (p.json P))))
        (row.role (row.permissions.map (·.permission)))

theorem hit_cases (h : c.Hits P value hit) : HitCase P c value hit := by
  cases c with
  | getAllRoles rows =>
    rw [hit_getAllRoles h]
    exact .same (fun _ h => by cases h) value
  | getRoleById record =>
    cases record with
    | none => exact absurd h (not_hits_of_returns_null (fun _ => rfl))
    | some row =>
      obtain ⟨rfl, rfl⟩ := hit_getRoleById h
      by_cases hpermissions : row.permissions = []
      · rw [hpermissions]
        exact .same (fun _ h => by cases h) _
      · exact .role row hpermissions
  | getApiKeyByHash record =>
    cases record with
    | none => exact absurd h (not_hits_of_returns_null (fun _ => rfl))
    | some row =>
      obtain ⟨rfl, hscopes, rfl⟩ := hit_getApiKeyByHash h
      exact .apiKey row hscopes
  | getVersionInfo record =>
    cases record with
    | none => exact absurd h (not_hits_of_returns_null (fun _ => rfl))
    | some row =>
      rw [hit_getVersionInfo h]
      exact .same (fun _ h => by cases h) value
  | getAllVersions rows =>
    rw [hit_getAllVersions h]
    exact .same (fun _ h => by cases h) value
  | getConfig record seeded =>
    rw [hit_getConfig h]
    exact .same (fun _ h => by cases h) value

/-- Every hit but that of a role with permissions returns what the function has returned, an API key
without its hash. -/
theorem hit_eq_seen (hc : ¬ c.BuildsPermissions) (h : c.Hits P value hit) : hit = c.seen value := by
  cases hit_cases h with
  | same hkey value =>
    cases c with
    | getApiKeyByHash row => exact absurd rfl (hkey row)
    | _ => rfl
  | apiKey row hscopes => rfl
  | role row hpermissions => exact absurd hpermissions hc

def Transparent (P : TextRules U D) (c : CachedCall U D) : Prop :=
  ∀ value hit, c.Hits P value hit → hit = value

theorem hits_getRoleById (P : TextRules U D) (row : RoleRow U D) (key : String) :
    (CachedCall.getRoleById (some row)).Hits P
      (row.role (row.permissions.map (fun p => .ofJson (p.json P))))
      (row.role (row.permissions.map (·.permission))) := by
  refine ⟨row.createdAt, row.createdAt, key, fun _ _ => none, ?_, fun _ => rfl, ?_⟩
  · rw [returns, PyObject.ofOption, construct_role]
  · have hread := getFromCache_role (P := P) row.createdAt row.createdAt key (fun _ _ => none) row
    rwa [construct_role] at hread

theorem hits_getApiKeyByHash (P : TextRules U D) {row : ApiKeyRow U D} (hscopes : none ∉ row.scopes)
    (key : String) : (CachedCall.getApiKeyByHash (some row)).Hits P
      (.model ⟨"ApiKeyData", ["hashed_key"]⟩ row.record)
      (withoutHash (.model ⟨"ApiKeyData", ["hashed_key"]⟩ row.record)) := by
  refine ⟨row.createdAt, row.createdAt, key, fun _ _ => none, ?_, fun _ => rfl, ?_⟩
  · rw [returns, PyObject.ofOption, construct_apiKey]
  · exact getFromCache_apiKey row.createdAt key (fun _ _ => none) hscopes

theorem withoutHash_apiKey_ne (row : ApiKeyRow U D) :
    withoutHash (.model ⟨"ApiKeyData", ["hashed_key"]⟩ row.record) ≠
      .model ⟨"ApiKeyData", ["hashed_key"]⟩ row.record := by
  simp [withoutHash, ApiKeyRow.record]

/-- The calls whose hits return what the function has returned. -/
theorem transparent_iff (P : TextRules U D) (c : CachedCall U D) : c.Transparent P ↔
    (∀ row, c = .getRoleById (some row) → row.permissions = []) ∧
      ∀ row, c = .getApiKeyByHash (some row) → none ∈ row.scopes := by
  constructor
  · intro h
    refine ⟨fun row hc => ?_, fun row hc => ?_⟩
    · subst hc
      have heq := h _ _ (hits_getRoleById P row "")
      cases hpermissions : row.permissions with
      | nil => rfl
      | cons p rest =>
        -- a model is not a dictionary
        rw [hpermissions] at heq
        simp [RoleRow.role, PermissionRow.permission, PermissionRow.json, PyObject.ofJson] at heq
    · subst hc
      by_contra hscopes
      exact withoutHash_apiKey_ne row (h _ _ (hits_getApiKeyByHash P hscopes ""))
  · rintro ⟨hrole, hkey⟩ value hit hhits
    cases hit_cases hhits with
    | same _ value => rfl
    | apiKey row hscopes => exact absurd (hkey row rfl) hscopes
    | role row hpermissions => exact absurd (hrole row rfl) hpermissions

end CachedCall

/-! ## Texts of UUIDs and of times -/

/-- `8-4-4-4-12` hexadecimal digits. -/
def isUuidText (t : List Char) : Bool :=
  t.length = 36 && t.zipIdx.all (fun (c, i) =>
    if i ∈ [8, 13, 18, 23] then c = '-' else c.isDigit || 'a' ≤ c && c ≤ 'f')

structure UuidText where
  text : String
  valid : isUuidText text.toList = true

/-- `YYYY-MM-DDThh:mm:ss` -/
def isTimeText (t : List Char) : Bool :=
  t.length = 19 && t.zipIdx.all (fun (c, i) =>
    if i ∈ [4, 7] then c = '-' else if i = 10 then c = 'T' else if i ∈ [13, 16] then c = ':' else c.isDigit)

structure TimeText where
  text : List Char
  valid : isTimeText text = true

/-- The time before the sign of UTC, which pydantic writes as `Z` and PostgreSQL with digits. -/
def readTime (t : List Char) : Option TimeText :=
  if h : isTimeText (t.take 19) = true then
    if t.drop 19 = ['Z'] ∨ t.drop 19 = ['+', '0', '0', ':', '0', '0'] then some ⟨t.take 19, h⟩ else none
  else none

theorem readTime_append (d : TimeText) {zone : List Char}
    (hzone : zone = ['Z'] ∨ zone = ['+', '0', '0', ':', '0', '0']) : readTime (d.text ++ zone) = some d := by
  have hlength : d.text.length = 19 := by
    have hvalid := d.valid
    rw [isTimeText, Bool.and_eq_true, decide_eq_true_eq] at hvalid
    exact hvalid.1
  have htake : (d.text ++ zone).take 19 = d.text := by
    rw [← hlength, List.take_left']
    rfl
  have hdrop : (d.text ++ zone).drop 19 = zone := by
    rw [← hlength, List.drop_left']
    rfl
  simp only [readTime, htake, hdrop, d.valid, dif_pos, if_pos hzone]

def acceptsText : ScalarSchema → PyObject UuidText TimeText → Option (PyObject UuidText TimeText)
  | .bool, .bool b => some (.bool b)
  | .int, .int n => some (.int n)
  | .str, .str s => some (.str s)
  | .uuid, .uuid u => some (.uuid u)
  | .uuid, .str s => if h : isUuidText s.toList = true then some (.uuid ⟨s, h⟩) else none
  | .datetime, .datetime d => some (.datetime d)
  | .datetime, .str s => (readTime s.toList).map .datetime
  | _, _ => none

def textRules : TextRules UuidText TimeText where
  uuidText u := u.text
  datetimeText d := String.ofList (d.text ++ ['Z'])
  accepts := acceptsText
  accepts_instance k x hx := by
    cases k <;> cases x <;> first | rfl | cases hx
  accepts_uuidText u := by simp [acceptsText, u.valid]
  accepts_datetimeText d := by simp [acceptsText, readTime_append d (.inl rfl)]
  accepts_null k := by cases k <;> rfl
  jsonTime d := String.ofList (d.text ++ ['+', '0', '0', ':', '0', '0'])
  accepts_jsonTime d := by simp [acceptsText, readTime_append d (.inr rfl)]

/-! ## An API key -/

def someUuid : UuidText := ⟨"0190a5c2-7b1e-7c3d-8f00-0123456789ab", by decide⟩

def someTime : TimeText := ⟨"2024-05-01T12:00:00".toList, by decide⟩

def someApiKey : ApiKeyRow UuidText TimeText where
  id := someUuid
  createdBy := none
  name := "reports"
  keyPrefix := "ak_live_x"
  hashedKey := "5f4dcc3b"
  scopes := [some "users:read"]
  rateLimit := some 60
  expiresAt := none
  lastUsedAt := none
  isActive := true
  createdAt := someTime
  updatedAt := someTime

def foundApiKey : PyObject UuidText TimeText :=
  .model ⟨"ApiKeyData", ["hashed_key"]⟩
    [("id", .uuid someUuid), ("created_by", .null), ("name", .str "reports"),
      ("prefix", .str "ak_live_x"), ("hashed_key", .null), ("scopes", .list [.str "users:read"]),
      ("rate_limit", .int 60), ("expires_at", .null), ("last_used_at", .null), ("is_active", .bool true),
      ("created_at", .datetime someTime), ("updated_at", .datetime someTime)]

theorem hit_eq_seen_someApiKey : foundApiKey = (CachedCall.getApiKeyByHash (some someApiKey)).seen
    (.model ⟨"ApiKeyData", ["hashed_key"]⟩ someApiKey.record) :=
  CachedCall.hit_eq_seen (P := textRules) id
    (CachedCall.hits_getApiKeyByHash textRules (by simp [someApiKey]) "api_key:cache:5f4dcc3b")

theorem hash_not_cached : ¬ ∀ (U D : Type) (P : TextRules U D) (c : CachedCall U D)
    (value hit : PyObject U D), c.Hits P value hit → hit = value := by
  intro h
  have hscopes : none ∉ someApiKey.scopes := by simp [someApiKey]
  have heq := h _ _ textRules _ _ _
    (CachedCall.hits_getApiKeyByHash textRules hscopes "api_key:cache:5f4dcc3b")
  exact CachedCall.withoutHash_apiKey_ne someApiKey heq

end FastapiTemplate.Caching
