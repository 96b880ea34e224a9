import FastapiTemplate.ModelSchemas

/-!
# The cache decorator and the functions that it decorates

What `cache` stores and reads back, and the results of the six decorated functions from the answers
that the database gives them. An entry is looked up in a hash or without one. `json_agg` writes the
times of the permissions in a text of PostgreSQL.
-/

namespace FastapiTemplate.Caching

/-- Redis: the entry under a key, or under a field of a hash. -/
abbrev Store := Option String → String → Option String

/-- The scalars of pydantic, and how PostgreSQL writes a time in a JSON text. -/
structure TextRules (U D : Type) extends ScalarRules U D where
  jsonTime : D → String
  accepts_jsonTime : ∀ d, accepts .datetime (.str (jsonTime d)) = some (.datetime d)

variable {U D : Type}

mutual

def plain : PyObject U D → PyValue
  | .null => .null
  | .bool b => .bool b
  | .int n => .int n
  | .float f => .float f
  | .str s => .str s
  | .list items => .list (plainElements items)
  | .dict items => .dict (plainItems items)
  | .uuid _ => .other "UUID"
  | .datetime _ => .other "datetime"
  | .model cls _ => .other cls.name

def plainElements : List (PyObject U D) → List PyValue
  | [] => []
  | x :: xs => plain x :: plainElements xs

def plainItems : List (String × PyObject U D) → List (String × PyValue)
  | [] => []
  | (k, x) :: items => (k, plain x) :: plainItems items

end

section decorator
variable (P : ScalarRules U D) (now : D) (key : String) (hashKey : Option String)

/-- What is read from the text of an entry; none where something is raised. -/
def deserialized (model : Option Schema) (cachedValue : String) : Option (PyObject U D) :=
  if cachedValue = "" then none
  else (PyValue.loads cachedValue).bind (fun data =>
    match model, data with
    | some model, .list items =>
      (items.mapM (fun item => P.validate now model (.ofJson item))).map .list
    | some model, data => P.validate now model (.ofJson data)
    | none, .null => none
    | none, data => some (.ofJson data))

def getFromCache (model : Option Schema) (s : Store) : Option (PyObject U D) :=
  (s hashKey key).bind (deserialized P now model)

def serializeItem : PyObject U D → PyValue
  | .model cls fields => P.dump (.model cls fields)
  | item => plain item

/-- The text that is stored; none for `None` and for what cannot be serialized. -/
def serialized : PyObject U D → Option String
  | .null => none
  | .list items => (PyValue.list (items.map (serializeItem P))).dumps
  | .model cls fields => some (String.ofList (P.dump (.model cls fields)).compactText)
  | value => (plain value).dumps

def saveToCache (value : PyObject U D) (s : Store) : Store :=
  match serialized P value with
  | none => s
  | some serializedData => fun hash k => if hash = hashKey ∧ k = key then some serializedData else s hash k

def wrapper (model : Option Schema) (result : PyObject U D) (s : Store) : PyObject U D × Store :=
  match getFromCache P now key hashKey model s with
  | some cachedResult => (cachedResult, s)
  | none => (result, saveToCache P key hashKey result s)

end decorator

/-! ## Schemas -/

def permissionData : Schema :=
  .model ⟨"PermissionData", []⟩
    [("name", .scalar .str, none),
      ("description", .optional (.scalar .str), some .null),
      ("id", .scalar .uuid, none),
      ("created_at", .scalar .datetime, none)]

def roleDataFields : SchemaFields :=
  [("name", .scalar .str, none),
    ("description", .optional (.scalar .str), some .null),
    ("id", .scalar .uuid, none),
    ("created_at", .scalar .datetime, none),
    ("updated_at", .scalar .datetime, none),
    ("permissions", .list permissionData, some .emptyList)]

def roleData : Schema := .model ⟨"RoleData", []⟩ roleDataFields

def apiKeyDataFields : SchemaFields :=
  [("id", .scalar .uuid, none),
    ("created_by", .optional (.scalar .uuid), some .null),
    ("name", .scalar .str, none),
    ("prefix", .scalar .str, none),
    ("hashed_key", .optional (.scalar .str), some .null),
    ("scopes", .list (.scalar .str), some .emptyList),
    ("rate_limit", .optional (.scalar .int), some .null),
    ("expires_at", .optional (.scalar .datetime), some .null),
    ("last_used_at", .optional (.scalar .datetime), some .null),
    ("is_active", .scalar .bool, none),
    ("created_at", .scalar .datetime, none),
    ("updated_at", .scalar .datetime, none)]

def apiKeyData : Schema := .model ⟨"ApiKeyData", ["hashed_key"]⟩ apiKeyDataFields

def appVersionDataFields : SchemaFields :=
  [("platform", .scalar .str, none),
    ("min_build", .scalar .int, none),
    ("latest_build", .scalar .int, none),
    ("force_update", .scalar .bool, none),
    ("update_message", .optional (.scalar .str), some .null),
    ("update_url", .optional (.scalar .str), some .null),
    ("created_at", .scalar .datetime, none),
    ("updated_at", .scalar .datetime, none)]

def appVersionData : Schema := .model ⟨"AppVersionData", []⟩ appVersionDataFields

def systemConfigDataFields : SchemaFields :=
  [("id", .scalar .int, some (.int 1)),
    ("enforce_mfa", .scalar .bool, some (.bool false)),
    ("updated_at", .scalar .datetime, some .now),
    ("updated_by", .optional (.scalar .uuid), some .null)]

def systemConfigData : Schema := .model ⟨"SystemConfigData", []⟩ systemConfigDataFields

/-! ## Rows -/

structure PermissionRow (U D : Type) where
  id : U
  name : String
  description : Option String
  createdAt : D

structure RoleRow (U D : Type) where
  id : U
  name : String
  description : Option String
  createdAt : D
  updatedAt : D
  permissions : List (PermissionRow U D)

/-- An element of `scopes` may be `NULL`. -/
structure ApiKeyRow (U D : Type) where
  id : U
  createdBy : Option U
  name : String
  keyPrefix : String
  hashedKey : String
  scopes : List (Option String)
  rateLimit : Option ℤ
  expiresAt : Option D
  lastUsedAt : Option D
  isActive : Bool
  createdAt : D
  updatedAt : D

/-- The times have a default, but may be `NULL`. -/
structure AppVersionRow (D : Type) where
  platform : String
  minBuild : ℤ
  latestBuild : ℤ
  forceUpdate : Bool
  updateMessage : Option String
  updateUrl : Option String
  createdAt : Option D
  updatedAt : Option D

/-- The `id` is always 1. -/
structure SystemConfigRow (U D : Type) where
  enforceMfa : Bool
  updatedAt : D
  updatedBy : Option U

section records
variable (P : TextRules U D)

def PermissionRow.json (row : PermissionRow U D) : PyValue :=
  .dict [("id", .str (P.uuidText row.id)),
    ("name", .str row.name),
    ("description", row.description.elim .null .str),
    ("created_at", .str (P.jsonTime row.createdAt))]

def RoleRow.record (row : RoleRow U D) : List (String × PyObject U D) :=
  [("id", .uuid row.id),
    ("name", .str row.name),
    ("description", .ofOption .str row.description),
    ("created_at", .datetime row.createdAt),
    ("updated_at", .datetime row.updatedAt),
    ("permissions", .list (row.permissions.map (fun p => .ofJson (p.json P))))]

def ApiKeyRow.record (row : ApiKeyRow U D) : List (String × PyObject U D) :=
  [("id", .uuid row.id),
    ("created_by", .ofOption .uuid row.createdBy),
    ("name", .str row.name),
    ("prefix", .str row.keyPrefix),
    ("hashed_key", .str row.hashedKey),
    ("scopes", .list (row.scopes.map (.ofOption .str))),
    ("rate_limit", .ofOption .int row.rateLimit),
    ("expires_at", .ofOption .datetime row.expiresAt),
    ("last_used_at", .ofOption .datetime row.lastUsedAt),
    ("is_active", .bool row.isActive),
    ("created_at", .datetime row.createdAt),
    ("updated_at", .datetime row.updatedAt)]

def AppVersionRow.record (row : AppVersionRow D) : List (String × PyObject U D) :=
  [("platform", .str row.platform),
    ("min_build", .int row.minBuild),
    ("latest_build", .int row.latestBuild),
    ("force_update", .bool row.forceUpdate),
    ("update_message", .ofOption .str row.updateMessage),
    ("update_url", .ofOption .str row.updateUrl),
    ("created_at", .ofOption .datetime row.createdAt),
    ("updated_at", .ofOption .datetime row.updatedAt)]

def SystemConfigRow.record (row : SystemConfigRow U D) : List (String × PyObject U D) :=
  [("id", .int 1),
    ("enforce_mfa", .bool row.enforceMfa),
    ("updated_at", .datetime row.updatedAt),
    ("updated_by", .ofOption .uuid row.updatedBy)]

end records

/-! ## The decorated functions -/

inductive CachedCall (U D : Type)
  | getAllRoles (records : List (RoleRow U D))
  | getRoleById (record : Option (RoleRow U D))
  | getApiKeyByHash (record : Option (ApiKeyRow U D))
  | getVersionInfo (record : Option (AppVersionRow D))
  | getAllVersions (records : List (AppVersionRow D))
  | getConfig (record : Option (SystemConfigRow U D)) (seeded : SystemConfigRow U D)

namespace CachedCall

def model : CachedCall U D → Schema
  | .getAllRoles _ => roleData
  | .getRoleById _ => roleData
  | .getApiKeyByHash _ => apiKeyData
  | .getVersionInfo _ => appVersionData
  | .getAllVersions _ => appVersionData
  | .getConfig .. => systemConfigData

def hashKey : CachedCall U D → Option String
  | .getAllRoles _ => some "roles_cache"
  | .getRoleById _ => some "roles_cache"
  | _ => none

def returns (P : TextRules U D) (now : D) : CachedCall U D → Option (PyObject U D)
  | .getAllRoles records =>
    (records.mapM (fun record => P.validate now roleData (.dict (record.record P)))).map .list
  | .getRoleById record =>
    some (.ofOption (fun r => construct now ⟨"RoleData", []⟩ roleDataFields (r.record P)) record)
  | .getApiKeyByHash record =>
    some (.ofOption (fun r => construct now ⟨"ApiKeyData", ["hashed_key"]⟩ apiKeyDataFields r.record) record)
  | .getVersionInfo record =>
    some (.ofOption (fun r => construct now ⟨"AppVersionData", []⟩ appVersionDataFields r.record) record)
  | .getAllVersions records =>
    some (.list (records.map (fun r =>
      construct now ⟨"AppVersionData", []⟩ appVersionDataFields r.record)))
  | .getConfig record seeded =>
    some (construct now ⟨"SystemConfigData", []⟩ systemConfigDataFields (record.getD seeded).record)

end CachedCall

end FastapiTemplate.Caching
