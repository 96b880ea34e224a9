import FastapiTemplate.CallProgram
import FastapiTemplate.ExpiringStore
import Mathlib.Data.List.Pairwise

/-!
# API keys

`ApiKeyService`, `ApiKeyDAO` and the admin view of the keys, as programs that call the table
`api_keys` and Redis. Ids and times are numbers. The random tokens are arguments of the programs
that generate keys, and SHA-256 is a function `hexdigest` that is a parameter. Redis holds the keys
that `get_api_key_by_hash` has cached, by their hash in place of `api_key:cache:{hashed_key}`, and
the locks of `last_used_at`, by the id of the key. `CURRENT_ACTOR_ID` is left out.
-/

namespace FastapiTemplate.ApiKeys

structure ApiKeyData where
  id : ℕ
  createdBy : Option ℕ
  name : String
  keyPrefix : String
  hashedKey : Option String
  scopes : List String
  rateLimit : Option ℕ
  expiresAt : Option ℕ
  lastUsedAt : Option ℕ
  isActive : Bool
  createdAt : ℕ
  updatedAt : ℕ
  deriving DecidableEq, Repr

/-- The model without the hash, which its JSON excludes. -/
def ApiKeyData.dumped (key : ApiKeyData) : ApiKeyData := { key with hashedKey := none }

structure ApiKeyUpdate where
  name : Option String
  scopes : Option (List String)
  rateLimit : Option ℕ
  expiresAt : Option ℕ
  isActive : Option Bool
  deriving DecidableEq, Repr

structure ApiKeyCreate where
  name : String
  scopes : List String
  rateLimit : Option ℕ
  expiresAt : Option ℕ
  deriving DecidableEq, Repr

structure ApiKeyCreateInternal extends ApiKeyCreate where
  keyPrefix : String
  hashedKey : String
  createdBy : Option ℕ
  isActive : Bool
  deriving DecidableEq, Repr

inductive ApiKeyError
  | httpException (status : ℕ) (detail : String)
  | actionFailed (message : String)
  | attributeError (name : String)
  | undefinedColumn (name : String)
  | uniqueViolation
  | refused
  deriving DecidableEq, Repr

inductive ApiKeyCall
  | insertKey (key : ApiKeyCreateInternal)
  | selectByHash (hashedKey : String)
  | selectById (keyId : ℕ)
  | findByPk (keyId : ℕ)
  | selectHashes (keyIds : List ℕ)
  | updateKey (keyId : ℕ) (data : ApiKeyUpdate)
  | rotateKey (keyId : ℕ) (newPrefix newHashedKey : String)
  | deleteKey (keyId : ℕ)
  | deleteKeys (keyIds : List ℕ)
  | updateLastUsed (keyId : ℕ) (ipAddress : Option String)
  | cacheGet (hashedKey : String)
  | cacheSet (hashedKey : String) (key : ApiKeyData) (expire : ℕ)
  | cacheDelete (hashedKeys : List String)
  | lockSet (keyId expire : ℕ)
  | now
  deriving DecidableEq

@[reducible] def ApiKeyCall.Answer : ApiKeyCall → Type
  | .insertKey _ => Except ApiKeyError ApiKeyData
  | .selectByHash _ => Option ApiKeyData
  | .selectById _ => Option ApiKeyData
  | .findByPk _ => Option ApiKeyData
  | .selectHashes _ => List String
  | .updateKey .. => Except ApiKeyError (Option ApiKeyData)
  | .rotateKey .. => Except ApiKeyError (Option ApiKeyData)
  | .deleteKey _ => Bool
  | .deleteKeys _ => List ℕ
  | .updateLastUsed .. => Except ApiKeyError Unit
  | .cacheGet _ => Option ApiKeyData
  | .cacheSet .. => Unit
  | .cacheDelete _ => Unit
  | .lockSet .. => Bool
  | .now => ℕ

abbrev ApiKeyProgram (α : Type) := Program ApiKeyCall ApiKeyCall.Answer ApiKeyError α

def ask (c : ApiKeyCall) : ApiKeyProgram c.Answer := Program.perform c

/-! ## The service -/

/-- What the service holds as `redis`: the wrapper that its constructor declares, or the client
inside it, whose own attribute `client` is a method. -/
inductive InjectedRedis
  | wrapper
  | client
  deriving DecidableEq, Repr

/-- `self.redis.client.set(..., nx=True, ex=...)`. -/
def InjectedRedis.clientSet (redis : InjectedRedis) (keyId expire : ℕ) : ApiKeyProgram Bool :=
  match redis with
  | .wrapper => ask (.lockSet keyId expire)
  | .client => .raise (.attributeError "set")

def InjectedRedis.clientDelete (redis : InjectedRedis) (hashedKey : String) : ApiKeyProgram Unit :=
  match redis with
  | .wrapper => ask (.cacheDelete [hashedKey])
  | .client => .raise (.attributeError "delete")

def rawKeyOf (token : String) : String := "ak_live_" ++ token

def prefixOf (rawKey : String) : String := String.ofList (rawKey.toList.take 16)

section service
variable (hexdigest : String → String) (redis : InjectedRedis)

def createApiKey (keyIn : ApiKeyCreate) (createdBy : Option ℕ) (token : String) :
    ApiKeyProgram (ApiKeyData × String) := do
  let rawKey := rawKeyOf token
  let key ← Program.ofExcept (← ask (.insertKey
    { keyIn with
      keyPrefix := prefixOf rawKey
      hashedKey := hexdigest rawKey
      createdBy := createdBy
      isActive := true }))
  pure (key.dumped, rawKey)

/-- The decorated `get_api_key_by_hash`; a missing key is not cached. -/
def getApiKeyByHash (hashedKey : String) : ApiKeyProgram (Option ApiKeyData) := do
  match ← ask (.cacheGet hashedKey) with
  | some key => pure (some key)
  | none =>
    match ← ask (.selectByHash hashedKey) with
    | some key =>
      ask (.cacheSet hashedKey key 2592000)
      pure (some key)
    | none => pure none

def hasExpired (key : ApiKeyData) : ApiKeyProgram Bool :=
  match key.expiresAt with
  | none => pure false
  | some expiresAt => do
    let now ← ask .now
    pure (decide (expiresAt < now))

def useKey (key : ApiKeyData) (ipAddress : Option String) : ApiKeyProgram (Option ApiKeyData) := do
  let acquired ← redis.clientSet key.id 300
  if acquired then
    Program.ofExcept (← ask (.updateLastUsed key.id ipAddress))
  pure (some key)

def checkKey (key : ApiKeyData) (ipAddress : Option String) : ApiKeyProgram (Option ApiKeyData) := do
  if !key.isActive then pure none
  else
    let expired ← hasExpired key
    if expired then pure none else useKey redis key ipAddress

def verifyApiKey (rawKey : String) (ipAddress : Option String) : ApiKeyProgram (Option ApiKeyData) := do
  if rawKey = "" then pure none
  else
    match ← getApiKeyByHash (hexdigest rawKey) with
    | none => pure none
    | some key => checkKey redis key ipAddress

def notFound (keyId : ℕ) : ApiKeyError := .httpException 404 s!"API Key with ID '{keyId}' not found."

def getApiKeyById (keyId : ℕ) : ApiKeyProgram ApiKeyData := do
  match ← ask (.selectById keyId) with
  | some key => pure key
  | none => .raise (notFound keyId)

def evictCache (hashedKey : Option String) : ApiKeyProgram Unit :=
  match hashedKey with
  | none => pure ()
  | some hashedKey => if hashedKey = "" then pure () else redis.clientDelete hashedKey

def updateApiKey (keyId : ℕ) (data : ApiKeyUpdate) : ApiKeyProgram ApiKeyData := do
  let existing ← getApiKeyById keyId
  match ← Program.ofExcept (← ask (.updateKey keyId data)) with
  | none => .raise (notFound keyId)
  | some updated =>
    evictCache redis existing.hashedKey
    pure updated

def rotateApiKey (keyId : ℕ) (token : String) : ApiKeyProgram (ApiKeyData × String) := do
  let existing ← getApiKeyById keyId
  let rawKey := rawKeyOf token
  match ← Program.ofExcept (← ask (.rotateKey keyId (prefixOf rawKey) (hexdigest rawKey))) with
  | none => .raise (.httpException 404 s!"Failed to rotate API Key '{keyId}'.")
  | some updated =>
    evictCache redis existing.hashedKey
    pure (updated.dumped, rawKey)

def deleteApiKey (keyId : ℕ) : ApiKeyProgram Unit := do
  let existing ← getApiKeyById keyId
  let deleted ← ask (.deleteKey keyId)
  if deleted then evictCache redis existing.hashedKey
  else .raise (.httpException 404 s!"Failed to delete API Key '{keyId}'.")

end service

/-! ## The admin view, which uses the wrapper of the module -/

def evictExisting (existing : Option ApiKeyData) : ApiKeyProgram Unit :=
  evictCache .wrapper (existing.bind (·.hashedKey))

def adminEdit (keyId : ℕ) (data : ApiKeyUpdate) : ApiKeyProgram (Option ApiKeyData) := do
  let existing ← ask (.selectById keyId)
  let _ ← Program.ofExcept (← ask (.updateKey keyId data))
  evictExisting existing
  ask (.findByPk keyId)

def deactivateAction (keyId : ℕ) : ApiKeyProgram String := do
  let existing ← ask (.selectById keyId)
  let _ ← Program.ofExcept (← ask (.updateKey keyId ⟨none, none, none, none, some false⟩))
  evictExisting existing
  let name := match existing with
    | some key => key.name
    | none => toString keyId
  pure s!"API Key '{name}' successfully deactivated."

def rotateAction (hexdigest : String → String) (keyId : ℕ) (token : String) : ApiKeyProgram String := do
  match ← ask (.selectById keyId) with
  | none => .raise (.actionFailed "API Key not found.")
  | some existing =>
    let rawKey := rawKeyOf token
    let _ ← Program.ofExcept (← ask (.rotateKey keyId (prefixOf rawKey) (hexdigest rawKey)))
    evictExisting existing
    pure s!"API Key rotated. New raw key: {rawKey}"

def deleteApiKeys (keyIds : List ℕ) : ApiKeyProgram ℕ := do
  if keyIds = [] then pure 0
  else
    let hashes ← ask (.selectHashes keyIds)
    let deleted ← ask (.deleteKeys keyIds)
    let cached := hashes.filter (· ≠ "")
    if deleted ≠ [] ∧ cached ≠ [] then ask (.cacheDelete cached)
    pure deleted.length

/-! ## The dependency -/

def missingHeader : ApiKeyError := .httpException 401 "Missing API Key header (X-API-Key)"

def invalidKey : ApiKeyError := .httpException 401 "Invalid, expired, or inactive API key"

def missingScope (scope : String) : ApiKeyError :=
  .httpException 403 s!"Not enough permissions: scope '{scope}' required"

def checkScopes (scopes : List String) (key : ApiKeyData) : ApiKeyProgram Unit :=
  match scopes.find? (fun scope => decide (scope ∉ key.scopes)) with
  | some scope => .raise (missingScope scope)
  | none => pure ()

def getApiKey (hexdigest : String → String) (redis : InjectedRedis) (scopes : List String)
    (rawKey : Option String) : ApiKeyProgram ApiKeyData := do
  match rawKey with
  | none => .raise missingHeader
  | some rawKey =>
    if rawKey = "" then .raise missingHeader
    else
      match ← verifyApiKey hexdigest redis rawKey none with
      | none => .raise invalidKey
      | some key =>
        checkScopes scopes key
        pure key

/-! ## The table and Redis -/

def apiKeyColumns : List String :=
  ["id", "created_by", "name", "prefix", "hashed_key", "scopes", "rate_limit", "expires_at",
    "last_used_at", "is_active", "created_at", "updated_at"]

def ApiKeyData.Distinct (a b : ApiKeyData) : Prop := a.id ≠ b.id ∧ a.hashedKey ≠ b.hashedKey

instance : Std.Symm ApiKeyData.Distinct := ⟨fun _ _ h => ⟨h.1.symm, h.2.symm⟩⟩

structure ApiKeyTable where
  rows : List ApiKeyData
  nextId : ℕ
  distinct : rows.Pairwise ApiKeyData.Distinct
  below : ∀ row ∈ rows, row.id < nextId

namespace ApiKeyTable

def empty : ApiKeyTable := ⟨[], 0, .nil, by simp⟩

def byHash (t : ApiKeyTable) (hashedKey : String) : Option ApiKeyData :=
  t.rows.find? (·.hashedKey = some hashedKey)

def byId (t : ApiKeyTable) (keyId : ℕ) : Option ApiKeyData := t.rows.find? (·.id = keyId)

def newRow (t : ApiKeyTable) (key : ApiKeyCreateInternal) (now : ℕ) : ApiKeyData :=
  ⟨t.nextId, key.createdBy, key.name, key.keyPrefix, some key.hashedKey, key.scopes, key.rateLimit,
    key.expiresAt, none, key.isActive, now, now⟩

def insert (t : ApiKeyTable) (key : ApiKeyCreateInternal) (now : ℕ)
    (hfree : ∀ row ∈ t.rows, row.hashedKey ≠ some key.hashedKey) : ApiKeyTable where
  rows := t.rows ++ [t.newRow key now]
  nextId := t.nextId + 1
  distinct := by
    rw [List.pairwise_append]
    refine ⟨t.distinct, List.pairwise_singleton _ _, fun row hrow new hnew => ?_⟩
    rw [List.mem_singleton.mp hnew]
    exact ⟨Nat.ne_of_lt (t.below row hrow), hfree row hrow⟩
  below row hrow := by
    rcases List.mem_append.mp hrow with hold | hnew
    · exact Nat.lt_succ_of_lt (t.below row hold)
    · rw [List.mem_singleton.mp hnew]
      exact Nat.lt_succ_self _

def modify (t : ApiKeyTable) (keyId : ℕ) (f : ApiKeyData → ApiKeyData) (hid : ∀ row, (f row).id = row.id)
    (hfree : ∀ a ∈ t.rows, ∀ b ∈ t.rows, a.id = keyId → b.id ≠ keyId →
      (f a).hashedKey ≠ b.hashedKey) : ApiKeyTable where
  rows := t.rows.map (fun row => if row.id = keyId then f row else row)
  nextId := t.nextId
  distinct := by
    rw [List.pairwise_map]
    refine t.distinct.imp_of_mem (fun {a b} ha hb hab => ?_)
    by_cases hak : a.id = keyId
    · have hbk : b.id ≠ keyId := fun hbk => hab.1 (hak.trans hbk.symm)
      rw [if_pos hak, if_neg hbk]
      exact ⟨(hid a).symm ▸ hab.1, hfree a ha b hb hak hbk⟩
    · rw [if_neg hak]
      by_cases hbk : b.id = keyId
      · rw [if_pos hbk]
        exact ⟨(hid b).symm ▸ hab.1, (hfree b hb a ha hbk hak).symm⟩
      · rw [if_neg hbk]
        exact hab
  below row hrow := by
    obtain ⟨old, hold, rfl⟩ := List.mem_map.mp hrow
    split
    · rw [hid]
      exact t.below old hold
    · exact t.below old hold

def delete (t : ApiKeyTable) (keyIds : List ℕ) : ApiKeyTable where
  rows := t.rows.filter (fun row => decide (row.id ∉ keyIds))
  nextId := t.nextId
  distinct := t.distinct.filter _
  below row hrow := t.below row (List.mem_filter.mp hrow).1

/-- Rows with one hash are one row. -/
theorem eq_of_hashedKey (t : ApiKeyTable) {a b : ApiKeyData} (ha : a ∈ t.rows) (hb : b ∈ t.rows)
    (h : a.hashedKey = b.hashedKey) : a = b := by
  by_contra hab
  exact (t.distinct.forall ha hb hab).2 h

end ApiKeyTable

/-- `COALESCE` of the given fields with the stored ones. -/
def ApiKeyUpdate.applyTo (data : ApiKeyUpdate) (now : ℕ) (row : ApiKeyData) : ApiKeyData :=
  { row with
    name := data.name.getD row.name
    scopes := data.scopes.getD row.scopes
    rateLimit := data.rateLimit.or row.rateLimit
    expiresAt := data.expiresAt.or row.expiresAt
    isActive := data.isActive.getD row.isActive
    updatedAt := now }

def ApiKeyData.rotated (newPrefix newHashedKey : String) (now : ℕ) (row : ApiKeyData) : ApiKeyData :=
  { row with
    keyPrefix := newPrefix
    hashedKey := some newHashedKey
    updatedAt := now }

namespace ApiKeyTable

def modifyKept (t : ApiKeyTable) (keyId : ℕ) (f : ApiKeyData → ApiKeyData)
    (hid : ∀ row, (f row).id = row.id) (hkept : ∀ row, (f row).hashedKey = row.hashedKey) :
    ApiKeyTable :=
  t.modify keyId f hid (fun a ha b hb hak hbk h => by
    rw [hkept] at h
    rw [t.eq_of_hashedKey ha hb h] at hak
    exact hbk hak)

def update (t : ApiKeyTable) (keyId : ℕ) (data : ApiKeyUpdate) (now : ℕ) : ApiKeyTable :=
  t.modifyKept keyId (data.applyTo now) (fun _ => rfl) (fun _ => rfl)

def rotate (t : ApiKeyTable) (keyId : ℕ) (newPrefix newHashedKey : String) (now : ℕ)
    (hfree : ∀ row ∈ t.rows, row.id ≠ keyId → row.hashedKey ≠ some newHashedKey) : ApiKeyTable :=
  t.modify keyId (ApiKeyData.rotated newPrefix newHashedKey now) (fun _ => rfl)
    (fun _ _ b hb _ hbk h => hfree b hb hbk h.symm)

def touch (t : ApiKeyTable) (keyId now : ℕ) : ApiKeyTable :=
  t.modifyKept keyId (fun row => { row with lastUsedAt := some now }) (fun _ => rfl) (fun _ => rfl)

end ApiKeyTable

/-- The table, what Redis holds, and the values that the database refuses: a creator that is no
user, and texts and numbers that do not fit. -/
structure ApiKeyStore where
  time : ℕ
  keys : ApiKeyTable
  refuses : ApiKeyUpdate ⊕ ApiKeyCreateInternal → Bool
  cache : ExpiringStore String ApiKeyData
  locks : ExpiringStore ℕ Unit

namespace ApiKeyStore

def handler : (c : ApiKeyCall) → ApiKeyStore → c.Answer × ApiKeyStore
  | .insertKey key, s =>
    if s.refuses (.inr key) then (.error .refused, s)
    else if hfree : ∀ row ∈ s.keys.rows, row.hashedKey ≠ some key.hashedKey then
      (.ok (s.keys.newRow key s.time), { s with keys := s.keys.insert key s.time hfree })
    else (.error .uniqueViolation, s)
  | .selectByHash hashedKey, s => (s.keys.byHash hashedKey, s)
  | .selectById keyId, s => (s.keys.byId keyId, s)
  | .findByPk keyId, s => (s.keys.byId keyId, s)
  | .selectHashes keyIds, s =>
    ((s.keys.rows.filter (fun row => decide (row.id ∈ keyIds))).filterMap (·.hashedKey), s)
  | .updateKey keyId data, s =>
    if s.refuses (.inl data) then (.error .refused, s)
    else
      let keys := s.keys.update keyId data s.time
      (.ok (keys.byId keyId), { s with keys := keys })
  | .rotateKey keyId newPrefix newHashedKey, s =>
    if hfree : ∀ row ∈ s.keys.rows, row.id ≠ keyId → row.hashedKey ≠ some newHashedKey then
      let keys := s.keys.rotate keyId newPrefix newHashedKey s.time hfree
      (.ok (keys.byId keyId), { s with keys := keys })
    else (.error .uniqueViolation, s)
  | .deleteKey keyId, s =>
    ((s.keys.byId keyId).isSome, { s with keys := s.keys.delete [keyId] })
  | .deleteKeys keyIds, s =>
    ((s.keys.rows.filter (fun row => decide (row.id ∈ keyIds))).map (·.id),
      { s with keys := s.keys.delete keyIds })
  | .updateLastUsed keyId _, s =>
    if "last_used_ip" ∈ apiKeyColumns then (.ok (), { s with keys := s.keys.touch keyId s.time })
    else (.error (.undefinedColumn "last_used_ip"), s)
  | .cacheGet hashedKey, s => (s.cache.get s.time hashedKey, s)
  | .cacheSet hashedKey key expire, s =>
    ((), { s with cache := s.cache.set hashedKey key.dumped (some (s.time + expire)) })
  | .cacheDelete hashedKeys, s => ((), { s with cache := hashedKeys.foldl ExpiringStore.delete s.cache })
  | .lockSet keyId expire, s =>
    match s.locks.get s.time keyId with
    | some _ => (false, s)
    | none => (true, { s with locks := s.locks.set keyId () (some (s.time + expire)) })
  | .now, s => (s.time, s)

end ApiKeyStore

def tokenHash : String := "0c1fd073c2687888c5e39e1308e17fb29377abe7bfdd80d587175a1317ce0727"

end FastapiTemplate.ApiKeys
