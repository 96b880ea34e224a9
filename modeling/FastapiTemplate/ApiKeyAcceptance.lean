import FastapiTemplate.ApiKeys

/-!
# The API key dependency

`get_api_key_service` gives the service what `get_redis` returns, which is the client and not the
wrapper, and `update_last_used` writes a column that the table does not have. So no key is ever
accepted, and with the wrapper only those whose lock is held.
-/

namespace FastapiTemplate.ApiKeys

/-- A generated key that is the secret of a row, which is active and has not expired. -/
structure ValidKey (hexdigest : String → String) (s : ApiKeyStore) (rawKey : String)
    (row : ApiKeyData) : Prop where
  generated : ∃ token, rawKey = rawKeyOf token
  stored : row ∈ s.keys.rows
  secret : row.hashedKey = some (hexdigest rawKey)
  active : row.isActive = true
  unexpired : ∀ expiresAt ∈ row.expiresAt, s.time ≤ expiresAt

def AcceptsValid (hexdigest : String → String) (redis : InjectedRedis) (s : ApiKeyStore) (rawKey : String)
    (scopes : List String) : Prop :=
  ∀ row, ValidKey hexdigest s rawKey row → scopes ⊆ row.scopes →
    ∃ key, ((getApiKey hexdigest redis scopes (some rawKey)).execute ApiKeyStore.handler s).1 = .ok key ∧
      key.id = row.id

section client
variable {σ : Type} (handler : (c : ApiKeyCall) → σ → c.Answer × σ) (hexdigest : String → String)

theorem checkKey_client (found key : ApiKeyData) (ipAddress : Option String) (s : σ) :
    ((checkKey .client found ipAddress).execute handler s).1 ≠ .ok (some key) := by
  unfold checkKey
  split_ifs
  · simp
  · cases hexpires : found.expiresAt with
    | none => simp [hasExpired, hexpires, useKey, InjectedRedis.clientSet]
    | some expiresAt =>
      simp only [hasExpired, hexpires]
      change (Program.execute handler (if decide (expiresAt < (handler .now s).1) = true then pure none
        else useKey .client found ipAddress) _).1 ≠ _
      split_ifs
      · simp
      · simp [useKey, InjectedRedis.clientSet]

/-- Whatever Redis and the database answer, the client has no `set`. -/
theorem verifyApiKey_client (rawKey : String) (ipAddress : Option String) (key : ApiKeyData) (s : σ) :
    ((verifyApiKey hexdigest .client rawKey ipAddress).execute handler s).1 ≠ .ok (some key) := by
  unfold verifyApiKey
  split_ifs
  · simp
  · rw [Program.execute_bind]
    rcases (getApiKeyByHash (hexdigest rawKey)).execute handler s with ⟨e | found, t⟩
    · simp
    · cases found with
      | none => simp
      | some found => exact checkKey_client handler found key ipAddress t

theorem getApiKey_client (scopes : List String) (rawKey : Option String) (key : ApiKeyData) (s : σ) :
    ((getApiKey hexdigest .client scopes rawKey).execute handler s).1 ≠ .ok key := by
  cases rawKey with
  | none => simp [getApiKey]
  | some rawKey =>
    unfold getApiKey
    dsimp only
    split_ifs
    · simp
    · have hverify := fun found => verifyApiKey_client handler hexdigest rawKey none found s
      rw [Program.execute_bind]
      revert hverify
      rcases (verifyApiKey hexdigest .client rawKey none).execute handler s with ⟨e | found, t⟩
      · simp
      · cases found with
        | none => simp
        | some found => exact fun hverify => absurd rfl (hverify found)

end client

/-- No valid key is accepted by the service as it is wired. -/
theorem valid_never_accepted (hexdigest : String → String) (s : ApiKeyStore) {rawKey : String}
    {row : ApiKeyData} {scopes : List String} (hkey : ValidKey hexdigest s rawKey row)
    (hscopes : scopes ⊆ row.scopes) : ¬ AcceptsValid hexdigest .client s rawKey scopes := by
  intro haccepts
  obtain ⟨key, hresult, -⟩ := haccepts row hkey hscopes
  exact getApiKey_client ApiKeyStore.handler hexdigest scopes (some rawKey) key s hresult

/-! ## What comes of a valid key -/

section valid
variable {hexdigest : String → String} {s : ApiKeyStore} {rawKey : String} {row found : ApiKeyData}
  {scopes : List String} {redis : InjectedRedis}

theorem ValidKey.ne_empty (h : ValidKey hexdigest s rawKey row) : rawKey ≠ "" := by
  obtain ⟨token, rfl⟩ := h.generated
  intro hempty
  have hlength := congrArg String.length hempty
  rw [rawKeyOf, String.length_append] at hlength
  change 8 + token.length = 0 at hlength
  omega

theorem ValidKey.byHash (h : ValidKey hexdigest s rawKey row) :
    s.keys.byHash (hexdigest rawKey) = some row := by
  unfold ApiKeyTable.byHash
  cases hfind : s.keys.rows.find? (·.hashedKey = some (hexdigest rawKey)) with
  | none =>
    rw [List.find?_eq_none] at hfind
    exact absurd h.secret (by simpa using hfind row h.stored)
  | some other =>
    have hother : other.hashedKey = some (hexdigest rawKey) := by simpa using List.find?_some hfind
    rw [s.keys.eq_of_hashedKey (List.mem_of_find?_eq_some hfind) h.stored
      (hother.trans h.secret.symm)]

/-- On a hit as on a miss, the copy that is found is that of the row. -/
theorem getApiKeyByHash_valid (h : ValidKey hexdigest s rawKey row)
    (hcached : ∀ cached ∈ s.cache.get s.time (hexdigest rawKey), cached.dumped = row.dumped) :
    ∃ found t, (getApiKeyByHash (hexdigest rawKey)).execute ApiKeyStore.handler s = (.ok (some found), t) ∧
      found.dumped = row.dumped ∧ t.time = s.time ∧ t.locks = s.locks := by
  cases hget : s.cache.get s.time (hexdigest rawKey) with
  | some cached =>
    refine ⟨cached, s, ?_, hcached cached hget, rfl, rfl⟩
    simp only [getApiKeyByHash, ask, Program.execute_perform_bind, ApiKeyStore.handler, hget]
    rfl
  | none =>
    refine ⟨row, { s with cache := s.cache.set (hexdigest rawKey) row.dumped (some (s.time + 2592000)) },
      ?_, rfl, rfl, rfl⟩
    simp only [getApiKeyByHash, ask, Program.execute_perform_bind, ApiKeyStore.handler, hget, h.byHash]
    rfl

theorem checkKey_valid (hactive : found.isActive = true)
    (hunexpired : ∀ expiresAt ∈ found.expiresAt, s.time ≤ expiresAt) (ipAddress : Option String) :
    (checkKey redis found ipAddress).execute ApiKeyStore.handler s =
      (useKey redis found ipAddress).execute ApiKeyStore.handler s := by
  unfold checkKey
  rw [hactive]
  change Program.execute _ (hasExpired found >>= fun expired =>
    if expired = true then pure none else useKey redis found ipAddress) s = _
  cases hexpires : found.expiresAt with
  | none =>
    rw [hasExpired, hexpires]
    rfl
  | some expiresAt =>
    have hlater : ¬ expiresAt < s.time := Nat.not_lt.mpr (hunexpired expiresAt hexpires)
    rw [hasExpired, hexpires]
    change Program.execute _ (if decide (expiresAt < s.time) = true then pure none
      else useKey redis found ipAddress) s = _
    rw [decide_eq_false hlater]
    rfl

theorem checkScopes_of_subset (h : scopes ⊆ found.scopes) : checkScopes scopes found = pure () := by
  have hnone : scopes.find? (fun scope => decide (scope ∉ found.scopes)) = none := by
    rw [List.find?_eq_none]
    intro scope hscope
    simp [h hscope]
  rw [checkScopes, hnone]

/-- The client has no `set`; with the wrapper, a free lock leads to the statement that fails. -/
def useOutcome (redis : InjectedRedis) (s : ApiKeyStore) (keyId : ℕ) : Except ApiKeyError Unit :=
  match redis with
  | .client => .error (.attributeError "set")
  | .wrapper =>
    if (s.locks.get s.time keyId).isSome then .ok () else .error (.undefinedColumn "last_used_ip")

theorem useKey_result (redis : InjectedRedis) (found : ApiKeyData) (ipAddress : Option String)
    (s : ApiKeyStore) : ((useKey redis found ipAddress).execute ApiKeyStore.handler s).1 =
      (useOutcome redis s found.id).map (fun _ => some found) := by
  cases redis with
  | client => rfl
  | wrapper =>
    cases hlock : s.locks.get s.time found.id with
    | some _ =>
      simp only [useKey, InjectedRedis.clientSet, ask, Program.execute_perform_bind,
        ApiKeyStore.handler, hlock, useOutcome]
      rfl
    | none =>
      have hcolumn : "last_used_ip" ∉ apiKeyColumns := by decide
      simp only [useKey, InjectedRedis.clientSet, ask, Program.execute_perform_bind,
        ApiKeyStore.handler, hlock, useOutcome, if_true, if_neg hcolumn]
      rfl

/-- A request for a valid key comes out as the use of the copy that is found. -/
theorem getApiKey_valid (redis : InjectedRedis) (h : ValidKey hexdigest s rawKey row)
    (hcached : ∀ cached ∈ s.cache.get s.time (hexdigest rawKey), cached.dumped = row.dumped)
    (hscopes : scopes ⊆ row.scopes) :
    ∃ found, found.dumped = row.dumped ∧
      ((getApiKey hexdigest redis scopes (some rawKey)).execute ApiKeyStore.handler s).1 =
        (useOutcome redis s row.id).map (fun _ => found) := by
  obtain ⟨found, t, hlookup, hfound, htime, hlocks⟩ := getApiKeyByHash_valid h hcached
  have hactive : found.isActive = true := (congrArg (·.isActive) hfound).trans h.active
  have hunexpired : ∀ expiresAt ∈ found.expiresAt, t.time ≤ expiresAt := by
    rw [htime]
    exact (congrArg (fun key => ∀ expiresAt ∈ key.expiresAt, s.time ≤ expiresAt) hfound).mpr h.unexpired
  have hsubset : scopes ⊆ found.scopes := (congrArg (fun key => scopes ⊆ key.scopes) hfound).mpr hscopes
  have houtcome : useOutcome redis t found.id = useOutcome redis s row.id := by
    have hid : found.id = row.id := congrArg (·.id) hfound
    unfold useOutcome
    rw [htime, hlocks, hid]
  have hverify : (verifyApiKey hexdigest redis rawKey none).execute ApiKeyStore.handler s =
      (useKey redis found none).execute ApiKeyStore.handler t := by
    rw [verifyApiKey, if_neg h.ne_empty, Program.execute_bind, hlookup]
    exact checkKey_valid hactive hunexpired none
  have huse := useKey_result redis found none t
  refine ⟨found, hfound, ?_⟩
  simp only [getApiKey]
  rw [if_neg h.ne_empty, Program.execute_bind, hverify, ← houtcome]
  revert huse
  rcases (useKey redis found none).execute ApiKeyStore.handler t with ⟨result, u⟩
  rintro rfl
  cases useOutcome redis t found.id with
  | error e => rfl
  | ok _ =>
    change (Program.execute _ (checkScopes scopes found >>= fun _ => pure found) u).1 = _
    rw [checkScopes_of_subset hsubset]
    rfl

/-- With the wrapper, the valid keys that are accepted are those whose lock is held. -/
theorem accepts_wrapper_iff (h : ValidKey hexdigest s rawKey row)
    (hcached : ∀ cached ∈ s.cache.get s.time (hexdigest rawKey), cached.dumped = row.dumped)
    (hscopes : scopes ⊆ row.scopes) :
    AcceptsValid hexdigest .wrapper s rawKey scopes ↔ (s.locks.get s.time row.id).isSome = true := by
  obtain ⟨found, hfound, hresult⟩ := getApiKey_valid .wrapper h hcached hscopes
  rw [useOutcome] at hresult
  constructor
  · intro haccepts
    obtain ⟨key, hkey, -⟩ := haccepts row h hscopes
    by_contra hfree
    rw [hresult, if_neg hfree] at hkey
    cases hkey
  · intro hlock other hother _
    rw [if_pos hlock] at hresult
    have hsame : other = row := s.keys.eq_of_hashedKey hother.stored h.stored
      (hother.secret.trans h.secret.symm)
    rw [hsame]
    exact ⟨found, hresult, congrArg (·.id) hfound⟩

end valid

/-! ## A created key -/

def tokenDigest (_ : String) : String := tokenHash

def emptyStore : ApiKeyStore := ⟨0, .empty, fun _ => false, .empty, .empty⟩

def createdStore : ApiKeyStore :=
  ((createApiKey tokenDigest ⟨"client", ["users:read"], none, none⟩ none "token").execute ApiKeyStore.handler
    emptyStore).2

theorem created_valid : ∃ row, ValidKey tokenDigest createdStore "ak_live_token" row ∧
    ["users:read"] ⊆ row.scopes :=
  ⟨⟨0, none, "client", "ak_live_token", some tokenHash, ["users:read"], none, none, none, true,
    0, 0⟩, ⟨⟨"token", rfl⟩, by decide +kernel, rfl, rfl, by simp⟩, by simp⟩

theorem valid_never_accepted_created :
    ¬ AcceptsValid tokenDigest .client createdStore "ak_live_token" ["users:read"] := by
  obtain ⟨row, hkey, hscopes⟩ := created_valid
  exact valid_never_accepted tokenDigest createdStore hkey hscopes

/-- The dependency raises for a key that was just created. -/
theorem created_not_accepted : ¬ ∀ (hexdigest : String → String) (s : ApiKeyStore) (rawKey : String)
    (scopes : List String), AcceptsValid hexdigest .client s rawKey scopes := by
  intro h
  obtain ⟨row, hkey, hscopes⟩ := created_valid
  obtain ⟨key, hresult, -⟩ := h tokenDigest createdStore "ak_live_token" ["users:read"] row hkey hscopes
  have hraises : ((getApiKey tokenDigest .client ["users:read"] (some "ak_live_token")).execute
      ApiKeyStore.handler createdStore).1 = .error (.attributeError "set") := by decide +kernel
  rw [hraises] at hresult
  cases hresult

end FastapiTemplate.ApiKeys
