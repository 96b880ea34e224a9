import FastapiTemplate.ApiKeys
import FastapiTemplate.ProgramProtocol

/-!
# Verifications and changes of API keys at once

Requests that verify keys, and deactivations, rotations and deletions of keys through the service
and the admin view, interleaved at their calls to the database and to Redis. What each of them does
along its trace: it changes only its own keys, and once it has changed one it evicts next what it
has read.
-/

namespace FastapiTemplate.ApiKeys

inductive ApiKeyTask
  | verify (rawKey : String) (ipAddress : Option String)
  | deactivate (keyId : ℕ) (data : ApiKeyUpdate)
  | rotate (keyId : ℕ) (token : String)
  | delete (keyId : ℕ)
  | viewEdit (keyId : ℕ) (data : ApiKeyUpdate)
  | viewDeactivate (keyId : ℕ)
  | viewRotate (keyId : ℕ) (token : String)
  | viewDelete (keyIds : List ℕ)

inductive ApiKeyOutcome
  | verified (key : Option ApiKeyData)
  | done
  deriving DecidableEq

def ApiKeyUpdate.deactivating (data : ApiKeyUpdate) : ApiKeyUpdate := { data with isActive := some false }

namespace ApiKeyTask

def keyIds : ApiKeyTask → List ℕ
  | .verify .. => []
  | .deactivate keyId _ => [keyId]
  | .rotate keyId _ => [keyId]
  | .delete keyId => [keyId]
  | .viewEdit keyId _ => [keyId]
  | .viewDeactivate keyId => [keyId]
  | .viewRotate keyId _ => [keyId]
  | .viewDelete keyIds => keyIds

def newSecret (hexdigest : String → String) : ApiKeyTask → Option String
  | .rotate _ token => some (hexdigest (rawKeyOf token))
  | .viewRotate _ token => some (hexdigest (rawKeyOf token))
  | _ => none

def body (hexdigest : String → String) : ApiKeyTask → ApiKeyProgram ApiKeyOutcome
  | .verify rawKey ipAddress => do
    let key ← verifyApiKey hexdigest .wrapper rawKey ipAddress
    pure (.verified key)
  | .deactivate keyId data => do
    let _ ← updateApiKey .wrapper keyId data.deactivating
    pure .done
  | .rotate keyId token => do
    let _ ← rotateApiKey hexdigest .wrapper keyId token
    pure .done
  | .delete keyId => do
    deleteApiKey .wrapper keyId
    pure .done
  | .viewEdit keyId data => do
    let _ ← adminEdit keyId data.deactivating
    pure .done
  | .viewDeactivate keyId => do
    let _ ← deactivateAction keyId
    pure .done
  | .viewRotate keyId token => do
    let _ ← rotateAction hexdigest keyId token
    pure .done
  | .viewDelete keyIds => do
    let _ ← deleteApiKeys keyIds
    pure .done

def program (hexdigest : String → String) (task : ApiKeyTask) :
    ApiKeyProgram (Except ApiKeyError ApiKeyOutcome) := (task.body hexdigest).attempt

end ApiKeyTask

abbrev ApiKeyThread :=
  Thread ApiKeyCall ApiKeyCall.Answer ApiKeyError (Except ApiKeyError ApiKeyOutcome) ApiKeyTask

abbrev ApiKeyTrace := CallTrace ApiKeyCall ApiKeyCall.Answer

/-- A move of the environment lets seconds pass. -/
abbrev ApiKeyMove := PoolMove ApiKeyTask ℕ

def system (hexdigest : String → String) : PoolSystem ApiKeyCall ApiKeyCall.Answer ApiKeyError
    (Except ApiKeyError ApiKeyOutcome) ApiKeyTask ℕ ApiKeyStore where
  handler := ApiKeyStore.handler
  environment seconds s := { s with time := s.time + seconds }
  program := ApiKeyTask.program hexdigest

/-! ## What a trace says -/

def secretsIn : (c : ApiKeyCall) × c.Answer → List String
  | ⟨.selectById _, existing⟩ => (existing.bind (·.hashedKey)).toList.filter (· ≠ "")
  | ⟨.selectHashes _, hashes⟩ => hashes.filter (· ≠ "")
  | _ => []

def readSecrets (trace : ApiKeyTrace) : List String := trace.flatMap secretsIn

def evictedBy : ApiKeyCall → List String
  | .cacheDelete hashedKeys => hashedKeys
  | _ => []

def evicted (trace : ApiKeyTrace) : List String := trace.flatMap (fun x => evictedBy x.1)

def changes : (c : ApiKeyCall) × c.Answer → Bool
  | ⟨.updateKey .., .ok (some _)⟩ => true
  | ⟨.rotateKey .., .ok (some _)⟩ => true
  | ⟨.deleteKey _, true⟩ => true
  | ⟨.deleteKeys _, _ :: _⟩ => true
  | _ => false

def justChanged (trace : ApiKeyTrace) : Bool := trace.getLast?.any changes

def isRotation : ApiKeyCall → Bool
  | .rotateKey .. => true
  | _ => false

def rotatedIn (trace : ApiKeyTrace) : Bool := trace.any (fun x => isRotation x.1)

def fetchedIn : (c : ApiKeyCall) × c.Answer → Option (String × ApiKeyData)
  | ⟨.selectByHash hashedKey, row⟩ => row.map (fun key => (hashedKey, key))
  | _ => none

def justFetched (trace : ApiKeyTrace) : Option (String × ApiKeyData) := trace.getLast?.bind fetchedIn

section concat
variable (trace : ApiKeyTrace) (x : (c : ApiKeyCall) × c.Answer)

@[simp] theorem readSecrets_concat : readSecrets (trace ++ [x]) = readSecrets trace ++ secretsIn x := by
  simp [readSecrets]

@[simp] theorem evicted_concat : evicted (trace ++ [x]) = evicted trace ++ evictedBy x.1 := by
  simp [evicted]

@[simp] theorem justChanged_concat : justChanged (trace ++ [x]) = changes x := by simp [justChanged]

@[simp] theorem rotatedIn_concat : rotatedIn (trace ++ [x]) = (rotatedIn trace || isRotation x.1) := by
  simp [rotatedIn]

@[simp] theorem justFetched_concat : justFetched (trace ++ [x]) = fetchedIn x := by simp [justFetched]

end concat

/-! ## The protocol -/

section protocol
variable (hexdigest : String → String) (task : ApiKeyTask)

def allowed (trace : ApiKeyTrace) : ApiKeyCall → Prop
  | .insertKey _ => False
  | .selectById keyId => keyId ∈ task.keyIds
  | .selectHashes keyIds => keyIds ⊆ task.keyIds
  | .updateKey _ data => data.isActive = some false
  | .rotateKey _ _ newHashedKey => task.newSecret hexdigest = some newHashedKey ∧ rotatedIn trace = false
  | .cacheSet hashedKey key _ => task.keyIds = [] ∧ justFetched trace = some (hashedKey, key)
  | .cacheDelete hashedKeys => hashedKeys ⊆ readSecrets trace
  | _ => True

/-- Right after a change, the task evicts all that it has read. -/
def protocol : Protocol ApiKeyCall ApiKeyCall.Answer ApiKeyTrace where
  permits trace c := allowed hexdigest task trace c ∧
    (justChanged trace = true → readSecrets trace ≠ [] → c = .cacheDelete (readSecrets trace))
  after trace c answer := trace ++ [⟨c, answer⟩]
  possible _ _ := True

abbrev FollowsProtocol (trace : ApiKeyTrace) (p : ApiKeyProgram (Except ApiKeyError ApiKeyOutcome)) : Prop :=
  (protocol hexdigest task).Follows
    (fun _ trace => justChanged trace = true → readSecrets trace = []) (fun _ _ => False) trace p

end protocol

section follows
variable {hexdigest : String → String} {task : ApiKeyTask} {trace : ApiKeyTrace}

/-- After a call that changes nothing a task may end. -/
theorem follows_pure {result : Except ApiKeyError ApiKeyOutcome} {x : (c : ApiKeyCall) × c.Answer}
    (hx : changes x = false) : FollowsProtocol hexdigest task (trace ++ [x]) (.pure result) := by
  intro hchanged
  rw [justChanged_concat, hx] at hchanged
  cases hchanged

/-- A call that is allowed while no eviction is due. -/
theorem follows_call {c : ApiKeyCall} {next : c.Answer → ApiKeyProgram (Except ApiKeyError ApiKeyOutcome)}
    (hallowed : allowed hexdigest task trace c) (hnone : justChanged trace = false)
    (hnext : ∀ answer, FollowsProtocol hexdigest task (trace ++ [⟨c, answer⟩]) (next answer)) :
    FollowsProtocol hexdigest task trace (.call c next) := by
  refine ⟨⟨hallowed, fun hchanged => ?_⟩, fun answer _ => hnext answer⟩
  rw [hnone] at hchanged
  cases hchanged

/-- The eviction of what was read, after which everything that follows the protocol may come. -/
theorem follows_evictCache {hashedKey : Option String} {f : Unit → ApiKeyProgram ApiKeyOutcome}
    (hread : readSecrets trace = hashedKey.toList.filter (· ≠ ""))
    (hf : ∀ trace, (justChanged trace = true → readSecrets trace = []) →
      FollowsProtocol hexdigest task trace (f ()).attempt) :
    FollowsProtocol hexdigest task trace (evictCache .wrapper hashedKey >>= f).attempt := by
  cases hashedKey with
  | none => exact hf trace (fun _ => hread)
  | some hashedKey =>
    unfold evictCache
    dsimp only
    split_ifs with hempty
    · apply hf trace
      intro _
      rw [hread, hempty]
      rfl
    · have hone : readSecrets trace = [hashedKey] := by
        rw [hread]
        simp [hempty]
      refine ⟨⟨?_, fun _ _ => ?_⟩, fun answer _ => hf _ (fun hchanged => ?_)⟩
      · change [hashedKey] ⊆ readSecrets trace
        rw [hone]
        exact List.Subset.refl _
      · rw [hone]
      · rw [protocol, justChanged_concat] at hchanged
        cases hchanged

/-- The eviction is the last thing that the task does. -/
theorem follows_evictLast {α : Type} {hashedKey : Option String} (a : α)
    (hread : readSecrets trace = hashedKey.toList.filter (· ≠ "")) :
    FollowsProtocol hexdigest task trace
      (evictCache .wrapper hashedKey >>= (fun _ => pure a) >>= fun _ => pure .done).attempt := by
  rw [Program.bind_assoc]
  exact follows_evictCache hread (fun trace htrace => htrace)

/-- A task that begins with the key it is for, and ends if there is none. -/
theorem follows_found {keyId : ℕ} {result : Except ApiKeyError ApiKeyOutcome}
    {next : Option ApiKeyData → ApiKeyProgram (Except ApiKeyError ApiKeyOutcome)}
    (hkey : keyId ∈ task.keyIds) (hmissing : next none = .pure result)
    (hfound : ∀ key, FollowsProtocol hexdigest task [⟨.selectById keyId, some key⟩]
      (next (some key))) :
    FollowsProtocol hexdigest task [] (.call (.selectById keyId) next) := by
  refine follows_call hkey rfl (fun existing => ?_)
  cases existing with
  | none =>
    rw [hmissing]
    exact follows_pure rfl
  | some key => exact hfound key

theorem follows_deactivate (keyId : ℕ) (data : ApiKeyUpdate) :
    FollowsProtocol hexdigest (.deactivate keyId data) []
      (ApiKeyTask.program hexdigest (.deactivate keyId data)) := by
  refine follows_found (List.mem_singleton_self keyId) rfl (fun key => ?_)
  refine follows_call ?_ rfl (fun answer => ?_)
  · rfl
  · rcases answer with e | _ | updated
    · exact follows_pure rfl
    · exact follows_pure rfl
    · exact follows_evictLast _ (by simp [readSecrets, secretsIn])

theorem follows_rotate (keyId : ℕ) (token : String) :
    FollowsProtocol hexdigest (.rotate keyId token) []
      (ApiKeyTask.program hexdigest (.rotate keyId token)) := by
  refine follows_found (List.mem_singleton_self keyId) rfl (fun key => ?_)
  refine follows_call ?_ rfl (fun answer => ?_)
  · exact ⟨rfl, rfl⟩
  · rcases answer with e | _ | updated
    · exact follows_pure rfl
    · exact follows_pure rfl
    · exact follows_evictLast _ (by simp [readSecrets, secretsIn])

theorem follows_delete (keyId : ℕ) : FollowsProtocol hexdigest (.delete keyId) []
    (ApiKeyTask.program hexdigest (.delete keyId)) := by
  refine follows_found (List.mem_singleton_self keyId) rfl (fun key => ?_)
  refine follows_call ?_ rfl (fun deleted => ?_)
  · trivial
  · cases deleted with
    | false => exact follows_pure rfl
    | true =>
      apply follows_evictCache
      · simp [readSecrets, secretsIn]
      · exact fun trace htrace => htrace

/-- The eviction of the view, of the key that was there before, if any. -/
theorem follows_evictExisting {existing : Option ApiKeyData} {f : Unit → ApiKeyProgram ApiKeyOutcome}
    (hread : readSecrets trace = (existing.bind (·.hashedKey)).toList.filter (· ≠ ""))
    (hf : ∀ trace, (justChanged trace = true → readSecrets trace = []) →
      FollowsProtocol hexdigest task trace (f ()).attempt) :
    FollowsProtocol hexdigest task trace (evictExisting existing >>= f).attempt :=
  follows_evictCache hread hf

theorem follows_viewEdit (keyId : ℕ) (data : ApiKeyUpdate) :
    FollowsProtocol hexdigest (.viewEdit keyId data) []
      (ApiKeyTask.program hexdigest (.viewEdit keyId data)) := by
  refine follows_call ?_ rfl (fun existing => ?_)
  · exact List.mem_singleton_self keyId
  · refine follows_call ?_ rfl (fun answer => ?_)
    · rfl
    · rcases answer with e | updated
      · exact follows_pure rfl
      · change FollowsProtocol _ _ _ (evictExisting existing >>= (fun _ => ask (.findByPk keyId)) >>=
          fun _ => pure .done).attempt
        rw [Program.bind_assoc]
        apply follows_evictExisting
        · simp [readSecrets, secretsIn]
        · intro trace htrace
          refine ⟨⟨trivial, fun hchanged hread => absurd (htrace hchanged) hread⟩, fun row _ => ?_⟩
          exact follows_pure rfl

theorem follows_viewDeactivate (keyId : ℕ) : FollowsProtocol hexdigest (.viewDeactivate keyId) []
    (ApiKeyTask.program hexdigest (.viewDeactivate keyId)) := by
  refine follows_call ?_ rfl (fun existing => ?_)
  · exact List.mem_singleton_self keyId
  · refine follows_call ?_ rfl (fun answer => ?_)
    · rfl
    · rcases answer with e | updated
      · exact follows_pure rfl
      · exact follows_evictLast _ (by simp [readSecrets, secretsIn])

theorem follows_viewRotate (keyId : ℕ) (token : String) :
    FollowsProtocol hexdigest (.viewRotate keyId token) []
      (ApiKeyTask.program hexdigest (.viewRotate keyId token)) := by
  refine follows_found (List.mem_singleton_self keyId) rfl (fun key => ?_)
  refine follows_call ?_ rfl (fun answer => ?_)
  · exact ⟨rfl, rfl⟩
  · rcases answer with e | updated
    · exact follows_pure rfl
    · exact follows_evictLast _ (by simp [readSecrets, secretsIn])

theorem follows_viewDelete (keyIds : List ℕ) : FollowsProtocol hexdigest (.viewDelete keyIds) []
    (ApiKeyTask.program hexdigest (.viewDelete keyIds)) := by
  change FollowsProtocol _ _ _ (deleteApiKeys keyIds >>= fun _ => pure .done).attempt
  unfold deleteApiKeys
  split_ifs with hempty
  · intro hchanged
    cases hchanged
  · refine follows_call ?_ rfl (fun hashes => ?_)
    · exact List.Subset.refl _
    · refine follows_call ?_ rfl (fun deleted => ?_)
      · trivial
      · have hread : readSecrets ([] ++ [⟨.selectHashes keyIds, hashes⟩] ++
            [⟨.deleteKeys keyIds, deleted⟩]) = hashes.filter (· ≠ "") := by
          simp [readSecrets, secretsIn]
        change FollowsProtocol _ _ _ ((if deleted ≠ [] ∧ hashes.filter (· ≠ "") ≠ [] then
          ask (.cacheDelete (hashes.filter (· ≠ ""))) >>= (fun _ => pure deleted.length)
            else pure deleted.length) >>= fun _ => pure .done).attempt
        split_ifs with hdue
        · refine ⟨⟨?_, fun _ _ => ?_⟩, fun answer _ => follows_pure rfl⟩
          · change hashes.filter (· ≠ "") ⊆ readSecrets _
            rw [hread]
            exact List.Subset.refl _
          · rw [hread]
        · intro hchanged
          rw [justChanged_concat] at hchanged
          rw [hread]
          by_contra hne
          cases deleted with
          | nil => cases hchanged
          | cons keyId deleted => exact hdue ⟨List.cons_ne_nil _ _, hne⟩

/-- What a verification does with a key that it has found. -/
theorem follows_checkKey (key : ApiKeyData) (ipAddress : Option String) (hnone : justChanged trace = false) :
    FollowsProtocol hexdigest task trace
      (checkKey .wrapper key ipAddress >>= fun key => pure (.verified key)).attempt := by
  have hend : ∀ result, FollowsProtocol hexdigest task trace (.pure result) := by
    intro result hchanged
    rw [hnone] at hchanged
    cases hchanged
  have huse : ∀ trace, justChanged trace = false → FollowsProtocol hexdigest task trace
      (useKey .wrapper key ipAddress >>= fun key => pure (.verified key)).attempt := by
    intro trace hnone
    refine follows_call trivial hnone (fun acquired => ?_)
    cases acquired with
    | false => exact follows_pure rfl
    | true =>
      refine follows_call trivial (justChanged_concat _ _) (fun answer => ?_)
      cases answer with
      | error e => exact follows_pure rfl
      | ok _ => exact follows_pure rfl
  unfold checkKey hasExpired
  split_ifs
  · exact hend _
  · cases key.expiresAt with
    | none => exact huse trace hnone
    | some expiresAt =>
      refine follows_call trivial hnone (fun now => ?_)
      change FollowsProtocol _ _ _ ((if decide (expiresAt < now) = true then pure none
        else useKey .wrapper key ipAddress) >>= fun key => pure (.verified key)).attempt
      split_ifs
      · exact follows_pure rfl
      · exact huse _ (justChanged_concat _ _)

theorem follows_verify (rawKey : String) (ipAddress : Option String) :
    FollowsProtocol hexdigest (.verify rawKey ipAddress) []
      (ApiKeyTask.program hexdigest (.verify rawKey ipAddress)) := by
  change FollowsProtocol _ _ _ (verifyApiKey hexdigest .wrapper rawKey ipAddress >>= fun key =>
    pure (.verified key)).attempt
  unfold verifyApiKey
  split_ifs
  · intro hchanged
    cases hchanged
  · refine follows_call trivial rfl (fun cached => ?_)
    cases cached with
    | some key => exact follows_checkKey key ipAddress (justChanged_concat _ _)
    | none =>
      refine follows_call trivial (justChanged_concat _ _) (fun row => ?_)
      cases row with
      | none => exact follows_pure rfl
      | some key =>
        refine follows_call ?_ (justChanged_concat _ _) (fun answer => ?_)
        · exact ⟨rfl, justFetched_concat _ _⟩
        · exact follows_checkKey key ipAddress (justChanged_concat _ _)

/-- Every task follows its protocol. -/
theorem follows_program (task : ApiKeyTask) :
    FollowsProtocol hexdigest task [] (task.program hexdigest) := by
  cases task with
  | verify rawKey ipAddress => exact follows_verify rawKey ipAddress
  | deactivate keyId data => exact follows_deactivate keyId data
  | rotate keyId token => exact follows_rotate keyId token
  | delete keyId => exact follows_delete keyId
  | viewEdit keyId data => exact follows_viewEdit keyId data
  | viewDeactivate keyId => exact follows_viewDeactivate keyId
  | viewRotate keyId token => exact follows_viewRotate keyId token
  | viewDelete keyIds => exact follows_viewDelete keyIds

end follows

/-! ## What a call does to the table and the cache -/

namespace ApiKeyTable

variable {t : ApiKeyTable} {keyId : ℕ} {f : ApiKeyData → ApiKeyData}

theorem mem_map_modified {rows : List ApiKeyData} {row : ApiKeyData} :
    row ∈ rows.map (fun row => if row.id = keyId then f row else row) ↔
      ∃ old ∈ rows, row = if old.id = keyId then f old else old := by
  rw [List.mem_map]
  exact exists_congr (fun _ => and_congr_right (fun _ => eq_comm))

/-- A change of a row that is not there changes nothing. -/
theorem map_modified_of_find? {rows : List ApiKeyData} (hid : ∀ row, (f row).id = row.id)
    (h : (rows.map (fun row => if row.id = keyId then f row else row)).find? (·.id = keyId) = none) :
    rows.map (fun row => if row.id = keyId then f row else row) = rows := by
  have hnone : ∀ row ∈ rows, row.id ≠ keyId := by
    intro row hrow hkey
    have hfound := List.find?_eq_none.mp h (f row) (mem_map_modified.mpr ⟨row, hrow, (if_pos hkey).symm⟩)
    rw [hid] at hfound
    exact hfound (decide_eq_true hkey)
  conv_rhs => rw [← List.map_id rows]
  exact List.map_congr_left (fun row hrow => if_neg (hnone row hrow))

theorem mem_update {data : ApiKeyUpdate} {now : ℕ} {row : ApiKeyData} :
    row ∈ (t.update keyId data now).rows ↔ ∃ old ∈ t.rows,
      row = if old.id = keyId then data.applyTo now old else old :=
  mem_map_modified

theorem mem_rotate {newPrefix newHashedKey : String} {now : ℕ}
    (hfree : ∀ row ∈ t.rows, row.id ≠ keyId → row.hashedKey ≠ some newHashedKey) {row : ApiKeyData} :
    row ∈ (t.rotate keyId newPrefix newHashedKey now hfree).rows ↔ ∃ old ∈ t.rows,
      row = if old.id = keyId then old.rotated newPrefix newHashedKey now else old :=
  mem_map_modified

theorem byId_eq_some {row : ApiKeyData} (h : t.byId keyId = some row) : row ∈ t.rows ∧ row.id = keyId :=
  ⟨List.mem_of_find?_eq_some h, by simpa using List.find?_some h⟩

theorem rows_delete_of_forall {keyIds : List ℕ} (h : ∀ row ∈ t.rows, row.id ∉ keyIds) :
    (t.delete keyIds).rows = t.rows :=
  List.filter_eq_self.mpr (fun row hrow => decide_eq_true (h row hrow))

end ApiKeyTable

def ApiKeyStore.Active (s : ApiKeyStore) (hashedKey : String) : Prop :=
  ∃ row ∈ s.keys.rows, row.hashedKey = some hashedKey ∧ row.isActive = true

section handler
variable {hexdigest : String → String} {task : ApiKeyTask} {trace : ApiKeyTrace} {c : ApiKeyCall}
  {s : ApiKeyStore}

theorem time_handler (c : ApiKeyCall) (s : ApiKeyStore) : (ApiKeyStore.handler c s).2.time = s.time := by
  cases c <;> simp only [ApiKeyStore.handler] <;> (try split) <;> (try split) <;> rfl

/-- A row after a call was there with its hash, and active if it is, or has been rotated. -/
theorem mem_rows_handler (hallowed : allowed hexdigest task trace c) {row : ApiKeyData}
    (hrow : row ∈ (ApiKeyStore.handler c s).2.keys.rows) :
    (∃ old ∈ s.keys.rows, old.id = row.id ∧ old.hashedKey = row.hashedKey ∧
      (row.isActive = true → old.isActive = true)) ∨
      ∃ keyId newPrefix newHashedKey, c = .rotateKey keyId newPrefix newHashedKey ∧
        row.hashedKey = some newHashedKey := by
  have hsame (h : row ∈ s.keys.rows) : ∃ old ∈ s.keys.rows, old.id = row.id ∧
      old.hashedKey = row.hashedKey ∧ (row.isActive = true → old.isActive = true) :=
    ⟨row, h, rfl, rfl, id⟩
  cases c with
  | insertKey key => exact hallowed.elim
  | updateKey keyId data =>
    left
    simp only [ApiKeyStore.handler] at hrow
    split at hrow
    · exact hsame hrow
    · obtain ⟨old, hold, rfl⟩ := ApiKeyTable.mem_update.mp hrow
      refine ⟨old, hold, ?_⟩
      split_ifs with hkey
      · refine ⟨rfl, rfl, fun hactive => ?_⟩
        change data.isActive.getD old.isActive = true at hactive
        rw [show data.isActive = some false from hallowed] at hactive
        cases hactive
      · exact ⟨rfl, rfl, id⟩
  | rotateKey keyId newPrefix newHashedKey =>
    simp only [ApiKeyStore.handler] at hrow
    split_ifs at hrow with hfree
    · obtain ⟨old, hold, rfl⟩ := (ApiKeyTable.mem_rotate hfree).mp hrow
      split_ifs with hkey
      · exact .inr ⟨keyId, newPrefix, newHashedKey, rfl, rfl⟩
      · exact .inl ⟨old, hold, rfl, rfl, id⟩
    · exact .inl (hsame hrow)
  | deleteKey keyId => exact .inl (hsame (List.mem_filter.mp hrow).1)
  | deleteKeys keyIds => exact .inl (hsame (List.mem_filter.mp hrow).1)
  | updateLastUsed keyId ipAddress =>
    have hcolumn : "last_used_ip" ∉ apiKeyColumns := by decide
    rw [ApiKeyStore.handler, if_neg hcolumn] at hrow
    exact .inl (hsame hrow)
  | lockSet keyId expire =>
    simp only [ApiKeyStore.handler] at hrow
    split at hrow <;> exact .inl (hsame hrow)
  | _ => exact .inl (hsame hrow)

/-- What an operation reads are secrets of its keys. -/
theorem row_of_secretsIn (hallowed : allowed hexdigest task trace c) {h : String}
    (hread : h ∈ secretsIn ⟨c, (ApiKeyStore.handler c s).1⟩) :
    ∃ row ∈ s.keys.rows, row.hashedKey = some h ∧ row.id ∈ task.keyIds := by
  cases c with
  | selectById keyId =>
    change h ∈ ((s.keys.byId keyId).bind (·.hashedKey)).toList.filter (· ≠ "") at hread
    have hmem := (List.mem_filter.mp hread).1
    rw [Option.mem_toList, Option.bind_eq_some_iff] at hmem
    obtain ⟨row, hrow, hhash⟩ := hmem
    obtain ⟨hstored, rfl⟩ := ApiKeyTable.byId_eq_some hrow
    exact ⟨row, hstored, hhash, hallowed⟩
  | selectHashes keyIds =>
    have hmem := (List.mem_filter.mp hread).1
    obtain ⟨row, hrow, hhash⟩ := List.mem_filterMap.mp hmem
    obtain ⟨hstored, hid⟩ := List.mem_filter.mp hrow
    exact ⟨row, hstored, hhash, hallowed (of_decide_eq_true hid)⟩
  | _ => cases hread

/-- A call that does not say that it changed the table has not. -/
theorem rows_handler_of_not_changes (hallowed : allowed hexdigest task trace c)
    (h : changes ⟨c, (ApiKeyStore.handler c s).1⟩ = false) :
    (ApiKeyStore.handler c s).2.keys.rows = s.keys.rows := by
  cases c with
  | insertKey key => exact hallowed.elim
  | updateKey keyId data =>
    simp only [ApiKeyStore.handler] at h ⊢
    split_ifs at h ⊢
    · rfl
    · cases hrow : (s.keys.update keyId data s.time).byId keyId with
      | none => exact ApiKeyTable.map_modified_of_find? (fun _ => rfl) hrow
      | some row =>
        rw [hrow] at h
        cases h
  | rotateKey keyId newPrefix newHashedKey =>
    simp only [ApiKeyStore.handler] at h ⊢
    split_ifs at h ⊢ with hfree
    · cases hrow : (s.keys.rotate keyId newPrefix newHashedKey s.time hfree).byId keyId with
      | none => exact ApiKeyTable.map_modified_of_find? (fun _ => rfl) hrow
      | some row =>
        rw [hrow] at h
        cases h
    · rfl
  | deleteKey keyId =>
    apply ApiKeyTable.rows_delete_of_forall
    intro row hrow hkey
    change changes ⟨.deleteKey keyId, (s.keys.byId keyId).isSome⟩ = false at h
    cases hfound : s.keys.byId keyId with
    | none =>
      have hother := List.find?_eq_none.mp hfound row hrow
      exact hother (decide_eq_true (List.mem_singleton.mp hkey))
    | some other =>
      rw [hfound] at h
      cases h
  | deleteKeys keyIds =>
    apply ApiKeyTable.rows_delete_of_forall
    intro row hrow hkey
    have hmem : row.id ∈ (s.keys.rows.filter (fun row => decide (row.id ∈ keyIds))).map (·.id) :=
      List.mem_map_of_mem (List.mem_filter.mpr ⟨hrow, decide_eq_true hkey⟩)
    change changes ⟨.deleteKeys keyIds,
      (s.keys.rows.filter (fun row => decide (row.id ∈ keyIds))).map (·.id)⟩ = false at h
    cases hdeleted : (s.keys.rows.filter (fun row => decide (row.id ∈ keyIds))).map (·.id) with
    | nil =>
      rw [hdeleted] at hmem
      cases hmem
    | cons keyId deleted =>
      rw [hdeleted] at h
      cases h
  | updateLastUsed keyId ipAddress =>
    have hcolumn : "last_used_ip" ∉ apiKeyColumns := by decide
    rw [ApiKeyStore.handler, if_neg hcolumn]
  | lockSet keyId expire =>
    simp only [ApiKeyStore.handler]
    split <;> rfl
  | _ => rfl

theorem foldl_delete_apply (st : ExpiringStore String ApiKeyData) (keys : List String) (k : String) :
    keys.foldl ExpiringStore.delete st k = if k ∈ keys then none else st k := by
  induction keys generalizing st with
  | nil => rfl
  | cons key keys ih =>
    rw [List.foldl_cons, ih]
    by_cases hk : k = key
    · subst hk
      simp
    · rw [ExpiringStore.delete_of_ne st hk]
      simp [hk]

/-- What is cached after a call has just been stored, or was cached and has not been evicted. -/
theorem cached_handler {h : String} {row : ApiKeyData}
    (hcached : (ApiKeyStore.handler c s).2.cache.get s.time h = some row) :
    (∃ key expire, c = .cacheSet h key expire ∧ row = key.dumped) ∨
      s.cache.get s.time h = some row ∧ h ∉ evictedBy c := by
  cases c with
  | cacheSet hashedKey key expire =>
    by_cases hkey : h = hashedKey
    · subst hkey
      change (s.cache.set h key.dumped (some (s.time + expire))).get s.time h = some row at hcached
      rw [ExpiringStore.get_set_self_some] at hcached
      split_ifs at hcached
      cases hcached
      exact .inl ⟨key, expire, rfl, rfl⟩
    · change (s.cache.set hashedKey key.dumped (some (s.time + expire))).get s.time h = some row
        at hcached
      rw [ExpiringStore.get_set_of_ne _ hkey] at hcached
      exact .inr ⟨hcached, List.not_mem_nil⟩
  | cacheDelete hashedKeys =>
    right
    obtain ⟨e, he, halive, hvalue⟩ := ExpiringStore.get_eq_some_iff.mp hcached
    change hashedKeys.foldl ExpiringStore.delete s.cache h = some e at he
    rw [foldl_delete_apply] at he
    split_ifs at he with hmem
    exact ⟨ExpiringStore.get_eq_some_iff.mpr ⟨e, he, halive, hvalue⟩, hmem⟩
  | _ =>
    right
    refine ⟨?_, List.not_mem_nil⟩
    simp only [ApiKeyStore.handler] at hcached
    (try split at hcached) <;> (try split at hcached) <;> exact hcached

end handler
end FastapiTemplate.ApiKeys
