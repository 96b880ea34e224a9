import FastapiTemplate.ApiKeyThreads

/-!
# Revoked API keys

Once a deactivation, rotation or deletion of a key has returned, no verification that begins later
accepts what was the secret of the key: as long as every change has read the secret that it ends,
copies are stored before their secret is evicted, and nobody returns over the eviction of another.
-/

namespace FastapiTemplate.ApiKeys

abbrev ApiKeyPool := Pool ApiKeyCall ApiKeyCall.Answer ApiKeyError (Except ApiKeyError ApiKeyOutcome)
  ApiKeyTask ApiKeyStore

def ApiKeyData.Live (time : ℕ) (key : ApiKeyData) : Prop :=
  key.isActive = true ∧ ∀ expiresAt ∈ key.expiresAt, time ≤ expiresAt

instance (time : ℕ) (key : ApiKeyData) : Decidable (key.Live time) :=
  inferInstanceAs (Decidable (_ ∧ ∀ expiresAt ∈ key.expiresAt, time ≤ expiresAt))

def ApiKeyStore.IsSecret (s : ApiKeyStore) (keyId : ℕ) (hashedKey : String) : Prop :=
  ∃ row ∈ s.keys.rows, row.id = keyId ∧ row.hashedKey = some hashedKey ∧ row.isActive = true

instance (s : ApiKeyStore) (keyId : ℕ) (hashedKey : String) : Decidable (s.IsSecret keyId hashedKey) :=
  inferInstanceAs (Decidable (∃ row ∈ s.keys.rows, _))

instance (s : ApiKeyStore) (hashedKey : String) : Decidable (s.Active hashedKey) :=
  inferInstanceAs (Decidable (∃ row ∈ s.keys.rows, _))

def storing (th : ApiKeyThread) : Option (String × ApiKeyData) :=
  match th.nextCall with
  | some (.cacheSet hashedKey key _) => some (hashedKey, key)
  | _ => none

def evicting (th : ApiKeyThread) : List String :=
  match th.nextCall with
  | some c => evictedBy c
  | none => []

namespace ApiKeyPool

def start (time : ℕ) (keys : ApiKeyTable) (refuses : ApiKeyUpdate ⊕ ApiKeyCreateInternal → Bool) :
    ApiKeyPool where
  state := ⟨time, keys, refuses, .empty, .empty⟩
  threads := []

def Offered (p : ApiKeyPool) (hashedKey : String) : Prop :=
  (∃ key ∈ p.state.cache.get p.state.time hashedKey, key.Live p.state.time) ∨
    ∃ th ∈ p.threads, ∃ x ∈ storing th, x.1 = hashedKey ∧ x.2.Live p.state.time

instance (p : ApiKeyPool) (hashedKey : String) : Decidable (p.Offered hashedKey) :=
  inferInstanceAs (Decidable ((∃ key ∈ p.state.cache.get p.state.time hashedKey, _) ∨
    ∃ th ∈ p.threads, ∃ x ∈ storing th, _))

section property
variable (hexdigest : String → String)

def Returns (p : ApiKeyPool) (m : ApiKeyMove) (keyId : ℕ) : Prop :=
  match m with
  | .advance i => ∃ th ∈ p.threads[i]?, keyId ∈ th.tag.keyIds ∧ th.nextCall.isSome = true ∧
      ∃ th' ∈ ((system hexdigest).step p m).threads[i]?, th'.result = some (.ok .done)
  | _ => False

/-- Once an operation on a key has returned, verifications that begin later do not accept what has
stopped being its active secret. -/
def Coherent (p : ApiKeyPool) (moves : List ApiKeyMove) : Prop :=
  ∀ (before : List ApiKeyMove) (m : ApiKeyMove) (later : List ApiKeyMove) (keyId : ℕ) (rawKey : String),
    moves = before ++ m :: later →
    (∃ earlier rest, before = earlier ++ rest ∧
      (run (system hexdigest).step p earlier).state.IsSecret keyId (hexdigest rawKey)) →
    Returns hexdigest (run (system hexdigest).step p before) m keyId →
    ¬ (run (system hexdigest).step p (before ++ [m])).state.IsSecret keyId (hexdigest rawKey) →
    ∀ (i : ℕ) (th : ApiKeyThread) (ipAddress : Option String),
      (run (system hexdigest).step p (before ++ [m])).threads.length ≤ i →
      (run (system hexdigest).step p moves).threads[i]? = some th → th.tag = .verify rawKey ipAddress →
      ∀ key, th.result ≠ some (.ok (.verified (some key)))

/-- A generated key has the hash of no row that was there, and of none that was generated before. -/
def GeneratesNew (keys : ApiKeyTable) (p : ApiKeyPool) (m : ApiKeyMove) : Prop :=
  match m with
  | .spawn task => ∀ h ∈ task.newSecret hexdigest, (∀ row ∈ keys.rows, row.hashedKey ≠ some h) ∧
      ∀ th ∈ p.threads, th.tag.newSecret hexdigest ≠ some h
  | _ => True

/-- An operation that ends the activity of a secret of which a live copy is cached, or is about to be,
has read the secret. -/
def WritesRead (p : ApiKeyPool) (m : ApiKeyMove) : Prop :=
  m.OfThread p (fun th => ∀ row ∈ p.state.keys.rows, row.isActive = true → ∀ h ∈ row.hashedKey,
    ¬ ((system hexdigest).step p m).state.Active h → p.Offered h → h ∈ readSecrets th.trace)

/-- A live copy is stored before any eviction of its secret. -/
def FillsInTime (p : ApiKeyPool) (m : ApiKeyMove) : Prop :=
  m.OfThread p (fun th => ∀ x ∈ storing th, x.2.Live p.state.time →
    ∀ y ∈ p.threads, x.1 ∉ evicted y.trace)

/-- When an operation on a key returns, no other one on the key has yet to evict another secret of
which a live copy is cached, or is about to be. -/
def ReturnsLast (p : ApiKeyPool) (m : ApiKeyMove) : Prop :=
  m.OfThread p (fun th => ∀ keyId ∈ th.tag.keyIds, Returns hexdigest p m keyId →
    ∀ y ∈ p.threads, keyId ∈ y.tag.keyIds → ∀ h ∈ evicting y, p.Offered h → h ∈ evicting th)

structure InOrder (p : ApiKeyPool) (m : ApiKeyMove) : Prop where
  writes : WritesRead hexdigest p m
  fills : FillsInTime p m
  returns : ReturnsLast hexdigest p m

structure Orderly (keys : ApiKeyTable) (p : ApiKeyPool) (m : ApiKeyMove) : Prop where
  generates : GeneratesNew hexdigest keys p m
  order : InOrder hexdigest p m

section decidable
variable (keys : ApiKeyTable) (p : ApiKeyPool) (m : ApiKeyMove)

instance (keyId : ℕ) : Decidable (Returns hexdigest p m keyId) :=
  match m with
  | .advance i => inferInstanceAs (Decidable (∃ th ∈ p.threads[i]?, _ ∧ _ ∧ ∃ th' ∈ _, _))
  | .spawn _ => .isFalse id
  | .environment _ => .isFalse id

instance : Decidable (GeneratesNew hexdigest keys p m) :=
  match m with
  | .spawn task => inferInstanceAs (Decidable (∀ h ∈ task.newSecret hexdigest, _ ∧ _))
  | .advance _ => .isTrue trivial
  | .environment _ => .isTrue trivial

instance : Decidable (WritesRead hexdigest p m) := inferInstanceAs (Decidable (m.OfThread p _))

instance : Decidable (FillsInTime p m) := inferInstanceAs (Decidable (m.OfThread p _))

instance : Decidable (ReturnsLast hexdigest p m) := inferInstanceAs (Decidable (m.OfThread p _))

instance : Decidable (Orderly hexdigest keys p m) :=
  decidable_of_iff (GeneratesNew hexdigest keys p m ∧ WritesRead hexdigest p m ∧ FillsInTime p m ∧
      ReturnsLast hexdigest p m)
    ⟨fun h => ⟨h.1, h.2.1, h.2.2.1, h.2.2.2⟩,
      fun h => ⟨h.generates, h.order.writes, h.order.fills, h.order.returns⟩⟩

end decidable

end property
/-! ## Secrets that have been given out -/

section issued
variable {hexdigest : String → String} {keys : ApiKeyTable} {p : ApiKeyPool} {h : String}

def Given (hexdigest : String → String) (keys : ApiKeyTable) (p : ApiKeyPool) (h : String) : Prop :=
  (∃ row ∈ keys.rows, row.hashedKey = some h) ∨
    ∃ th ∈ p.threads, th.tag.newSecret hexdigest = some h ∧ rotatedIn th.trace = true

def Evicting (p : ApiKeyPool) (h : String) : Prop := ∃ th ∈ p.threads, h ∈ evicting th

def Evicted (p : ApiKeyPool) (h : String) : Prop := ∃ th ∈ p.threads, h ∈ evicted th.trace

/-- What every thread has, one step later a thread with the same task and a longer trace has. -/
theorem exists_thread_step {K : ApiKeyTask → ApiKeyTrace → Prop}
    (hK : ∀ task trace more, K task trace → K task (trace ++ more))
    (h : ∃ th ∈ p.threads, K th.tag th.trace) (m : ApiKeyMove) :
    ∃ th ∈ ((system hexdigest).step p m).threads, K th.tag th.trace := by
  obtain ⟨th, hth, hk⟩ := h
  obtain ⟨i, hi⟩ := List.getElem?_of_mem hth
  obtain ⟨th', hth', hmoves⟩ := (system hexdigest).step_getElem? hi m
  obtain ⟨more, hmore⟩ := hmoves.trace_prefix
  refine ⟨th', List.mem_of_getElem? hth', ?_⟩
  rw [hmoves.tag, ← hmore]
  exact hK _ _ more hk

theorem given_step (hgiven : Given hexdigest keys p h) (m : ApiKeyMove) :
    Given hexdigest keys ((system hexdigest).step p m) h := by
  rcases hgiven with hrow | hrotated
  · exact .inl hrow
  · right
    apply exists_thread_step (K := fun task trace => task.newSecret hexdigest = some h ∧
      rotatedIn trace = true) _ hrotated
    rintro task trace more ⟨hsecret, hrotated⟩
    refine ⟨hsecret, ?_⟩
    rw [rotatedIn, List.any_append]
    exact Bool.or_eq_true_iff.mpr (.inl hrotated)

theorem evicted_step (hevicted : p.Evicted h) (m : ApiKeyMove) :
    Evicted ((system hexdigest).step p m) h := by
  apply exists_thread_step (K := fun _ trace => h ∈ evicted trace) _ hevicted
  intro task trace more hmem
  rw [evicted, List.flatMap_append]
  exact List.mem_append_left _ hmem

structure Issued (hexdigest : String → String) (keys : ApiKeyTable) (p : ApiKeyPool) : Prop where
  once : ∀ (i j : ℕ) x y h, p.threads[i]? = some x → p.threads[j]? = some y →
    x.tag.newSecret hexdigest = some h → y.tag.newSecret hexdigest = some h → i = j
  unused : ∀ th ∈ p.threads, ∀ h ∈ th.tag.newSecret hexdigest, ∀ row ∈ keys.rows,
    row.hashedKey ≠ some h
  follows : ∀ th ∈ p.threads, FollowsProtocol hexdigest th.tag th.trace th.rest
  rows : ∀ row ∈ p.state.keys.rows, ∀ h ∈ row.hashedKey, Given hexdigest keys p h
  reads : ∀ th ∈ p.threads, ∀ h ∈ readSecrets th.trace, Given hexdigest keys p h ∧
    ∀ row ∈ p.state.keys.rows, row.hashedKey = some h → row.id ∈ th.tag.keyIds

theorem issued_start (time : ℕ) (keys : ApiKeyTable)
    (refuses : ApiKeyUpdate ⊕ ApiKeyCreateInternal → Bool) :
    Issued hexdigest keys (start time keys refuses) where
  once i j x y h hi := by cases hi
  unused th hth := absurd hth List.not_mem_nil
  follows th hth := absurd hth List.not_mem_nil
  rows row hrow h hh := .inl ⟨row, hrow, hh⟩
  reads th hth := absurd hth List.not_mem_nil

section call
variable {i : ℕ} {th : ApiKeyThread} {c : ApiKeyCall}
  {next : c.Answer → ApiKeyProgram (Except ApiKeyError ApiKeyOutcome)}

/-- The call of a thread is one that its protocol allows. -/
theorem Issued.allowed (hp : Issued hexdigest keys p) (hth : p.threads[i]? = some th)
    (hrest : th.rest = .call c next) : allowed hexdigest th.tag th.trace c := by
  have hfollows := hp.follows th (List.mem_of_getElem? hth)
  rw [hrest] at hfollows
  exact hfollows.1.1

/-- The hash that a rotation writes has not been given out. -/
theorem Issued.not_given (hp : Issued hexdigest keys p) (hth : p.threads[i]? = some th)
    {keyId : ℕ} {newPrefix : String} (hc : c = .rotateKey keyId newPrefix h)
    (hrest : th.rest = .call c next) : ¬ Given hexdigest keys p h := by
  have hallowed := hp.allowed hth hrest
  subst hc
  rintro (⟨row, hrow, hhash⟩ | ⟨y, hy, hsecret, hrotated⟩)
  · exact hp.unused th (List.mem_of_getElem? hth) h hallowed.1 row hrow hhash
  · obtain ⟨j, hj⟩ := List.getElem?_of_mem hy
    obtain rfl := hp.once i j th y h hth hj hallowed.1 hsecret
    rw [hth] at hj
    cases hj
    rw [hallowed.2] at hrotated
    cases hrotated

/-- A row with a secret that was given out had it before the call, and was active if it is. -/
theorem Issued.row_before (hp : Issued hexdigest keys p) (hth : p.threads[i]? = some th)
    (hrest : th.rest = .call c next) (hgiven : Given hexdigest keys p h) {row : ApiKeyData}
    (hrow : row ∈ (ApiKeyStore.handler c p.state).2.keys.rows) (hhash : row.hashedKey = some h) :
    ∃ old ∈ p.state.keys.rows, old.id = row.id ∧ old.hashedKey = some h ∧
      (row.isActive = true → old.isActive = true) := by
  rcases mem_rows_handler (hp.allowed hth hrest) hrow with ⟨old, hold, hid, hsame, hactive⟩ |
    ⟨keyId, newPrefix, newHashedKey, hc, hnew⟩
  · exact ⟨old, hold, hid, hsame.trans hhash, hactive⟩
  · rw [hhash] at hnew
    cases hnew
    exact absurd hgiven (hp.not_given hth hc hrest)

end call

theorem Issued.row_step (hp : Issued hexdigest keys p) (hgiven : Given hexdigest keys p h)
    {m : ApiKeyMove} {row : ApiKeyData} (hrow : row ∈ ((system hexdigest).step p m).state.keys.rows)
    (hhash : row.hashedKey = some h) : ∃ old ∈ p.state.keys.rows, old.id = row.id ∧
      old.hashedKey = some h ∧ (row.isActive = true → old.isActive = true) := by
  have hcase := (system hexdigest).step_cases p m
  generalize (system hexdigest).step p m = q at hrow hcase
  cases hcase with
  | call hth hrest => exact hp.row_before hth hrest hgiven hrow hhash
  | _ => exact ⟨row, hrow, rfl, hhash, id⟩

/-- What is no longer the secret of an active key never is again. -/
theorem Issued.active_step (hp : Issued hexdigest keys p) (hgiven : Given hexdigest keys p h)
    {m : ApiKeyMove} (hactive : ((system hexdigest).step p m).state.Active h) : p.state.Active h := by
  obtain ⟨row, hrow, hhash, hrowActive⟩ := hactive
  obtain ⟨old, hold, -, holdHash, holdActive⟩ := hp.row_step hgiven hrow hhash
  exact ⟨old, hold, holdHash, holdActive hrowActive⟩

theorem tag_step {m : ApiKeyMove} {j : ℕ} {x' : ApiKeyThread}
    (hx : ((system hexdigest).step p m).threads[j]? = some x') :
    (∃ x, p.threads[j]? = some x ∧ x.tag = x'.tag) ∨ (m = .spawn x'.tag ∧ j = p.threads.length) := by
  rcases (system hexdigest).step_thread hx with hold | ⟨task, hm, hj, rfl⟩ | ⟨x, c, next, -, hold, -, rfl⟩
  · exact .inl ⟨x', hold, rfl⟩
  · exact .inr ⟨hm, hj⟩
  · exact .inl ⟨x, hold, rfl⟩

theorem Issued.once_step (hp : Issued hexdigest keys p) {m : ApiKeyMove}
    (hgen : GeneratesNew hexdigest keys p m) (i j : ℕ) (x y : ApiKeyThread) (h : String)
    (hi : ((system hexdigest).step p m).threads[i]? = some x)
    (hj : ((system hexdigest).step p m).threads[j]? = some y)
    (hx : x.tag.newSecret hexdigest = some h) (hy : y.tag.newSecret hexdigest = some h) : i = j := by
  rcases tag_step hi with ⟨x₀, hx₀, htagx⟩ | ⟨hm, hlasti⟩
  · rcases tag_step hj with ⟨y₀, hy₀, htagy⟩ | ⟨hm, -⟩
    · exact hp.once i j x₀ y₀ h hx₀ hy₀ (htagx ▸ hx) (htagy ▸ hy)
    · subst hm
      exact absurd (htagx ▸ hx) ((hgen h hy).2 x₀ (List.mem_of_getElem? hx₀))
  · subst hm
    rcases tag_step hj with ⟨y₀, hy₀, htagy⟩ | ⟨-, hlastj⟩
    · exact absurd (htagy ▸ hy) ((hgen h hx).2 y₀ (List.mem_of_getElem? hy₀))
    · rw [hlasti, hlastj]

theorem Issued.rows_step (hp : Issued hexdigest keys p) (m : ApiKeyMove) (row : ApiKeyData)
    (hrow : row ∈ ((system hexdigest).step p m).state.keys.rows) (h : String) (hh : h ∈ row.hashedKey) :
    Given hexdigest keys ((system hexdigest).step p m) h := by
  have hcase := (system hexdigest).step_cases p m
  generalize hq : (system hexdigest).step p m = q at hrow hcase
  have hgiven (hold : Given hexdigest keys p h) : Given hexdigest keys q h := hq ▸ given_step hold m
  cases hcase with
  | @call i th c next hth hrest =>
    have hallowed := hp.allowed hth hrest
    rcases mem_rows_handler hallowed hrow with ⟨old, hold, -, hsame, -⟩ |
      ⟨keyId, newPrefix, newHashedKey, rfl, hnew⟩
    · exact hgiven (hp.rows old hold h (hsame.trans hh))
    · rw [hh] at hnew
      cases hnew
      right
      have hlt : i < p.threads.length := (List.getElem?_eq_some_iff.mp hth).1
      refine ⟨_, List.mem_set hlt _, hallowed.1, ?_⟩
      change rotatedIn (th.trace ++ [_]) = true
      rw [rotatedIn_concat]
      exact Bool.or_true _
  | _ => exact hgiven (hp.rows row hrow h hh)

theorem Issued.reads_step (hp : Issued hexdigest keys p) (m : ApiKeyMove) (x' : ApiKeyThread)
    (hx' : x' ∈ ((system hexdigest).step p m).threads) (h : String) (hh : h ∈ readSecrets x'.trace) :
    Given hexdigest keys ((system hexdigest).step p m) h ∧
      ∀ row ∈ ((system hexdigest).step p m).state.keys.rows, row.hashedKey = some h →
        row.id ∈ x'.tag.keyIds := by
  have hkept {x : ApiKeyThread} (hgiven : Given hexdigest keys p h)
      (hids : ∀ row ∈ p.state.keys.rows, row.hashedKey = some h → row.id ∈ x.tag.keyIds) :
      Given hexdigest keys ((system hexdigest).step p m) h ∧
        ∀ row ∈ ((system hexdigest).step p m).state.keys.rows, row.hashedKey = some h →
          row.id ∈ x.tag.keyIds := by
    refine ⟨given_step hgiven m, fun row hrow hhash => ?_⟩
    obtain ⟨old, hold, hid, holdHash, -⟩ := hp.row_step hgiven hrow hhash
    rw [← hid]
    exact hids old hold holdHash
  obtain ⟨j, hj⟩ := List.getElem?_of_mem hx'
  rcases (system hexdigest).step_thread hj with hold | ⟨task, -, -, rfl⟩ |
    ⟨x, c, next, -, hx, hrest, rfl⟩
  · obtain ⟨hgiven, hids⟩ := hp.reads x' (List.mem_of_getElem? hold) h hh
    exact hkept hgiven hids
  · cases hh
  · change h ∈ readSecrets (x.trace ++ [_]) at hh
    rw [readSecrets_concat] at hh
    rcases List.mem_append.mp hh with hbefore | hnow
    · obtain ⟨hgiven, hids⟩ := hp.reads x (List.mem_of_getElem? hx) h hbefore
      exact hkept (x := x) hgiven hids
    · obtain ⟨row, hrow, hhash, hid⟩ := row_of_secretsIn (hp.allowed hx hrest) hnow
      refine hkept (x := x) (hp.rows row hrow h hhash) (fun other hother hotherHash => ?_)
      rw [p.state.keys.eq_of_hashedKey hother hrow (hotherHash.trans hhash.symm)]
      exact hid

theorem issued_step (hp : Issued hexdigest keys p) {m : ApiKeyMove}
    (hgen : GeneratesNew hexdigest keys p m) : Issued hexdigest keys ((system hexdigest).step p m) where
  once := hp.once_step hgen
  unused x' hx' h hh := by
    obtain ⟨j, hj⟩ := List.getElem?_of_mem hx'
    rcases tag_step hj with ⟨x, hx, htag⟩ | ⟨rfl, -⟩
    · exact hp.unused x (List.mem_of_getElem? hx) h (htag ▸ hh)
    · exact (hgen h hh).1
  follows := (system hexdigest).everyThread_step (K := fun th =>
      FollowsProtocol hexdigest th.tag th.trace th.rest) hp.follows
    (fun task _ => follows_program task)
    (fun _ _ _ _ _ hrest hfollows => (Protocol.Follows.answered hfollows hrest trivial).2)
  rows := hp.rows_step m
  reads := hp.reads_step m

end issued

/-! ## Copies of secrets -/

section current
variable {hexdigest : String → String} {keys : ApiKeyTable} {p : ApiKeyPool} {h : String}

/-- A live copy is that of an active key, or its secret is being evicted or has been; and what has
been evicted is not cached. -/
structure Current (p : ApiKeyPool) : Prop where
  offered : ∀ h, p.Offered h → p.state.Active h ∨ p.Evicting h ∨ p.Evicted h
  cached : ∀ h, ∀ key ∈ p.state.cache.get p.state.time h, key.Live p.state.time → ¬ p.Evicted h

theorem current_start (time : ℕ) (keys : ApiKeyTable)
    (refuses : ApiKeyUpdate ⊕ ApiKeyCreateInternal → Bool) : Current (start time keys refuses) where
  offered h hoffered := by
    rcases hoffered with ⟨key, hkey, -⟩ | ⟨th, hth, -⟩
    · cases hkey
    · cases hth
  cached h key hkey := by cases hkey

/-- Time only makes copies die. -/
theorem live_later {time seconds : ℕ} {key : ApiKeyData} (hlive : key.Live (time + seconds)) :
    key.Live time :=
  ⟨hlive.1, fun expiresAt hexpires => Nat.le_of_add_right_le (hlive.2 expiresAt hexpires)⟩

theorem get_later {st : ExpiringStore String ApiKeyData} {time seconds : ℕ} {key : ApiKeyData}
    (hget : st.get (time + seconds) h = some key) : st.get time h = some key := by
  obtain ⟨e, he, halive, hvalue⟩ := ExpiringStore.get_eq_some_iff.mp hget
  exact ExpiringStore.get_eq_some_iff.mpr
    ⟨e, he, ExpiringStore.aliveAt_antitone (Nat.le_add_right _ _) halive, hvalue⟩

/-- A thread that is about to store a copy has just fetched it. -/
theorem justFetched_of_storing {th : ApiKeyThread} {x : String × ApiKeyData}
    (hfollows : FollowsProtocol hexdigest th.tag th.trace th.rest) (hx : x ∈ storing th) :
    th.tag.keyIds = [] ∧ justFetched th.trace = some x := by
  unfold storing at hx
  cases hrest : th.rest with
  | pure a =>
    rw [Thread.nextCall, hrest] at hx
    cases hx
  | raise e =>
    rw [Thread.nextCall, hrest] at hx
    cases hx
  | call c next =>
    rw [Thread.nextCall_of_rest hrest] at hx
    rw [hrest] at hfollows
    cases c with
    | cacheSet hashedKey key expire =>
      cases hx
      exact hfollows.1.1
    | _ => cases hx

theorem storing_of_rest {th : ApiKeyThread} {key : ApiKeyData} {expire : ℕ}
    {next : Unit → ApiKeyProgram (Except ApiKeyError ApiKeyOutcome)}
    (hrest : th.rest = .call (.cacheSet h key expire) next) : (h, key) ∈ storing th := by
  rw [storing, Thread.nextCall_of_rest hrest]
  rfl

/-- A live copy was there before the move, or it has just been fetched from an active row. -/
theorem offered_before (hp : Issued hexdigest keys p) {m : ApiKeyMove}
    (hoffered : Offered ((system hexdigest).step p m) h) :
    p.Offered h ∨ ((system hexdigest).step p m).state.Active h := by
  have hcase := (system hexdigest).step_cases p m
  generalize (system hexdigest).step p m = q at hoffered hcase
  cases hcase with
  | idle i => exact .inl hoffered
  | environment seconds =>
    left
    rcases hoffered with ⟨key, hkey, hlive⟩ | ⟨th, hth, x, hx, hhash, hlive⟩
    · exact .inl ⟨key, get_later hkey, live_later hlive⟩
    · exact .inr ⟨th, hth, x, hx, hhash, live_later hlive⟩
  | spawn task =>
    left
    rcases hoffered with hcached | ⟨th, hth, x, hx, hrest⟩
    · exact .inl hcached
    · rcases List.mem_append.mp hth with hold | hnew
      · exact .inr ⟨th, hold, x, hx, hrest⟩
      · rw [List.mem_singleton.mp hnew] at hx
        have hfetched := (justFetched_of_storing (follows_program task) hx).2
        cases hfetched
  | @call i th c next hth hrest =>
    have htime : (ApiKeyStore.handler c p.state).2.time = p.state.time := time_handler c p.state
    have hmem := List.mem_of_getElem? hth
    rcases hoffered with ⟨key, hkey, hlive⟩ | ⟨y, hy, x, hx, hhash, hlive⟩
    · left
      change key.Live (ApiKeyStore.handler c p.state).2.time at hlive
      change (ApiKeyStore.handler c p.state).2.cache.get (ApiKeyStore.handler c p.state).2.time h =
        some key at hkey
      rw [htime] at hlive hkey
      rcases cached_handler hkey with ⟨stored, expire, rfl, rfl⟩ | ⟨hbefore, -⟩
      · exact .inr ⟨th, hmem, (h, stored), storing_of_rest hrest, rfl, hlive⟩
      · exact .inl ⟨key, hbefore, hlive⟩
    · change x.2.Live (ApiKeyStore.handler c p.state).2.time at hlive
      rw [htime] at hlive
      rcases mem_set_thread hy with rfl | ⟨j, -, hold⟩
      · right
        have hfollows := (Protocol.Follows.answered (hp.follows th hmem) hrest
          (r := (ApiKeyStore.handler c p.state).1) trivial).2
        have hfetched := (justFetched_of_storing hfollows hx).2
        change justFetched (th.trace ++ [_]) = some x at hfetched
        rw [justFetched_concat] at hfetched
        cases c with
        | selectByHash hashedKey =>
          obtain ⟨row, hrow, rfl⟩ := Option.map_eq_some_iff.mp hfetched
          subst hhash
          exact ⟨row, List.mem_of_find?_eq_some hrow, by simpa using List.find?_some hrow, hlive.1⟩
        | _ => cases hfetched
      · exact .inl (.inr ⟨y, List.mem_of_getElem? hold, x, hx, hhash, hlive⟩)

/-- Right after a change, what the thread has read is evicted next. -/
theorem evicting_of_changed {th : ApiKeyThread}
    (hfollows : FollowsProtocol hexdigest th.tag th.trace th.rest) (hchanged : justChanged th.trace = true)
    (hread : h ∈ readSecrets th.trace) : h ∈ evicting th := by
  have hne : readSecrets th.trace ≠ [] := List.ne_nil_of_mem hread
  cases hrest : th.rest with
  | pure a =>
    rw [hrest] at hfollows
    exact absurd (hfollows hchanged) hne
  | raise e =>
    rw [hrest] at hfollows
    exact hfollows.elim
  | call c next =>
    rw [hrest] at hfollows
    rw [evicting, Thread.nextCall_of_rest hrest, hfollows.1.2 hchanged hne]
    exact hread

theorem evicting_step (hevicting : p.Evicting h) (m : ApiKeyMove) :
    Evicting ((system hexdigest).step p m) h ∨ Evicted ((system hexdigest).step p m) h := by
  obtain ⟨y, hy, hmem⟩ := hevicting
  obtain ⟨j, hj⟩ := List.getElem?_of_mem hy
  obtain ⟨y', hy', hmoves⟩ := (system hexdigest).step_getElem? hj m
  rcases hmoves with rfl | ⟨c, next, hrest, rfl⟩
  · exact .inl ⟨_, List.mem_of_getElem? hy', hmem⟩
  · right
    refine ⟨_, List.mem_of_getElem? hy', ?_⟩
    rw [evicting, Thread.nextCall_of_rest hrest] at hmem
    change h ∈ evicted (y.trace ++ [_])
    rw [evicted_concat]
    exact List.mem_append_right _ hmem

/-- A secret that is no longer active after a move is being evicted, if there are live copies. -/
theorem evicting_of_ended (hp : Issued hexdigest keys p) {m : ApiKeyMove}
    (hwrites : WritesRead hexdigest p m) (hoffered : p.Offered h) (hactive : p.state.Active h)
    (hended : ¬ ((system hexdigest).step p m).state.Active h) :
    Evicting ((system hexdigest).step p m) h := by
  obtain ⟨row, hrow, hhash, hrowActive⟩ := hactive
  have hcase := (system hexdigest).step_cases p m
  generalize hq : (system hexdigest).step p m = q at hended hcase
  cases hcase with
  | @call i th c next hth hrest =>
    have hmem := List.mem_of_getElem? hth
    have hread := hwrites th hth row hrow hrowActive h hhash (hq.symm ▸ hended) hoffered
    have hchanged : changes ⟨c, (ApiKeyStore.handler c p.state).1⟩ = true := by
      by_contra hnot
      have hsame := rows_handler_of_not_changes (hp.allowed hth hrest) (Bool.not_eq_true _ ▸ hnot)
      exact hended ⟨row, hsame.symm ▸ hrow, hhash, hrowActive⟩
    have hfollows := (Protocol.Follows.answered (hp.follows th hmem) hrest
      (r := (ApiKeyStore.handler c p.state).1) trivial).2
    have hlt : i < p.threads.length := (List.getElem?_eq_some_iff.mp hth).1
    refine ⟨_, List.mem_set hlt _, evicting_of_changed hfollows ?_ ?_⟩
    · exact (justChanged_concat _ _).trans hchanged
    · change h ∈ readSecrets (th.trace ++ [_])
      rw [readSecrets_concat]
      exact List.mem_append_left _ hread
  | _ => exact absurd ⟨row, hrow, hhash, hrowActive⟩ hended

/-- What is evicted after a call was before, or is evicted by it. -/
theorem evicted_of_call {i : ℕ} {th : ApiKeyThread} {c : ApiKeyCall} {answer : c.Answer}
    {next : c.Answer → ApiKeyProgram (Except ApiKeyError ApiKeyOutcome)} {s : ApiKeyStore}
    (hth : p.threads[i]? = some th)
    (hevicted : Evicted ⟨s, p.threads.set i (th.answered c answer next)⟩ h) :
    p.Evicted h ∨ h ∈ evictedBy c := by
  obtain ⟨y, hy, hmem⟩ := hevicted
  rcases mem_set_thread hy with rfl | ⟨j, -, hold⟩
  · change h ∈ evicted (th.trace ++ [_]) at hmem
    rw [evicted_concat] at hmem
    rcases List.mem_append.mp hmem with hbefore | hnow
    · exact .inl ⟨th, List.mem_of_getElem? hth, hbefore⟩
    · exact .inr hnow
  · exact .inl ⟨y, List.mem_of_getElem? hold, hmem⟩

theorem Current.cached_step (hcurrent : p.Current) {m : ApiKeyMove} (hfills : FillsInTime p m)
    {key : ApiKeyData}
    (hkey : ((system hexdigest).step p m).state.cache.get ((system hexdigest).step p m).state.time h =
      some key) (hlive : key.Live ((system hexdigest).step p m).state.time) :
    ¬ Evicted ((system hexdigest).step p m) h := by
  have hcase := (system hexdigest).step_cases p m
  generalize (system hexdigest).step p m = q at hkey hlive hcase ⊢
  intro hevicted
  cases hcase with
  | idle i => exact hcurrent.cached h key hkey hlive hevicted
  | environment seconds =>
    exact hcurrent.cached h key (get_later hkey) (live_later hlive) hevicted
  | spawn task =>
    obtain ⟨y, hy, hmem⟩ := hevicted
    rcases List.mem_append.mp hy with hold | hnew
    · exact hcurrent.cached h key hkey hlive ⟨y, hold, hmem⟩
    · rw [List.mem_singleton.mp hnew] at hmem
      cases hmem
  | @call i th c next hth hrest =>
    have htime : (ApiKeyStore.handler c p.state).2.time = p.state.time := time_handler c p.state
    change key.Live (ApiKeyStore.handler c p.state).2.time at hlive
    change (ApiKeyStore.handler c p.state).2.cache.get (ApiKeyStore.handler c p.state).2.time h =
      some key at hkey
    rw [htime] at hlive hkey
    rcases cached_handler hkey with ⟨stored, expire, rfl, rfl⟩ | ⟨hbefore, hnot⟩
    · rcases evicted_of_call hth hevicted with ⟨y, hy, hmem⟩ | hnow
      · exact hfills th hth (h, stored) (storing_of_rest hrest) hlive y hy hmem
      · cases hnow
    · rcases evicted_of_call hth hevicted with hold | hnow
      · exact hcurrent.cached h key hbefore hlive hold
      · exact hnot hnow

theorem current_step (hp : Issued hexdigest keys p) (hcurrent : p.Current) {m : ApiKeyMove}
    (hin : InOrder hexdigest p m) : Current ((system hexdigest).step p m) where
  offered h hoffered := by
    by_cases hactive : ((system hexdigest).step p m).state.Active h
    · exact .inl hactive
    · right
      rcases offered_before hp hoffered with hbefore | hnow
      · rcases hcurrent.offered h hbefore with hwas | hevicting | hevicted
        · exact .inl (evicting_of_ended hp hin.writes hbefore hwas hactive)
        · exact evicting_step hevicting m
        · exact .inr (evicted_step hevicted m)
      · exact absurd hnow hactive
  cached _ _ hkey hlive := hcurrent.cached_step hin.fills hkey hlive

end current

/-! ## After an operation has returned -/

section returned
variable {hexdigest : String → String} {keys : ApiKeyTable} {p : ApiKeyPool} {keyId : ℕ} {h : String}

/-- The secret was given to the key, and whoever has read it works on the key. -/
structure Owned (hexdigest : String → String) (keys : ApiKeyTable) (keyId : ℕ) (h : String)
    (p : ApiKeyPool) : Prop where
  given : Given hexdigest keys p h
  rows : ∀ row ∈ p.state.keys.rows, row.hashedKey = some h → row.id = keyId
  reads : ∀ th ∈ p.threads, h ∈ readSecrets th.trace → keyId ∈ th.tag.keyIds

theorem Issued.owned (hp : Issued hexdigest keys p) (hsecret : p.state.IsSecret keyId h) :
    Owned hexdigest keys keyId h p := by
  obtain ⟨row, hrow, rfl, hhash, -⟩ := hsecret
  refine ⟨hp.rows row hrow h hhash, fun other hother hotherHash => ?_, fun th hth hread => ?_⟩
  · rw [p.state.keys.eq_of_hashedKey hother hrow (hotherHash.trans hhash.symm)]
  · exact (hp.reads th hth h hread).2 row hrow hhash

theorem owned_step (hp : Issued hexdigest keys p) (howned : Owned hexdigest keys keyId h p)
    (m : ApiKeyMove) : Owned hexdigest keys keyId h ((system hexdigest).step p m) where
  given := given_step howned.given m
  rows row hrow hhash := by
    obtain ⟨old, hold, hid, holdHash, -⟩ := hp.row_step howned.given hrow hhash
    rw [← hid]
    exact howned.rows old hold holdHash
  reads x' hx' hread := by
    obtain ⟨j, hj⟩ := List.getElem?_of_mem hx'
    rcases (system hexdigest).step_thread hj with hold | ⟨task, -, -, rfl⟩ |
      ⟨x, c, next, -, hx, hrest, rfl⟩
    · exact howned.reads x' (List.mem_of_getElem? hold) hread
    · cases hread
    · change h ∈ readSecrets (x.trace ++ [_]) at hread
      rw [readSecrets_concat] at hread
      rcases List.mem_append.mp hread with hbefore | hnow
      · exact howned.reads x (List.mem_of_getElem? hx) hbefore
      · obtain ⟨row, hrow, hhash, hid⟩ := row_of_secretsIn (hp.allowed hx hrest) hnow
        rw [howned.rows row hrow hhash] at hid
        exact hid

/-- The secret is no active one, and its live copies have been evicted, or there are none. -/
structure Buried (hexdigest : String → String) (keys : ApiKeyTable) (h : String) (p : ApiKeyPool) :
    Prop where
  given : Given hexdigest keys p h
  inactive : ¬ p.state.Active h
  offers : p.Evicted h ∨ ¬ p.Offered h

theorem buried_step (hp : Issued hexdigest keys p) (hburied : Buried hexdigest keys h p)
    (m : ApiKeyMove) : Buried hexdigest keys h ((system hexdigest).step p m) where
  given := given_step hburied.given m
  inactive hactive := hburied.inactive (hp.active_step hburied.given hactive)
  offers := by
    rcases hburied.offers with hevicted | hnone
    · exact .inl (evicted_step hevicted m)
    · right
      intro hoffered
      rcases offered_before hp hoffered with hbefore | hnow
      · exact hnone hbefore
      · exact hburied.inactive (hp.active_step hburied.given hnow)

/-- Once the secret is buried, no live copy is cached. -/
theorem Buried.not_cached (hburied : Buried hexdigest keys h p) (hcurrent : p.Current) {key : ApiKeyData}
    (hkey : p.state.cache.get p.state.time h = some key) : ¬ key.Live p.state.time := by
  intro hlive
  rcases hburied.offers with hevicted | hnone
  · exact hcurrent.cached h key hkey hlive hevicted
  · exact hnone (.inl ⟨key, hkey, hlive⟩)

theorem readSecrets_of_evicting {th : ApiKeyThread}
    (hfollows : FollowsProtocol hexdigest th.tag th.trace th.rest) (hevicting : h ∈ evicting th) :
    h ∈ readSecrets th.trace := by
  unfold evicting at hevicting
  cases hcall : th.nextCall with
  | none =>
    rw [hcall] at hevicting
    cases hevicting
  | some c =>
    obtain ⟨next, hrest⟩ := Thread.rest_of_nextCall hcall
    rw [hcall] at hevicting
    rw [hrest] at hfollows
    cases c with
    | cacheDelete hashedKeys => exact hfollows.1.1 hevicting
    | _ => cases hevicting

/-- The thread of an operation that returns makes its last call with the move. -/
theorem Returns.last {m : ApiKeyMove} (h : Returns hexdigest p m keyId) :
    ∃ (i : ℕ) (th : ApiKeyThread) (c : ApiKeyCall)
      (next : c.Answer → ApiKeyProgram (Except ApiKeyError ApiKeyOutcome)),
      m = .advance i ∧ p.threads[i]? = some th ∧ keyId ∈ th.tag.keyIds ∧ th.rest = .call c next ∧
        next (ApiKeyStore.handler c p.state).1 = .pure (.ok .done) := by
  cases m with
  | spawn task => exact h.elim
  | environment seconds => exact h.elim
  | advance i =>
    obtain ⟨th, hth, hkey, hcall, th', hth', hresult⟩ := h
    obtain ⟨c, hc⟩ := Option.isSome_iff_exists.mp hcall
    obtain ⟨next, hrest⟩ := Thread.rest_of_nextCall hc
    refine ⟨i, th, c, next, rfl, hth, hkey, hrest, ?_⟩
    have hlt : i < p.threads.length := (List.getElem?_eq_some_iff.mp hth).1
    rw [(system hexdigest).step_advance hth hrest] at hth'
    change (p.threads.set i _)[i]? = some th' at hth'
    rw [List.getElem?_set_self hlt] at hth'
    cases hth'
    exact Thread.result_eq_some.mp hresult

/-- What is still being evicted when the operation returns has been evicted by it. -/
theorem evicted_of_returns (hp : Issued hexdigest keys p) (howned : Owned hexdigest keys keyId h p)
    {m : ApiKeyMove} (hlast : ReturnsLast hexdigest p m) (hreturns : Returns hexdigest p m keyId)
    (hoffered : p.Offered h) (hevicting : Evicting ((system hexdigest).step p m) h) :
    Evicted ((system hexdigest).step p m) h := by
  obtain ⟨i, th, c, next, rfl, hth, hkey, hrest, hdone⟩ := hreturns.last
  have hlt : i < p.threads.length := (List.getElem?_eq_some_iff.mp hth).1
  obtain ⟨y, hy, hmem⟩ := hevicting
  rw [(system hexdigest).step_advance hth hrest] at hy ⊢
  rcases mem_set_thread hy with rfl | ⟨j, -, hold⟩
  · -- the operation itself makes no further call
    change h ∈ evicting ⟨_, _, next (ApiKeyStore.handler c p.state).1⟩ at hmem
    rw [hdone] at hmem
    cases hmem
  · have hyold := List.mem_of_getElem? hold
    have hread := readSecrets_of_evicting (hp.follows y hyold) hmem
    have hnow := hlast th hth keyId hkey hreturns y hyold (howned.reads y hyold hread) h hmem hoffered
    rw [evicting, Thread.nextCall_of_rest hrest] at hnow
    refine ⟨_, List.mem_set hlt _, ?_⟩
    change h ∈ evicted (th.trace ++ [_])
    rw [evicted_concat]
    exact List.mem_append_right _ hnow

/-- What has stopped being a secret of the key is buried when an operation on the key returns. -/
theorem buried_of_returns (hp : Issued hexdigest keys p) (hcurrent : p.Current)
    (howned : Owned hexdigest keys keyId h p) {m : ApiKeyMove} (hin : InOrder hexdigest p m)
    (hreturns : Returns hexdigest p m keyId)
    (hnot : ¬ ((system hexdigest).step p m).state.IsSecret keyId h) :
    Buried hexdigest keys h ((system hexdigest).step p m) := by
  have hinactive : ¬ ((system hexdigest).step p m).state.Active h := by
    rintro ⟨row, hrow, hhash, hactive⟩
    exact hnot ⟨row, hrow, (owned_step hp howned m).rows row hrow hhash, hhash, hactive⟩
  refine ⟨given_step howned.given m, hinactive, ?_⟩
  by_cases hoffered : Offered ((system hexdigest).step p m) h
  · left
    rcases (current_step hp hcurrent hin).offered h hoffered with hactive | hevicting | hevicted
    · exact absurd hactive hinactive
    · rcases offered_before hp hoffered with hbefore | hnow
      · exact evicted_of_returns hp howned hin.returns hreturns hbefore hevicting
      · exact absurd hnow hinactive
    · exact hevicted
  · exact .inr hoffered

end returned

/-! ## Verifications that begin later -/

def Possible (h : String) (time : ℕ) : (c : ApiKeyCall) → c.Answer → Prop
  | .cacheGet hashedKey, answer => hashedKey = h → ∀ key ∈ answer, ¬ key.Live time
  | .selectByHash hashedKey, answer => hashedKey = h → ∀ key ∈ answer, key.isActive = false
  | .now, now => now = time
  | _, _ => True

def Rejects (h : String) : ℕ → ApiKeyProgram (Except ApiKeyError ApiKeyOutcome) → Prop
  | _, .pure result => ∀ key, result ≠ .ok (.verified (some key))
  | _, .raise _ => True
  | time, .call c next => ∀ later answer, time ≤ later → Possible h later c answer →
      Rejects h later (next answer)

section later
variable {hexdigest : String → String} {keys : ApiKeyTable} {p : ApiKeyPool} {h : String}

theorem rejects_later {time later : ℕ} (hle : time ≤ later)
    {program : ApiKeyProgram (Except ApiKeyError ApiKeyOutcome)} (hrejects : Rejects h time program) :
    Rejects h later program := by
  cases program with
  | pure result => exact hrejects
  | raise e => trivial
  | call c next =>
    exact fun later' answer hlater => hrejects later' answer (Nat.le_trans hle hlater)

theorem rejects_checkKey {time : ℕ} {key : ApiKeyData} (hdead : ¬ key.Live time)
    (ipAddress : Option String) : Rejects h time
      (checkKey .wrapper key ipAddress >>= fun key => pure (.verified key)).attempt := by
  unfold checkKey hasExpired
  split_ifs with hinactive
  · intro found hfound
    cases hfound
  · have hactive : key.isActive = true := by simpa using hinactive
    cases hexpires : key.expiresAt with
    | none => exact absurd ⟨hactive, by simp [hexpires]⟩ hdead
    | some expiresAt =>
      have hexpired : expiresAt < time := by
        by_contra hnot
        exact hdead ⟨hactive, by simpa [hexpires] using hnot⟩
      rintro later now hlater rfl
      have hlt : expiresAt < now := Nat.lt_of_lt_of_le hexpired hlater
      change Rejects h now ((if decide (expiresAt < now) = true then pure none
        else useKey .wrapper key ipAddress) >>= fun key => pure (.verified key)).attempt
      rw [decide_eq_true hlt]
      intro found hfound
      cases hfound

theorem rejects_verify (rawKey : String) (ipAddress : Option String) (time : ℕ) :
    Rejects (hexdigest rawKey) time (ApiKeyTask.program hexdigest (.verify rawKey ipAddress)) := by
  change Rejects _ _ (verifyApiKey hexdigest .wrapper rawKey ipAddress >>= fun key =>
    pure (.verified key)).attempt
  unfold verifyApiKey
  split_ifs
  · intro found hfound
    cases hfound
  · intro later cached _ hcached
    cases cached with
    | some key => exact rejects_checkKey (hcached rfl key rfl) ipAddress
    | none =>
      intro later' row _ hrow
      cases row with
      | none =>
        intro found hfound
        cases hfound
      | some key =>
        intro last _ _ _
        have hinactive : key.isActive = false := hrow rfl key rfl
        apply rejects_checkKey
        rintro ⟨hactive, -⟩
        rw [hinactive] at hactive
        cases hactive

/-- What Redis and the table answer while the secret is buried. -/
theorem Buried.possible (hburied : Buried hexdigest keys h p) (hcurrent : p.Current) (c : ApiKeyCall) :
    Possible h p.state.time c (ApiKeyStore.handler c p.state).1 := by
  cases c with
  | cacheGet hashedKey =>
    rintro rfl key hkey
    exact hburied.not_cached hcurrent hkey
  | selectByHash hashedKey =>
    rintro rfl key hkey
    have hhash : key.hashedKey = some hashedKey := by simpa using List.find?_some hkey
    by_contra hactive
    exact hburied.inactive ⟨key, List.mem_of_find?_eq_some hkey, hhash, by simpa using hactive⟩
  | now => rfl
  | _ => trivial

/-- The pool after the return: the verifications behind the first threads reject the key. -/
structure Closed (hexdigest : String → String) (keys : ApiKeyTable) (rawKey : String) (n : ℕ)
    (p : ApiKeyPool) : Prop where
  issued : Issued hexdigest keys p
  current : p.Current
  buried : Buried hexdigest keys (hexdigest rawKey) p
  length : n ≤ p.threads.length
  rejects : ∀ (i : ℕ) (th : ApiKeyThread) (ipAddress : Option String), n ≤ i →
    p.threads[i]? = some th → th.tag = .verify rawKey ipAddress →
      Rejects (hexdigest rawKey) p.state.time th.rest

theorem time_step (p : ApiKeyPool) (m : ApiKeyMove) :
    p.state.time ≤ ((system hexdigest).step p m).state.time := by
  have hcase := (system hexdigest).step_cases p m
  generalize (system hexdigest).step p m = q at hcase
  cases hcase with
  | environment seconds => exact Nat.le_add_right _ _
  | @call i th c next hth hrest => exact Nat.le_of_eq (time_handler c p.state).symm
  | _ => exact Nat.le_refl _

theorem length_step (p : ApiKeyPool) (m : ApiKeyMove) :
    p.threads.length ≤ ((system hexdigest).step p m).threads.length := by
  have hcase := (system hexdigest).step_cases p m
  generalize (system hexdigest).step p m = q at hcase
  cases hcase with
  | spawn task => simp
  | call hth hrest => simp
  | _ => exact Nat.le_refl _

theorem closed_step {rawKey : String} {n : ℕ} (hclosed : Closed hexdigest keys rawKey n p)
    {m : ApiKeyMove} (hgen : GeneratesNew hexdigest keys p m) (hin : InOrder hexdigest p m) :
    Closed hexdigest keys rawKey n ((system hexdigest).step p m) where
  issued := issued_step hclosed.issued hgen
  current := current_step hclosed.issued hclosed.current hin
  buried := buried_step hclosed.issued hclosed.buried m
  length := Nat.le_trans hclosed.length (length_step p m)
  rejects i th' ipAddress hi hth' htag := by
    apply rejects_later (time_step p m)
    rcases (system hexdigest).step_thread hth' with hold | ⟨task, -, -, rfl⟩ |
      ⟨th, c, next, -, hth, hrest, rfl⟩
    · exact hclosed.rejects i th' ipAddress hi hold htag
    · obtain rfl : task = .verify rawKey ipAddress := htag
      exact rejects_verify rawKey ipAddress _
    · have hrejects := hclosed.rejects i th ipAddress hi hth htag
      rw [hrest] at hrejects
      exact hrejects _ _ (Nat.le_refl _) (hclosed.buried.possible hclosed.current c)

end later

/-! ## The result -/

section result
variable {hexdigest : String → String} {keys : ApiKeyTable}

theorem orderly_invariant {p q : ApiKeyPool}
    (hrun : RunsWhere (system hexdigest).step (Orderly hexdigest keys) p q)
    (hp : Issued hexdigest keys p ∧ p.Current) : Issued hexdigest keys q ∧ q.Current :=
  hrun.invariant (I := fun q => Issued hexdigest keys q ∧ q.Current) hp
    (fun _ _ hm hq => ⟨issued_step hq.1 hm.generates, current_step hq.1 hq.2 hm.order⟩)

/-- In every run whose moves are in order, what an operation has revoked is not accepted by
verifications that begin after its return. -/
theorem revocation_coherent (time : ℕ) (refuses : ApiKeyUpdate ⊕ ApiKeyCreateInternal → Bool)
    {moves : List ApiKeyMove}
    (h : EveryStep (system hexdigest).step (Orderly hexdigest keys) (start time keys refuses) moves) :
    Coherent hexdigest (start time keys refuses) moves := by
  intro before m later keyId rawKey hmoves hwas hreturns hnot i th ipAddress hi hth htag key hresult
  subst hmoves
  obtain ⟨earlier, rest, rfl, hsecret⟩ := hwas
  rw [EveryStep.append_iff] at h
  obtain ⟨hbefore, hm, hlater⟩ := h
  rw [EveryStep.append_iff] at hbefore
  have hstart : Issued hexdigest keys (start time keys refuses) ∧ (start time keys refuses).Current :=
    ⟨issued_start time keys refuses, current_start time keys refuses⟩
  have hearlier := orderly_invariant hbefore.1.runsWhere hstart
  -- the key owns the secret from the state in which it was its active one
  have howned := hbefore.2.runsWhere.invariant
    (I := fun q => (Issued hexdigest keys q ∧ q.Current) ∧ Owned hexdigest keys keyId (hexdigest rawKey) q)
    ⟨hearlier, hearlier.1.owned hsecret⟩
    (fun _ m hm hq => ⟨⟨issued_step hq.1.1 hm.generates, current_step hq.1.1 hq.1.2 hm.order⟩,
      owned_step hq.1.1 hq.2 m⟩)
  rw [← run_append] at howned
  obtain ⟨⟨hissued, hcurrent⟩, howned⟩ := howned
  rw [run_append] at hnot hi
  have hclosed := hlater.runsWhere.invariant
    (I := Closed hexdigest keys rawKey (run (system hexdigest).step _ [m]).threads.length)
    ⟨issued_step hissued hm.generates, current_step hissued hcurrent hm.order,
      buried_of_returns hissued hcurrent howned hm.order hreturns hnot, Nat.le_refl _,
      fun j x _ hj hx => absurd (List.getElem?_eq_some_iff.mp hx).1 (Nat.not_lt.mpr hj)⟩
    (fun _ _ hm hq => closed_step hq hm.generates hm.order)
  rw [run_append] at hth
  have hrejects := hclosed.rejects i th ipAddress hi hth htag
  rw [Thread.result_eq_some.mp hresult] at hrejects
  exact hrejects key rfl

end result

/-! ## One key -/

def oneKey : ApiKeyTable :=
  ⟨[⟨0, none, "client", "ak_live_token", some tokenHash, [], none, none, none, true, 0, 0⟩], 1,
    List.pairwise_singleton _ _, by simp⟩

def withOneKey : ApiKeyPool := start 0 oneKey (fun _ => false)

def verifiedAndDeleted : List ApiKeyMove :=
  [.spawn (.verify "ak_live_token" none), .advance 0, .advance 0, .advance 0, .advance 0, .advance 0,
    .spawn (.delete 0), .advance 1, .advance 1, .advance 1, .spawn (.verify "ak_live_token" none),
    .advance 2, .advance 2]

theorem revocation_coherent_verifiedAndDeleted :
    Coherent (fun _ => tokenHash) withOneKey verifiedAndDeleted := by
  have horderly : EveryStep (system (fun _ => tokenHash)).step (Orderly (fun _ => tokenHash) oneKey)
      withOneKey verifiedAndDeleted := by
    decide +kernel
  exact revocation_coherent 0 (fun _ => false) horderly

def fetchedBeforeDeletion : List ApiKeyMove :=
  [.spawn (.verify "ak_live_token" none), .advance 0, .advance 0, .spawn (.delete 0), .advance 1,
    .advance 1]

/-- It stores the row after the deletion has returned; the second verification after that holds no
lock and returns the deleted key. -/
def storedAfterDeletion : List ApiKeyMove :=
  [.advance 0, .spawn (.verify "ak_live_token" none), .advance 2, .advance 2, .advance 2,
    .spawn (.verify "ak_live_token" none), .advance 3, .advance 3]

theorem deleted_key_accepted : ¬ ∀ (hexdigest : String → String) (time : ℕ) (keys : ApiKeyTable)
    (refuses : ApiKeyUpdate ⊕ ApiKeyCreateInternal → Bool) (moves : List ApiKeyMove),
    EveryStep (system hexdigest).step (GeneratesNew hexdigest keys) (start time keys refuses) moves →
      Coherent hexdigest (start time keys refuses) moves := by
  intro h
  have hgenerates : EveryStep (system (fun _ => tokenHash)).step (GeneratesNew (fun _ => tokenHash) oneKey)
      withOneKey (fetchedBeforeDeletion ++ .advance 1 :: storedAfterDeletion) := by
    decide +kernel
  have hcoherent := h _ 0 oneKey (fun _ => false) _ hgenerates
  have hwas : (run (system (fun _ => tokenHash)).step withOneKey []).state.IsSecret 0 tokenHash := by
    decide +kernel
  have hreturns : Returns (fun _ => tokenHash)
      (run (system (fun _ => tokenHash)).step withOneKey fetchedBeforeDeletion) (.advance 1) 0 := by
    decide +kernel
  have hnot : ¬ (run (system (fun _ => tokenHash)).step withOneKey
      (fetchedBeforeDeletion ++ [.advance 1])).state.IsSecret 0 tokenHash := by
    decide +kernel
  have hlength : (run (system (fun _ => tokenHash)).step withOneKey
      (fetchedBeforeDeletion ++ [.advance 1])).threads.length ≤ 3 := by
    decide +kernel
  obtain ⟨th, hth, htag, key, hresult⟩ : ∃ th : ApiKeyThread,
      (run (system (fun _ => tokenHash)).step withOneKey
        (fetchedBeforeDeletion ++ .advance 1 :: storedAfterDeletion)).threads[3]? = some th ∧
      th.tag = .verify "ak_live_token" none ∧ ∃ key, th.result = some (.ok (.verified (some key))) :=
    ⟨_, rfl, rfl, _, rfl⟩
  exact hcoherent fetchedBeforeDeletion (.advance 1) storedAfterDeletion 0 "ak_live_token" rfl
    ⟨[], fetchedBeforeDeletion, rfl, hwas⟩ hreturns hnot 3 th none hlength hth htag key hresult

end ApiKeyPool
end FastapiTemplate.ApiKeys
