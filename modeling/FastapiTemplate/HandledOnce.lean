import FastapiTemplate.KeyLock

/-!
# At most one run of the handler for a key

The cache is looked up before the lock is taken. The handler completes once as long as
no lock expires under a request that is at work, no request takes the lock on an
outdated lookup, and every result that counts can be stored.
-/

namespace FastapiTemplate.Idempotency

def Storable : Outcome → Prop
  | .response r => (200 ≤ r.statusCode ∧ r.statusCode < 500) ∧
      (IdempotencyManager.cachedData r).isSome
  | .httpException .. => False

instance : DecidablePred Storable
  | .response r => inferInstanceAs (Decidable (_ ∧ (IdempotencyManager.cachedData r).isSome))
  | .httpException .. => inferInstanceAs (Decidable False)

theorem storable_iff {a : Attempt} : Storable a.outcome ↔ ∃ r data, Stores a r data := by
  constructor
  · intro h
    cases ho : a.outcome with
    | httpException statusCode detail =>
      rw [ho] at h
      exact h.elim
    | response r =>
      rw [ho] at h
      obtain ⟨data, hdata⟩ := Option.isSome_iff_exists.mp h.2
      exact ⟨r, data, ho, h.1, hdata⟩
  · rintro ⟨r, data, ho, hstatus, hdata⟩
    rw [ho]
    exact ⟨hstatus, by rw [hdata]; rfl⟩

namespace RoutePool

def StorableEnd (key : String) (kind : Outcome → Prop) (th : RouteThread) : Prop :=
  th.tag.key = some key → th.nextCall = some (.handle th.tag.outcome) → kind th.tag.outcome →
    Storable th.tag.outcome

instance (key : String) (kind : Outcome → Prop) [DecidablePred kind] :
    DecidablePred (StorableEnd key kind) :=
  fun _ => inferInstanceAs (Decidable (_ → _ → _ → _))

end RoutePool

/-! ## The ledger -/

section ledger
variable [Starlette] {key : String} {kind : Outcome → Prop} {p : RoutePool}

structure OnceLedger (key : String) (kind : Outcome → Prop) (p : RoutePool) : Prop where
  lock : LockLedger key p
  once : PoolSystem.AtMostOne (Ended key kind) p
  clean : ∀ th ∈ p.threads, At key th .handling → ∀ x ∈ p.threads, ¬ Ended key kind x
  kept : ∀ th ∈ p.threads, Ended key kind th → (∃ r data, At key th (.storing r data)) ∨
    ∃ data, ⟨.setResponse key data, ()⟩ ∈ th.trace ∧ p.state.response key = some data

theorem OnceLedger.start (s : Store) : OnceLedger key kind ⟨s, []⟩ :=
  ⟨.start s, by simp [PoolSystem.AtMostOne], by simp, by simp⟩

/-- A call that keeps the stored response, of a thread that neither handles nor has ended. -/
theorem OnceLedger.quiet (h : OnceLedger key kind p) {i : ℕ} {th' : RouteThread} {s : Store}
    (hlock : LockLedger key ⟨s, p.threads.set i th'⟩)
    (hresponse : s.response key = p.state.response key) (hhandling : ¬ At key th' .handling)
    (hended : ¬ Ended key kind th') : OnceLedger key kind ⟨s, p.threads.set i th'⟩ where
  lock := hlock
  once := atMostOne_set h.once (fun he => absurd he hended) s
  clean x hx hat y hy := by
    rcases mem_set_thread hx with rfl | ⟨j, -, hold⟩
    · exact absurd hat hhandling
    · rcases mem_set_thread hy with rfl | ⟨k, -, hold'⟩
      · exact hended
      · exact h.clean x (List.mem_of_getElem? hold) hat y (List.mem_of_getElem? hold')
  kept x hx he := by
    rw [hresponse]
    rcases mem_set_thread hx with rfl | ⟨j, -, hold⟩
    · exact absurd he hended
    · exact h.kept x (List.mem_of_getElem? hold) he

/-- The lock is taken: nobody worked before, and nobody has ended. -/
theorem OnceLedger.acquired (h : OnceLedger key kind p) {i : ℕ} {th' : RouteThread}
    (hlock : LockLedger key ⟨p.state.setLock key, p.threads.set i th'⟩)
    (hat' : At key th' .handling) (hfree : ¬ p.state.locked key)
    (hfresh : p.state.response key = none) :
    OnceLedger key kind ⟨p.state.setLock key, p.threads.set i th'⟩ := by
  have hnone : ∀ x ∈ p.threads, ¬ Ended key kind x := by
    intro x hx he
    rcases h.kept x hx he with ⟨r, data, hat⟩ | ⟨data, -, hdata⟩
    · exact h.lock.idle hfree x hx (hat.atWork_iff.mpr rfl)
    · rw [hfresh] at hdata
      cases hdata
  have hended' : ¬ Ended key kind th' := by
    rw [hat'.ended_iff]
    exact fun he => by cases he.1
  have hnone' : ∀ x ∈ p.threads.set i th', ¬ Ended key kind x := by
    intro x hx
    rcases mem_set_thread hx with rfl | ⟨j, -, hold⟩
    · exact hended'
    · exact hnone x (List.mem_of_getElem? hold)
  refine ⟨hlock, ?_, fun _ _ _ => hnone', fun x hx he => absurd he (hnone' x hx)⟩
  exact atMostOne_set h.once (fun he => absurd he hended') _

/-- The handler has ended for the thread at work. -/
theorem OnceLedger.handled (h : OnceLedger key kind p) {i : ℕ} {th th' : RouteThread}
    (hlock : LockLedger key ⟨p.state, p.threads.set i th'⟩) (hth : p.threads[i]? = some th)
    (hat : At key th .handling) (hat' : At key th' (Phase.afterHandle th'.tag.outcome))
    (hstorable : kind th'.tag.outcome → Storable th'.tag.outcome) :
    OnceLedger key kind ⟨p.state, p.threads.set i th'⟩ := by
  have hwork : AtWork key th := hat.atWork_iff.mpr rfl
  have hnone := h.clean th (List.mem_of_getElem? hth) hat
  have hstoring : Ended key kind th' → ∃ r data, At key th' (.storing r data) := by
    intro he
    obtain ⟨r, data, hstores⟩ := storable_iff.mp (hstorable (hat'.ended_iff.mp he).2)
    rw [hstores.afterHandle] at hat'
    exact ⟨r, data, hat'⟩
  refine ⟨hlock, ?_, fun x hx hx' => ?_, fun x hx he => ?_⟩
  · exact atMostOne_set h.once (fun _ j x _ hold => hnone x (List.mem_of_getElem? hold)) _
  · rcases mem_set_thread hx with rfl | ⟨j, hji, hold⟩
    · exact absurd hx' (hat'.not_handling (Phase.afterHandle_ended _))
    · exact absurd (hx'.atWork_iff.mpr rfl) (h.lock.others_idle hth hwork hji hold)
  · rcases mem_set_thread hx with rfl | ⟨j, -, hold⟩
    · exact .inl (hstoring he)
    · exact absurd he (hnone x (List.mem_of_getElem? hold))

/-- The result is stored by the one thread that has ended. -/
theorem OnceLedger.stored (h : OnceLedger key kind p) {i : ℕ} {th th' : RouteThread}
    {r : HttpResponse} {data : CachedResponse}
    (hlock : LockLedger key ⟨p.state.setResponse key data, p.threads.set i th'⟩)
    (hth : p.threads[i]? = some th) (hat : At key th (.storing r data))
    (hat' : At key th' (.releasing (.ok r) (some data))) (hkind : kind th.tag.outcome) :
    OnceLedger key kind ⟨p.state.setResponse key data, p.threads.set i th'⟩ := by
  have hwork : AtWork key th := hat.atWork_iff.mpr rfl
  have hended : Ended key kind th := hat.ended_iff.mpr ⟨rfl, hkind⟩
  have hothers {j : ℕ} {x : RouteThread} (hji : j ≠ i) (hold : p.threads[j]? = some x) :
      ¬ Ended key kind x := fun he => hji (h.once j i x th hold hth he hended)
  refine ⟨hlock, ?_, fun x hx hx' => ?_, fun x hx he => ?_⟩
  · exact atMostOne_set h.once (fun _ j x hji hold => hothers hji hold) _
  · rcases mem_set_thread hx with rfl | ⟨j, hji, hold⟩
    · exact absurd hx' (hat'.not_handling rfl)
    · exact absurd (hx'.atWork_iff.mpr rfl) (h.lock.others_idle hth hwork hji hold)
  · rcases mem_set_thread hx with rfl | ⟨j, hji, hold⟩
    · exact .inr ⟨data, hat'.stored_iff.mpr rfl, response_setResponse _ _ _⟩
    · exact absurd he (hothers hji hold)

/-- The lock is given back. -/
theorem OnceLedger.released (h : OnceLedger key kind p) {i : ℕ} {th th' : RouteThread}
    {ending : Except RouteError HttpResponse} {stored : Option CachedResponse}
    (hlock : LockLedger key ⟨p.state.deleteLock key, p.threads.set i th'⟩)
    (hth : p.threads[i]? = some th) (hat : At key th (.releasing ending stored))
    (hat' : At key th' (.finished ending stored)) (htag : th'.tag = th.tag) :
    OnceLedger key kind ⟨p.state.deleteLock key, p.threads.set i th'⟩ := by
  have hwork : AtWork key th := hat.atWork_iff.mpr rfl
  have hended : Ended key kind th' → Ended key kind th := by
    rw [hat.ended_iff, hat'.ended_iff, htag]
    exact id
  refine ⟨hlock, ?_, fun x hx hx' => ?_, fun x hx he => ?_⟩
  · exact atMostOne_set h.once
      (fun he j x hji hold hx => hji (h.once j i x th hold hth hx (hended he))) _
  · rcases mem_set_thread hx with rfl | ⟨j, hji, hold⟩
    · exact absurd hx' (hat'.not_handling rfl)
    · exact absurd (hx'.atWork_iff.mpr rfl) (h.lock.others_idle hth hwork hji hold)
  · rcases mem_set_thread hx with rfl | ⟨j, -, hold⟩
    · rcases h.kept th (List.mem_of_getElem? hth) (hended he) with
        ⟨r, data, hstoring⟩ | ⟨data, hstored, hdata⟩
      · have hrest := hstoring.rest.symm.trans hat.rest
        cases hrest
      · rw [hat.stored_iff] at hstored
        exact .inr ⟨data, hat'.stored_iff.mpr hstored, hdata⟩
    · exact h.kept x (List.mem_of_getElem? hold) he

theorem OnceLedger.call (h : OnceLedger key kind p)
    (hkind : ∀ r : HttpResponse, 200 ≤ r.statusCode ∧ r.statusCode < 500 → kind (.response r))
    {i : ℕ} {th : RouteThread} {c : Call} {next : c.Answer → RouteProgram HttpResponse}
    (hth : p.threads[i]? = some th) (hrest : th.rest = .call c next)
    (hlock : LockLedger key ⟨(handler c p.state).2,
      p.threads.set i (th.answered c (handler c p.state).1 next)⟩)
    (hcareful : RoutePool.Careful key p th) (hend : RoutePool.StorableEnd key kind th) :
    OnceLedger key kind ⟨(handler c p.state).2,
      p.threads.set i (th.answered c (handler c p.state).1 next)⟩ := by
  rw [RoutePool.Careful, Thread.nextCall_of_rest hrest] at hcareful
  rw [RoutePool.StorableEnd, Thread.nextCall_of_rest hrest] at hend
  rcases (h.lock.tracked th (List.mem_of_getElem? hth)).call_cases hrest (handler c p.state).1 with
    ⟨htag, hkey⟩ | ⟨ph, ph', hat, hnext, hat'⟩
  · exact h.quiet hlock (handler_other c p.state hkey).2 (fun hx => htag hx.tagged)
      (fun he => htag he.1)
  · generalize hr : (handler c p.state).1 = r at hnext hat' hlock ⊢
    cases hnext with
    | hit data =>
      exact h.quiet hlock rfl (fun hx => by cases hat'.rest.symm.trans hx.rest)
        (fun he => by cases (hat'.ended_iff.mp he).1)
    | miss =>
      exact h.quiet hlock rfl (fun hx => by cases hat'.rest.symm.trans hx.rest)
        (fun he => by cases (hat'.ended_iff.mp he).1)
    | refused =>
      rw [setLockNx_refused hr] at hlock ⊢
      exact h.quiet hlock rfl (fun hx => by cases hat'.rest.symm.trans hx.rest)
        (fun he => by cases (hat'.ended_iff.mp he).1)
    | acquired =>
      obtain ⟨hfree, hstate⟩ := setLockNx_acquired hr
      rw [hstate] at hlock ⊢
      exact h.acquired hlock hat' hfree (hcareful rfl)
    | handled => exact h.handled hlock hth hat hat' (hend hat.tagged rfl)
    | stored r data =>
      have hvalid : Stores th.tag r data := hat.valid
      apply h.stored hlock hth hat hat'
      rw [hvalid.outcome]
      exact hkind r hvalid.status
    | released ending stored => exact h.released hlock hth hat hat' rfl

theorem OnceLedger.step (h : OnceLedger key kind p)
    (hkind : ∀ r : HttpResponse, 200 ≤ r.statusCode ∧ r.statusCode < 500 → kind (.response r))
    {m : RouteMove} (hwithin : RoutePool.WithinTtl key p m) (hexclusive : RoutePool.Exclusive key p m)
    (hend : m.OfThread p (RoutePool.StorableEnd key kind)) :
    OnceLedger key kind (routes.step p m) := by
  have hlock := h.lock.step hexclusive.1
  have hcase := routes.step_cases p m
  generalize routes.step p m = q at hcase hlock ⊢
  cases hcase with
  | idle i => exact h
  | @call i th c next hth hrest =>
    exact h.call hkind hth hrest hlock (hexclusive.2 th hth) (hend th hth)
  | environment d =>
    refine ⟨hlock, h.once, h.clean, fun x hx he => ?_⟩
    rcases h.kept x hx he with hstoring | ⟨data, hstored, hdata⟩
    · exact .inl hstoring
    · have hne : p.state.response key ≠ none := by rw [hdata]; exact nofun
      exact .inr ⟨data, hstored, (hwithin hne).trans hdata⟩
  | spawn a =>
    have hended : ¬ Ended key kind (routes.fresh a) := fun ⟨_, o, ho, _⟩ => by cases ho
    have hcases {x : RouteThread} (hx : x ∈ p.threads ++ [routes.fresh a]) :
        x ∈ p.threads ∨ x = routes.fresh a := by simpa using hx
    refine ⟨hlock, atMostOne_append h.once hended, fun x hx hat y hy => ?_, fun x hx he => ?_⟩
    · rcases hcases hx with hold | rfl
      · rcases hcases hy with hold' | rfl
        · exact h.clean x hold hat y hold'
        · exact hended
      · exact absurd (hat.atWork_iff.mpr rfl) (fresh_not_atWork a)
    · rcases hcases hx with hold | rfl
      · exact h.kept x hold he
      · exact absurd he hended

end ledger

/-! ## Runs -/

def completesBelow500 : (c : Call) × c.Answer → Bool
  | ⟨.handle o, _⟩ => o.statusCode < 500
  | _ => false

namespace RoutePool

/-- How often the handler has completed with a status below 500 for requests with the key. -/
def completions (key : String) (p : RoutePool) : ℕ :=
  (p.threads.map (fun th => if th.tag.key = some key then th.trace.countP completesBelow500
    else 0)).sum

def start (s : Store) : RoutePool := ⟨s, []⟩

variable [Starlette]

theorem completions_of_at {key : String} {th : RouteThread} {ph : Phase} (h : At key th ph) :
    th.trace.countP completesBelow500 ≤ 1 ∧ (0 < th.trace.countP completesBelow500 →
      Ended key (fun o => o.statusCode < 500) th) := by
  constructor
  · rw [h.trace]
    cases ph with
    | releasing ending stored =>
      cases stored <;> simp [Phase.trace, List.countP_cons, completesBelow500] <;> split <;> omega
    | finished ending stored =>
      cases stored <;> simp [Phase.trace, List.countP_cons, completesBelow500] <;> split <;> omega
    | storing r data =>
      simp [Phase.trace, List.countP_cons, completesBelow500]
      split <;> omega
    | _ => simp [Phase.trace, completesBelow500]
  · intro hpos
    obtain ⟨⟨c, r⟩, hmem, hcompletes⟩ := List.countP_pos_iff.mp hpos
    cases c with
    | handle o => exact ⟨h.tagged, o, hmem, by simpa [completesBelow500] using hcompletes⟩
    | _ => cases hcompletes

theorem completions_le_one {key : String} {p : RoutePool} (htracked : ∀ th ∈ p.threads, Tracked th)
    (honce : PoolSystem.AtMostOne (Ended key (fun o => o.statusCode < 500)) p) :
    p.completions key ≤ 1 := by
  have hthread : ∀ th ∈ p.threads, th.tag.key = some key →
      th.trace.countP completesBelow500 ≤ 1 ∧ (0 < th.trace.countP completesBelow500 →
        Ended key (fun o => o.statusCode < 500) th) := by
    intro th hth hkey
    rcases htracked th hth with ⟨key', ph, hat⟩ | ⟨hnone, -⟩
    · have heq := hat.key_eq hkey
      subst heq
      exact completions_of_at hat
    · rw [hnone] at hkey
      cases hkey
  apply sum_le_one
  · intro th hth
    by_cases hkey : th.tag.key = some key
    · rw [if_pos hkey]
      exact (hthread th hth hkey).1
    · rw [if_neg hkey]
      omega
  · intro i j x y hi hj hx hy
    by_cases hxk : x.tag.key = some key
    · by_cases hyk : y.tag.key = some key
      · rw [if_pos hxk] at hx
        rw [if_pos hyk] at hy
        exact honce i j x y hi hj ((hthread x (List.mem_of_getElem? hi) hxk).2 hx)
          ((hthread y (List.mem_of_getElem? hj) hyk).2 hy)
      · rw [if_neg hyk] at hy
        omega
    · rw [if_neg hxk] at hx
      omega

/-- In every run within the lifetime of the stored response in which no lock is lost to its expiry,
no lookup is outdated and everything that counts can be stored, the handler completes with a status
below 500 at most once for the key. -/
theorem handled_once {key : String} {s : Store} {p : RoutePool}
    (hrun : RunsWhere routes.step (fun p m => WithinTtl key p m ∧ Exclusive key p m ∧
      m.OfThread p (StorableEnd key (fun o => o.statusCode < 500))) (start s) p) :
    p.completions key ≤ 1 := by
  have hledger := hrun.invariant (I := OnceLedger key (fun o => o.statusCode < 500)) (.start s)
    (fun _ m hok hp => hp.step (fun r hr => hr.2) hok.1 hok.2.1 hok.2.2)
  exact completions_le_one hledger.lock.tracked hledger.once

/-! ### Two requests with one key -/

def emptyStore : Store := ⟨.empty, .empty, 0⟩

def retrigger (outcome : Outcome) : RouteMove :=
  .spawn ⟨⟨"POST", "/api/v0/common/dlq/retrigger", [("idempotency-key", "k")]⟩, outcome⟩

def retriggerKey : String := "POST:/api/v0/common/dlq/retrigger:k"

def jsonResponse : HttpResponse where
  statusCode := 200
  headers := [("content-length", "2"), ("content-type", "application/json")]
  content := .body "[]".toUTF8
  mediaType := some "application/json"

def proceed (i n : ℕ) : List RouteMove := List.replicate n (.advance i)

def inTurn (outcome : Outcome) : List RouteMove :=
  retrigger outcome :: proceed 0 5 ++ retrigger outcome :: proceed 1 5

/-- Both look up the cache before the first takes the lock. -/
def bothLookUp : List RouteMove :=
  [retrigger (.response jsonResponse), retrigger (.response jsonResponse), .advance 0, .advance 1] ++
    proceed 0 4 ++ proceed 1 4

def slowHandler : List RouteMove :=
  retrigger (.response jsonResponse) :: proceed 0 2 ++ .environment (61 * second) ::
    retrigger (.response jsonResponse) :: proceed 1 3 ++ proceed 0 1

omit [Starlette] in
theorem handled_once_inTurn :
    letI := Starlette.plain
    completions retriggerKey
      (run routes.step (start emptyStore) (inTurn (.response jsonResponse))) = 1 := by
  let _ := Starlette.plain
  have hevery : EveryStep routes.step (fun p m => WithinTtl retriggerKey p m ∧
      Exclusive retriggerKey p m ∧
        m.OfThread p (StorableEnd retriggerKey (fun o => o.statusCode < 500))) (start emptyStore)
      (inTurn (.response jsonResponse)) := by
    decide +kernel
  have hle := handled_once hevery.runsWhere
  have hpos : 0 < completions retriggerKey (run routes.step (start emptyStore)
      (inTurn (.response jsonResponse))) := by
    decide +kernel
  omega

omit [Starlette] in
/-- The handler completes twice when both look up first, when it outlives the lock, and when it
raises an `HTTPException`. -/
theorem handled_twice :
    letI := Starlette.plain
    (EveryStep routes.step (WithinTtl retriggerKey) (start emptyStore) bothLookUp ∧
      completions retriggerKey (run routes.step (start emptyStore) bothLookUp) = 2) ∧
    (EveryStep routes.step (WithinTtl retriggerKey) (start emptyStore) slowHandler ∧
      completions retriggerKey (run routes.step (start emptyStore) slowHandler) = 2) ∧
    EveryStep routes.step (WithinTtl retriggerKey) (start emptyStore)
      (inTurn (.httpException 400 "Bad Request")) ∧
    completions retriggerKey (run routes.step (start emptyStore)
      (inTurn (.httpException 400 "Bad Request"))) = 2 := by
  let _ := Starlette.plain
  decide +kernel

end RoutePool
end FastapiTemplate.Idempotency
