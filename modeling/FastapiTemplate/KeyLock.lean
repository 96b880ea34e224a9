import FastapiTemplate.IdempotentPool

/-!
# The lock of an idempotency key

The lock is taken with an expiry and released by name. As long as it does not expire
under a request at work, it is live while a request is at work, and at most one
request with the key is.
-/

namespace FastapiTemplate.Idempotency

def Call.key : Call → Option String
  | .getResponse key => some key
  | .setResponse key _ => some key
  | .setLockNx key => some key
  | .deleteLock key => some key
  | .handle _ => none

theorem handler_other (c : Call) (s : Store) {key : String} (h : c.key ≠ some key) :
    (handler c s).2.locked key = s.locked key ∧ (handler c s).2.response key = s.response key := by
  cases c with
  | getResponse k => exact ⟨rfl, rfl⟩
  | handle o => exact ⟨rfl, rfl⟩
  | setResponse k data =>
    have hne : key ≠ k := fun he => h (congrArg some he.symm)
    exact ⟨rfl, ExpiringStore.get_set_of_ne _ hne _ _ _⟩
  | deleteLock k =>
    have hne : key ≠ k := fun he => h (congrArg some he.symm)
    exact ⟨congrArg Option.isSome (ExpiringStore.get_delete_of_ne _ hne _), rfl⟩
  | setLockNx k =>
    have hne : key ≠ k := fun he => h (congrArg some he.symm)
    by_cases hlocked : s.locked k
    · simp only [handler, if_pos hlocked, and_self]
    · simp only [handler, if_neg hlocked]
      exact ⟨congrArg Option.isSome (ExpiringStore.get_set_of_ne _ hne _ _ _), rfl⟩

theorem Phase.Next.call_key {a : Attempt} {key : String} {ph ph' : Phase} {c : Call} {r : c.Answer}
    (h : Phase.Next a key ph c r ph') : c.key = some key ∨ c.key = none := by
  cases h with
  | handled => exact .inr rfl
  | _ => exact .inl rfl

@[simp] theorem response_setResponse (s : Store) (key : String) (data : CachedResponse) :
    (s.setResponse key data).response key = some data := by
  have hlt : s.clock < s.clock + idempotencyTtl * second := by
    have hpos : 0 < idempotencyTtl * second := by decide
    omega
  exact (ExpiringStore.get_set_self_some _ _ _ _ _).trans (if_pos hlt)

@[simp] theorem locked_setLock (s : Store) (key : String) : (s.setLock key).locked key := by
  have hlt : s.clock < s.clock + idempotencyLockTtl * second := by
    have hpos : 0 < idempotencyLockTtl * second := by decide
    omega
  have hget := (ExpiringStore.get_set_self_some s.locks key () (s.clock + idempotencyLockTtl * second)
    s.clock).trans (if_pos hlt)
  exact Option.isSome_iff_exists.mpr ⟨(), hget⟩

section setLockNx
variable {key : String} {s : Store}

theorem setLockNx_refused (h : (handler (.setLockNx key) s).1 = false) :
    (handler (.setLockNx key) s).2 = s := by
  by_cases hlocked : s.locked key
  · simp only [handler, if_pos hlocked]
  · simp [handler, if_neg hlocked] at h

theorem setLockNx_acquired (h : (handler (.setLockNx key) s).1 = true) :
    ¬ s.locked key ∧ (handler (.setLockNx key) s).2 = s.setLock key := by
  by_cases hlocked : s.locked key
  · simp [handler, if_pos hlocked] at h
  · exact ⟨hlocked, by simp only [handler, if_neg hlocked]⟩

end setLockNx

section calls
variable [Starlette] {key : String}

/-- A call of a thread is none of the key's, or takes it from one phase of the key to the next. -/
theorem Tracked.call_cases {th : RouteThread} (h : Tracked th) {c : Call}
    {next : c.Answer → RouteProgram HttpResponse} (hrest : th.rest = .call c next) (r : c.Answer) :
    (th.tag.key ≠ some key ∧ c.key ≠ some key) ∨
      ∃ ph ph', At key th ph ∧ Phase.Next th.tag key ph c r ph' ∧
        At key (th.answered c r next) ph' := by
  rcases h with ⟨key', ph, hat⟩ | ⟨hnone, hmakes⟩
  · obtain ⟨ph', hnext, hat'⟩ := hat.answered hrest r
    by_cases hkey : key' = key
    · subst hkey
      exact .inr ⟨ph, ph', hat, hnext, hat'⟩
    · have hne : some key' ≠ some key := fun he => hkey (Option.some.inj he)
      refine .inl ⟨hat.tagged ▸ hne, ?_⟩
      rcases hnext.call_key with hc | hc
      · exact hc ▸ hne
      · rw [hc]
        exact nofun
  · rw [hrest] at hmakes
    obtain ⟨o, rfl⟩ := hmakes.1
    exact .inl ⟨by rw [hnone]; exact nofun, nofun⟩

end calls

/-! ## Mutual exclusion -/

namespace RoutePool

/-- The lock of the key does not expire under a request at work. -/
def LockLasts (key : String) (p : RoutePool) : RouteMove → Prop
  | .environment d => (∃ th ∈ p.threads, AtWork key th) → p.state.locked key →
      (p.state.advance d).locked key
  | _ => True

def WithinTtl (key : String) (p : RoutePool) : RouteMove → Prop
  | .environment d => p.state.response key ≠ none →
      (p.state.advance d).response key = p.state.response key
  | _ => True

def Careful (key : String) (p : RoutePool) (th : RouteThread) : Prop :=
  th.nextCall = some (.setLockNx key) → p.state.response key = none

/-- No lock is lost to its expiry, and none is taken on an outdated lookup. -/
def Exclusive (key : String) (p : RoutePool) (m : RouteMove) : Prop :=
  LockLasts key p m ∧ m.OfThread p (Careful key p)

instance (key : String) (th : RouteThread) : Decidable (AtWork key th) :=
  inferInstanceAs (Decidable (_ ∧ _ ∧ _))

instance (key : String) (p : RoutePool) : DecidablePred (LockLasts key p)
  | .spawn _ => .isTrue trivial
  | .environment d => inferInstanceAs (Decidable ((∃ th ∈ p.threads, AtWork key th) →
      p.state.locked key → (p.state.advance d).locked key))
  | .advance _ => .isTrue trivial

instance (key : String) (p : RoutePool) : DecidablePred (WithinTtl key p)
  | .spawn _ => .isTrue trivial
  | .environment d => inferInstanceAs (Decidable (p.state.response key ≠ none →
      (p.state.advance d).response key = p.state.response key))
  | .advance _ => .isTrue trivial

instance (key : String) (p : RoutePool) : DecidablePred (Careful key p) :=
  fun _ => inferInstanceAs (Decidable (_ → _))

instance (key : String) (p : RoutePool) : DecidablePred (Exclusive key p) :=
  fun _ => inferInstanceAs (Decidable (_ ∧ _))

end RoutePool

section ledger
variable [Starlette] {key : String} {p : RoutePool}

structure LockLedger (key : String) (p : RoutePool) : Prop where
  tracked : ∀ th ∈ p.threads, Tracked th
  locked : ∀ th ∈ p.threads, AtWork key th → p.state.locked key
  alone : PoolSystem.AtMostOne (AtWork key) p

theorem LockLedger.start (s : Store) : LockLedger key ⟨s, []⟩ :=
  ⟨by simp, by simp, by simp [PoolSystem.AtMostOne]⟩

/-- While one thread works, the others do not. -/
theorem LockLedger.others_idle (h : LockLedger key p) {i : ℕ} {th : RouteThread}
    (hth : p.threads[i]? = some th) (hwork : AtWork key th) {j : ℕ} {x : RouteThread} (hji : j ≠ i)
    (hx : p.threads[j]? = some x) : ¬ AtWork key x :=
  fun hw => hji (h.alone j i x th hx hth hw hwork)

theorem LockLedger.idle (h : LockLedger key p) (hfree : ¬ p.state.locked key) :
    ∀ x ∈ p.threads, ¬ AtWork key x :=
  fun x hx hw => hfree (h.locked x hx hw)

/-- A fresh thread is not at work. -/
theorem fresh_not_atWork (a : Attempt) : ¬ AtWork key (routes.fresh a) :=
  fun hw => by cases hw.2.1

theorem LockLedger.call (h : LockLedger key p) {i : ℕ} {th : RouteThread} {c : Call}
    {next : c.Answer → RouteProgram HttpResponse} (hth : p.threads[i]? = some th)
    (hrest : th.rest = .call c next) :
    (∀ x ∈ p.threads.set i (th.answered c (handler c p.state).1 next), AtWork key x →
      (handler c p.state).2.locked key) ∧
    PoolSystem.AtMostOne (AtWork key) ⟨(handler c p.state).2,
      p.threads.set i (th.answered c (handler c p.state).1 next)⟩ := by
  -- a call that leaves the lock as it is, of a thread that worked before if it does so now
  have hkeep (hlocked : (handler c p.state).2.locked key = p.state.locked key)
      (hwork : AtWork key (th.answered c (handler c p.state).1 next) → AtWork key th) :
      (∀ x ∈ p.threads.set i (th.answered c (handler c p.state).1 next), AtWork key x →
        (handler c p.state).2.locked key) ∧
      PoolSystem.AtMostOne (AtWork key) ⟨(handler c p.state).2,
        p.threads.set i (th.answered c (handler c p.state).1 next)⟩ := by
    constructor
    · intro x hx hw
      rw [hlocked]
      rcases mem_set_thread hx with rfl | ⟨j, -, hold⟩
      · exact h.locked th (List.mem_of_getElem? hth) (hwork hw)
      · exact h.locked x (List.mem_of_getElem? hold) hw
    · exact atMostOne_set h.alone (fun hw j x hji hold => h.others_idle hth (hwork hw) hji hold) _
  rcases (h.tracked th (List.mem_of_getElem? hth)).call_cases hrest (handler c p.state).1 with
    ⟨htag, hkey⟩ | ⟨ph, ph', hat, hnext, hat'⟩
  · exact hkeep (handler_other c p.state hkey).1 (fun hw => absurd hw.1 htag)
  · generalize hr : (handler c p.state).1 = r at hnext hat' hkeep ⊢
    cases hnext with
    | hit data => exact hkeep rfl (fun hw => by cases hat'.atWork_iff.mp hw)
    | miss => exact hkeep rfl (fun hw => by cases hat'.atWork_iff.mp hw)
    | refused =>
      exact hkeep (by rw [setLockNx_refused hr]) (fun hw => by cases hat'.atWork_iff.mp hw)
    | acquired =>
      obtain ⟨hfree, hstate⟩ := setLockNx_acquired hr
      rw [hstate]
      refine ⟨fun x _ _ => locked_setLock _ _, ?_⟩
      exact atMostOne_set h.alone
        (fun _ j x _ hold => h.idle hfree x (List.mem_of_getElem? hold)) _
    | handled => exact hkeep rfl (fun _ => hat.atWork_iff.mpr rfl)
    | stored r data => exact hkeep rfl (fun _ => hat.atWork_iff.mpr rfl)
    | released ending stored =>
      have hwork : AtWork key th := hat.atWork_iff.mpr rfl
      have hidle' : ¬ AtWork key _ := fun hw => by cases hat'.atWork_iff.mp hw
      constructor
      · intro x hx hw
        rcases mem_set_thread hx with rfl | ⟨j, hji, hold⟩
        · exact absurd hw hidle'
        · exact absurd hw (h.others_idle hth hwork hji hold)
      · exact atMostOne_set h.alone (fun hw => absurd hw hidle') _

theorem LockLedger.step (h : LockLedger key p) {m : RouteMove}
    (hlasts : RoutePool.LockLasts key p m) : LockLedger key (routes.step p m) := by
  have htracked := tracked_step h.tracked m
  have hcase := routes.step_cases p m
  generalize routes.step p m = q at hcase htracked ⊢
  cases hcase with
  | idle i => exact h
  | environment d =>
    exact ⟨htracked, fun x hx hw => hlasts ⟨x, hx, hw⟩ (h.locked x hx hw), h.alone⟩
  | call hth hrest =>
    obtain ⟨hlocked, halone⟩ := h.call hth hrest
    exact ⟨htracked, hlocked, halone⟩
  | spawn a =>
    refine ⟨htracked, fun x hx hw => ?_, atMostOne_append h.alone (fresh_not_atWork a)⟩
    rcases List.mem_append.mp hx with hold | hnew
    · exact h.locked x hold hw
    · rw [List.mem_singleton.mp hnew] at hw
      exact absurd hw (fresh_not_atWork a)

end ledger

end FastapiTemplate.Idempotency
