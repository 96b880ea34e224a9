import FastapiTemplate.HandledOnce

/-!
# Stored responses and principals

The route looks a key up before the wrapped handler, and with it the dependency that
authenticates the request, has run. The key is made of method, path and header alone,
so the principals who share it share the stored response. `principal` is what
`get_current_user` would make of a request.
-/

namespace FastapiTemplate.Idempotency

def Served (key : String) (data : CachedResponse) (th : RouteThread) : Prop :=
  ⟨.getResponse key, some data⟩ ∈ th.trace

def Wrote (key : String) (data : CachedResponse) (th : RouteThread) : Prop :=
  ⟨.setResponse key data, ()⟩ ∈ th.trace

instance (key : String) (data : CachedResponse) (th : RouteThread) :
    Decidable (Served key data th) := inferInstanceAs (Decidable (_ ∈ _))

instance (key : String) (data : CachedResponse) (th : RouteThread) :
    Decidable (Wrote key data th) := inferInstanceAs (Decidable (_ ∈ _))

theorem Store.response_of_advance {s : Store} {d : ℕ} {key : String} {data : CachedResponse}
    (h : (s.advance d).response key = some data) : s.response key = some data := by
  obtain ⟨e, he, halive, hvalue⟩ := ExpiringStore.get_eq_some_iff.mp h
  have hle : s.clock ≤ s.clock + d := by omega
  exact ExpiringStore.get_eq_some_iff.mpr ⟨e, he, ExpiringStore.aliveAt_antitone hle halive, hvalue⟩

/-- A response that is live after a call was live before, or has been written by it. -/
theorem response_of_handler {c : Call} {s : Store} {key : String} {data : CachedResponse}
    (h : (handler c s).2.response key = some data) :
    s.response key = some data ∨ c = .setResponse key data := by
  by_cases hkey : c.key = some key
  · cases c with
    | getResponse k => exact .inl h
    | deleteLock k => exact .inl h
    | handle o => exact .inl h
    | setLockNx k =>
      by_cases hlocked : s.locked k
      · rw [handler, if_pos hlocked] at h
        exact .inl h
      · rw [handler, if_neg hlocked] at h
        exact .inl h
    | setResponse k data' =>
      cases hkey
      rw [handler, response_setResponse] at h
      cases h
      exact .inr rfl
  · rw [(handler_other c s hkey).2] at h
    exact .inl h

namespace RoutePool

variable {P : Type} (principal : Attempt → Option P)

/-- Every response that came from the cache was stored, under its key, by a request of the same
principal. -/
def Isolated (p : RoutePool) : Prop :=
  ∀ th ∈ p.threads, ∀ key data, Served key data th →
    ∃ x ∈ p.threads, Wrote key data x ∧ principal x.tag = principal th.tag

/-- A request that looks up a key under which a response is live comes from the principal of the
requests that stored this response. -/
def OwnLookup (p : RoutePool) (th : RouteThread) : Prop :=
  match th.nextCall with
  | some (.getResponse key) => ∀ data ∈ p.state.response key,
      ∀ x ∈ p.threads, Wrote key data x → principal x.tag = principal th.tag
  | _ => True

def OwnKeys (p : RoutePool) : RouteMove → Prop
  | .advance i => ∀ th ∈ p.threads[i]?, OwnLookup principal p th
  | _ => True

instance [DecidableEq P] (p : RoutePool) (th : RouteThread) :
    Decidable (OwnLookup principal p th) :=
  match h : th.nextCall with
  | some (.getResponse key) =>
    decidable_of_iff (∀ data ∈ p.state.response key, ∀ x ∈ p.threads, Wrote key data x →
      principal x.tag = principal th.tag) (by rw [OwnLookup, h])
  | some (.setLockNx _) => .isTrue (by rw [OwnLookup, h]; trivial)
  | some (.setResponse ..) => .isTrue (by rw [OwnLookup, h]; trivial)
  | some (.deleteLock _) => .isTrue (by rw [OwnLookup, h]; trivial)
  | some (.handle _) => .isTrue (by rw [OwnLookup, h]; trivial)
  | none => .isTrue (by rw [OwnLookup, h]; trivial)

instance [DecidableEq P] (p : RoutePool) : DecidablePred (OwnKeys principal p)
  | .spawn _ => .isTrue trivial
  | .environment _ => .isTrue trivial
  | .advance i => inferInstanceAs (Decidable (∀ th ∈ p.threads[i]?, OwnLookup principal p th))

def Written (p : RoutePool) : Prop :=
  ∀ key data, p.state.response key = some data → ∃ x ∈ p.threads, Wrote key data x

variable {principal} [Starlette] {p : RoutePool}

/-- A thread that has written is still there after the move, with its tag. -/
theorem wrote_step {key : String} {data : CachedResponse} {x : RouteThread} (hx : x ∈ p.threads)
    (hwrote : Wrote key data x) (m : RouteMove) :
    ∃ y ∈ (routes.step p m).threads, Wrote key data y ∧ y.tag = x.tag := by
  obtain ⟨i, hi⟩ := List.getElem?_of_mem hx
  obtain ⟨y, hy, hmoves⟩ := routes.step_getElem? hi m
  exact ⟨y, List.mem_of_getElem? hy, hmoves.trace_prefix.subset hwrote, hmoves.tag⟩

theorem Written.step (h : Written p) (m : RouteMove) : Written (routes.step p m) := by
  intro key data hlive
  have hold : p.state.response key = some data →
      ∃ y ∈ (routes.step p m).threads, Wrote key data y := by
    intro hbefore
    obtain ⟨x, hx, hwrote⟩ := h key data hbefore
    obtain ⟨y, hy, hwrote', -⟩ := wrote_step hx hwrote m
    exact ⟨y, hy, hwrote'⟩
  have hcase := routes.step_cases p m
  generalize routes.step p m = q at hcase hlive hold ⊢
  cases hcase with
  | spawn a => exact hold hlive
  | environment d => exact hold (Store.response_of_advance hlive)
  | idle i => exact hold hlive
  | @call i th c next hth hrest =>
    rcases response_of_handler hlive with hbefore | rfl
    · exact hold hbefore
    · have hlt : i < p.threads.length := (List.getElem?_eq_some_iff.mp hth).1
      exact ⟨_, List.mem_set hlt _, List.mem_append_right _ List.mem_cons_self⟩

/-- A move keeps the isolation if it looks up only keys of its own principal. -/
theorem Isolated.step (h : Isolated principal p) (hwritten : Written p) {m : RouteMove}
    (hown : OwnKeys principal p m) : Isolated principal (routes.step p m) := by
  intro th' hth' key data hserved
  -- the response was stored before this move, by a request of the same principal
  have hbefore : ∃ x ∈ p.threads, Wrote key data x ∧ principal x.tag = principal th'.tag := by
    obtain ⟨i, hi⟩ := List.getElem?_of_mem hth'
    rcases routes.step_thread hi with hold | ⟨a, -, -, rfl⟩ | ⟨th, c, next, rfl, hth, hrest, rfl⟩
    · exact h th' (List.mem_of_getElem? hold) key data hserved
    · cases hserved
    · rcases List.mem_append.mp hserved with hearlier | hnow
      · exact h th (List.mem_of_getElem? hth) key data hearlier
      · have heq := List.mem_singleton.mp hnow
        injection heq with hc hr
        subst hc
        have hlive : p.state.response key = some data := (eq_of_heq hr).symm
        have hlookup := hown th hth
        rw [OwnLookup, Thread.nextCall_of_rest hrest] at hlookup
        obtain ⟨x, hx, hwrote⟩ := hwritten key data hlive
        exact ⟨x, hx, hwrote, hlookup data hlive x hx hwrote⟩
  obtain ⟨x, hx, hwrote, hprincipal⟩ := hbefore
  obtain ⟨y, hy, hwrote', htag⟩ := wrote_step hx hwrote m
  exact ⟨y, hy, hwrote', by rw [htag, hprincipal]⟩

/-- In every run from an empty cache in which no request looks up a response that another principal
has stored, the cache returns responses to their own principals only. -/
theorem isolated_of_ownKeys {s : Store} (hempty : ∀ key, s.response key = none)
    (hrun : RunsWhere routes.step (OwnKeys principal) (start s) p) : Isolated principal p := by
  have hstart : Isolated principal (start s) ∧ Written (start s) := by
    constructor
    · intro th hth
      cases hth
    · intro key data hlive
      rw [start, hempty] at hlive
      cases hlive
  have hend := hrun.invariant (I := fun p => Isolated principal p ∧ Written p) hstart
    (fun _ m hown hp => ⟨hp.1.step hp.2 hown, hp.2.step m⟩)
  exact hend.1

/-! ### Two principals with one key -/

def statsRequest (token : String) (outcome : Outcome) : RouteMove :=
  .spawn ⟨⟨"GET", "/api/v0/common/dlq/stats",
    [("authorization", "Bearer " ++ token), ("idempotency-key", "k")]⟩, outcome⟩

def bearer (a : Attempt) : Option String :=
  if ("authorization", "Bearer alice") ∈ a.request.headers then some "alice" else none

def refusedToken : Outcome := .httpException 401 "Could not validate credentials"

def jsonData : CachedResponse :=
  ⟨200, jsonResponse.headers, "[]", some "application/json"⟩

def aliceTwice : List RouteMove :=
  statsRequest "alice" (.response jsonResponse) :: proceed 0 5 ++
    statsRequest "alice" (.response jsonResponse) :: proceed 1 5

def aliceThenAnyone : List RouteMove :=
  statsRequest "alice" (.response jsonResponse) :: proceed 0 5 ++
    statsRequest "stale" refusedToken :: proceed 1 5

def anyone : List RouteMove := statsRequest "stale" refusedToken :: proceed 0 5

omit [Starlette] in
theorem isolated_of_ownKeys_aliceTwice :
    letI := Starlette.plain
    Isolated bearer (run routes.step (start emptyStore) aliceTwice) := by
  let _ := Starlette.plain
  have hevery : EveryStep routes.step (OwnKeys bearer) (start emptyStore) aliceTwice := by
    decide +kernel
  exact isolated_of_ownKeys (fun _ => rfl) hevery.runsWhere

omit [Starlette] in
/-- A request with a stale token is answered with Alice's response, and with 401 without her. -/
theorem not_isolated :
    letI := Starlette.plain
    ¬ Isolated bearer (run routes.step (start emptyStore) aliceThenAnyone) ∧
      (run routes.step (start emptyStore) aliceThenAnyone).threads[1]?.map ending =
        some (some (.ok jsonResponse.sent)) ∧
      (run routes.step (start emptyStore) anyone).threads[0]?.map ending =
        some (some (.error (.httpException 401 "Could not validate credentials"))) := by
  let _ := Starlette.plain
  refine ⟨?_, by decide +kernel, by decide +kernel⟩
  intro h
  have hserved : ∃ th ∈ (run routes.step (start emptyStore) aliceThenAnyone).threads,
      Served "GET:/api/v0/common/dlq/stats:k" jsonData th ∧
      ∀ x ∈ (run routes.step (start emptyStore) aliceThenAnyone).threads,
        bearer x.tag ≠ bearer th.tag ∨ ¬ Wrote "GET:/api/v0/common/dlq/stats:k" jsonData x := by
    decide +kernel
  obtain ⟨th, hth, hserved, hothers⟩ := hserved
  obtain ⟨x, hx, hwrote, hprincipal⟩ := h th hth _ _ hserved
  rcases hothers x hx with hne | hnot
  · exact hne hprincipal
  · exact hnot hwrote

end RoutePool
end FastapiTemplate.Idempotency
