import FastapiTemplate.Idempotency
import FastapiTemplate.ProgramPool

/-!
# Interleaved requests to idempotent routes

A request with a key goes through the phases of `customRouteHandler`. The phase
fixes its trace and the rest of its program, and `Phase.Next` is all that a call can
do to it; the invariants about locks and stored responses are case analyses over it.
-/

namespace FastapiTemplate.Idempotency

abbrev RouteThread := Thread Call Call.Answer RouteError HttpResponse Attempt

abbrev RoutePool := Pool Call Call.Answer RouteError HttpResponse Attempt Store

abbrev RouteMove := PoolMove Attempt ℕ

abbrev RouteTrace := CallTrace Call Call.Answer

def ending (th : RouteThread) : Option (Except RouteError Sent) :=
  match th.rest with
  | .pure r => some (.ok r.sent)
  | .raise e => some (.error e)
  | .call .. => none

/-! ## Phases -/

/-- Where a request with a key stands; `stored` is what it has written to the cache. -/
inductive Phase
  | lookup
  | replayed (data : CachedResponse)
  | locking
  | refused
  | handling
  | storing (r : HttpResponse) (data : CachedResponse)
  | releasing (ending : Except RouteError HttpResponse) (stored : Option CachedResponse)
  | finished (ending : Except RouteError HttpResponse) (stored : Option CachedResponse)

namespace Phase

def afterHandle : Outcome → Phase
  | .httpException statusCode detail => .releasing (.error (.httpException statusCode detail)) none
  | .response r =>
    if 200 ≤ r.statusCode ∧ r.statusCode < 500 then
      match IdempotencyManager.cachedData r with
      | none => .releasing (.error .unicodeDecodeError) none
      | some data => .storing r data
    else .releasing (.ok r) none

def trace (a : Attempt) (key : String) : Phase → RouteTrace
  | .lookup => []
  | .replayed data => [⟨.getResponse key, some data⟩]
  | .locking => [⟨.getResponse key, none⟩]
  | .refused => [⟨.getResponse key, none⟩, ⟨.setLockNx key, false⟩]
  | .handling => [⟨.getResponse key, none⟩, ⟨.setLockNx key, true⟩]
  | .storing _ _ =>
    [⟨.getResponse key, none⟩, ⟨.setLockNx key, true⟩, ⟨.handle a.outcome, ()⟩]
  | .releasing _ none =>
    [⟨.getResponse key, none⟩, ⟨.setLockNx key, true⟩, ⟨.handle a.outcome, ()⟩]
  | .releasing _ (some data) =>
    [⟨.getResponse key, none⟩, ⟨.setLockNx key, true⟩, ⟨.handle a.outcome, ()⟩,
      ⟨.setResponse key data, ()⟩]
  | .finished _ none =>
    [⟨.getResponse key, none⟩, ⟨.setLockNx key, true⟩, ⟨.handle a.outcome, ()⟩,
      ⟨.deleteLock key, ()⟩]
  | .finished _ (some data) =>
    [⟨.getResponse key, none⟩, ⟨.setLockNx key, true⟩, ⟨.handle a.outcome, ()⟩,
      ⟨.setResponse key data, ()⟩, ⟨.deleteLock key, ()⟩]

def ofExcept : Except RouteError HttpResponse → RouteProgram HttpResponse
  | .ok r => .pure r
  | .error e => .raise e

variable [Starlette]

def rest (a : Attempt) (key : String) : Phase → RouteProgram HttpResponse
  | .lookup => customRouteHandler a
  | .replayed data => .pure (IdempotencyManager.rebuild data)
  | .locking => do
    let lockAcquired ← IdempotencyManager.acquireLock key
    if ¬ lockAcquired then .raise inProgressError
    else (processRequest key a.outcome).tryFinally (IdempotencyManager.releaseLock key)
  | .refused => .raise inProgressError
  | .handling => (processRequest key a.outcome).tryFinally (IdempotencyManager.releaseLock key)
  | .storing r data => .call (.setResponse key data) (fun _ =>
      .call (.deleteLock key) (fun _ => .pure r))
  | .releasing ending _ => .call (.deleteLock key) (fun _ => ofExcept ending)
  | .finished ending _ => ofExcept ending

inductive Next (a : Attempt) (key : String) : Phase → (c : Call) → c.Answer → Phase → Prop
  | hit (data : CachedResponse) : Next a key .lookup (.getResponse key) (some data) (.replayed data)
  | miss : Next a key .lookup (.getResponse key) none .locking
  | refused : Next a key .locking (.setLockNx key) false .refused
  | acquired : Next a key .locking (.setLockNx key) true .handling
  | handled : Next a key .handling (.handle a.outcome) () (afterHandle a.outcome)
  | stored (r : HttpResponse) (data : CachedResponse) :
      Next a key (.storing r data) (.setResponse key data) () (.releasing (.ok r) (some data))
  | released (ending : Except RouteError HttpResponse) (stored : Option CachedResponse) :
      Next a key (.releasing ending stored) (.deleteLock key) () (.finished ending stored)

omit [Starlette] in
theorem Next.of_handle {a : Attempt} {key : String} {ph ph' : Phase} {o : Outcome} {u : Unit}
    (h : Next a key ph (.handle o) u ph') :
    o = a.outcome ∧ ph = .handling ∧ ph' = afterHandle o := by
  cases h with
  | handled => exact ⟨rfl, rfl, rfl⟩

theorem rest_afterHandle (a : Attempt) (key : String) :
    (afterHandle a.outcome).rest a key = Program.tryFinally (match a.outcome with
      | .response r =>
        if 200 ≤ r.statusCode ∧ r.statusCode < 500 then do
          IdempotencyManager.cacheResponse key r
          pure r
        else pure r
      | .httpException statusCode detail => .raise (.httpException statusCode detail))
      (IdempotencyManager.releaseLock key) := by
  cases a.outcome with
  | httpException statusCode detail => rfl
  | response r =>
    unfold afterHandle
    by_cases hstatus : 200 ≤ r.statusCode ∧ r.statusCode < 500
    · simp only [if_pos hstatus]
      unfold IdempotencyManager.cacheResponse
      cases IdempotencyManager.cachedData r with
      | none => rfl
      | some data => rfl
    · simp only [if_neg hstatus]
      rfl

omit [Starlette] in
/-- A response is stored or the lock is released without one. -/
theorem afterHandle_cases (o : Outcome) :
    (∃ r data, afterHandle o = .storing r data) ∨ ∃ ending, afterHandle o = .releasing ending none := by
  unfold afterHandle
  cases o with
  | httpException statusCode detail => exact .inr ⟨_, rfl⟩
  | response r =>
    by_cases hstatus : 200 ≤ r.statusCode ∧ r.statusCode < 500
    · simp only [if_pos hstatus]
      cases IdempotencyManager.cachedData r with
      | none => exact .inr ⟨_, rfl⟩
      | some data => exact .inl ⟨r, data, rfl⟩
    · simp only [if_neg hstatus]
      exact .inr ⟨_, rfl⟩

omit [Starlette] in
theorem trace_afterHandle (a : Attempt) (key : String) (o : Outcome) :
    (afterHandle o).trace a key =
      [⟨.getResponse key, none⟩, ⟨.setLockNx key, true⟩, ⟨.handle a.outcome, ()⟩] := by
  rcases afterHandle_cases o with ⟨r, data, h⟩ | ⟨ending, h⟩
  · rw [h]
    rfl
  · rw [h]
    rfl

omit [Starlette] in
theorem rest_ofExcept_ne_call (ending : Except RouteError HttpResponse) (c : Call)
    (next : c.Answer → RouteProgram HttpResponse) : ofExcept ending ≠ .call c next := by
  cases ending <;> exact nofun

/-- An answered call takes the thread to a next phase. -/
theorem next_of_rest {a : Attempt} {key : String} (hkey : a.key = some key) {ph : Phase} {c : Call}
    {next : c.Answer → RouteProgram HttpResponse} (hrest : ph.rest a key = .call c next)
    (r : c.Answer) :
    ∃ ph', Next a key ph c r ph' ∧ ph'.trace a key = ph.trace a key ++ [⟨c, r⟩] ∧
      ph'.rest a key = next r := by
  cases ph with
  | lookup =>
    rw [rest, customRouteHandler, hkey] at hrest
    cases hrest
    cases r with
    | none => exact ⟨_, .miss, rfl, rfl⟩
    | some data => exact ⟨_, .hit data, rfl, rfl⟩
  | locking =>
    cases hrest
    cases r with
    | false => exact ⟨_, .refused, rfl, rfl⟩
    | true => exact ⟨_, .acquired, rfl, rfl⟩
  | handling =>
    cases hrest
    refine ⟨_, .handled, trace_afterHandle a key _, ?_⟩
    rw [rest_afterHandle]
    cases a.outcome <;> rfl
  | storing r data =>
    cases hrest
    exact ⟨_, .stored _ data, rfl, rfl⟩
  | releasing ending stored =>
    cases hrest
    cases stored <;> exact ⟨_, .released ending _, rfl, rfl⟩
  | replayed data => cases hrest
  | refused => cases hrest
  | finished ending stored => exact absurd hrest (rest_ofExcept_ne_call ending c next)

end Phase

structure Stores (a : Attempt) (r : HttpResponse) (data : CachedResponse) : Prop where
  outcome : a.outcome = .response r
  status : 200 ≤ r.statusCode ∧ r.statusCode < 500
  data : IdempotencyManager.cachedData r = some data

/-- What a phase that stores or has stored knows about the outcome. -/
def Phase.Valid (a : Attempt) : Phase → Prop
  | .storing r data => Stores a r data
  | .releasing ending (some data) => ∃ r, ending = .ok r ∧ Stores a r data
  | .finished ending (some data) => ∃ r, ending = .ok r ∧ Stores a r data
  | _ => True

theorem Phase.afterHandle_valid (a : Attempt) : (Phase.afterHandle a.outcome).Valid a := by
  unfold afterHandle
  cases ho : a.outcome with
  | httpException statusCode detail => trivial
  | response r =>
    by_cases hstatus : 200 ≤ r.statusCode ∧ r.statusCode < 500
    · simp only [if_pos hstatus]
      cases hdata : IdempotencyManager.cachedData r with
      | none => trivial
      | some data => exact ⟨ho, hstatus, hdata⟩
    · simp only [if_neg hstatus]
      trivial

theorem Stores.afterHandle {a : Attempt} {r : HttpResponse} {data : CachedResponse}
    (h : Stores a r data) : Phase.afterHandle a.outcome = .storing r data := by
  rw [h.outcome, Phase.afterHandle]
  simp only [if_pos h.status, h.data]

theorem Phase.Next.valid {a : Attempt} {key : String} {ph ph' : Phase} {c : Call} {r : c.Answer}
    (h : Phase.Next a key ph c r ph') (hvalid : ph.Valid a) : ph'.Valid a := by
  cases h with
  | hit data => trivial
  | miss => trivial
  | refused => trivial
  | acquired => trivial
  | handled => exact afterHandle_valid a
  | stored r data => exact ⟨r, rfl, hvalid⟩
  | released ending stored =>
    cases stored with
    | none => trivial
    | some data => exact hvalid

/-! ## The pool -/

section pool
variable [Starlette]

def routes : PoolSystem Call Call.Answer RouteError HttpResponse Attempt ℕ Store where
  handler := handler
  environment d s := s.advance d
  program := customRouteHandler

structure At (key : String) (th : RouteThread) (ph : Phase) : Prop where
  tagged : th.tag.key = some key
  trace : th.trace = ph.trace th.tag key
  rest : th.rest = ph.rest th.tag key
  valid : ph.Valid th.tag

theorem At.answered {key : String} {th : RouteThread} {ph : Phase} (h : At key th ph) {c : Call}
    {next : c.Answer → RouteProgram HttpResponse} (hrest : th.rest = .call c next) (r : c.Answer) :
    ∃ ph', Phase.Next th.tag key ph c r ph' ∧ At key (th.answered c r next) ph' := by
  obtain ⟨ph', hnext, htrace, hrest'⟩ := Phase.next_of_rest h.tagged (h.rest.symm.trans hrest) r
  refine ⟨ph', hnext, h.tagged, ?_, hrest'.symm, hnext.valid h.valid⟩
  rw [Thread.answered, h.trace]
  exact htrace.symm

def Unkeyed (th : RouteThread) : Prop :=
  th.tag.key = none ∧ th.rest.Makes (fun c => ∃ o, c = .handle o)

def Tracked (th : RouteThread) : Prop := (∃ key ph, At key th ph) ∨ Unkeyed th

theorem fresh_tracked (a : Attempt) : Tracked (routes.fresh a) := by
  cases hkey : a.key with
  | none =>
    right
    refine ⟨hkey, ?_⟩
    simp only [PoolSystem.fresh, routes, customRouteHandler, hkey]
    refine ⟨⟨a.outcome, rfl⟩, fun _ => ?_⟩
    cases a.outcome <;> trivial
  | some key => exact .inl ⟨key, .lookup, hkey, rfl, rfl, trivial⟩

theorem Tracked.answered {th : RouteThread} (h : Tracked th) {c : Call}
    {next : c.Answer → RouteProgram HttpResponse} (hrest : th.rest = .call c next) (r : c.Answer) :
    Tracked (th.answered c r next) := by
  rcases h with ⟨key, ph, hat⟩ | ⟨hkey, hmakes⟩
  · obtain ⟨ph', -, hat'⟩ := hat.answered hrest r
    exact .inl ⟨key, ph', hat'⟩
  · rw [hrest] at hmakes
    exact .inr ⟨hkey, hmakes.2 r⟩

/-- All threads are tracked, whatever the run. -/
theorem tracked_step {p : RoutePool} (h : ∀ th ∈ p.threads, Tracked th) (m : RouteMove) :
    ∀ th ∈ (routes.step p m).threads, Tracked th :=
  routes.everyThread_step h (fun a _ => fresh_tracked a)
    (fun _ _ _ _ _ hrest hth => hth.answered hrest _)

def AtWork (key : String) (th : RouteThread) : Prop :=
  th.tag.key = some key ∧ ⟨.setLockNx key, true⟩ ∈ th.trace ∧ ⟨.deleteLock key, ()⟩ ∉ th.trace

def Ended (key : String) (kind : Outcome → Prop) (th : RouteThread) : Prop :=
  th.tag.key = some key ∧ ∃ o, ⟨.handle o, ()⟩ ∈ th.trace ∧ kind o

end pool

def Phase.atWork : Phase → Bool
  | .handling => true
  | .storing .. => true
  | .releasing .. => true
  | _ => false

def Phase.ended : Phase → Bool
  | .storing .. => true
  | .releasing .. => true
  | .finished .. => true
  | _ => false

def Phase.storedData : Phase → Option CachedResponse
  | .releasing _ stored => stored
  | .finished _ stored => stored
  | _ => none

theorem Phase.afterHandle_ended (o : Outcome) : (Phase.afterHandle o).ended := by
  rcases afterHandle_cases o with ⟨r, data, h⟩ | ⟨ending, h⟩
  · rw [h]
    rfl
  · rw [h]
    rfl

namespace At

variable [Starlette] {key : String} {th : RouteThread} {ph : Phase} (h : At key th ph)

include h in
theorem atWork_iff : AtWork key th ↔ ph.atWork := by
  rw [AtWork, h.trace]
  simp only [h.tagged, true_and]
  cases ph with
  | releasing ending stored => cases stored <;> simp [Phase.trace, Phase.atWork]
  | finished ending stored => cases stored <;> simp [Phase.trace, Phase.atWork]
  | _ => simp [Phase.trace, Phase.atWork]

include h in
theorem ended_iff {kind : Outcome → Prop} :
    Ended key kind th ↔ ph.ended ∧ kind th.tag.outcome := by
  rw [Ended, h.trace]
  simp only [h.tagged, true_and]
  cases ph with
  | releasing ending stored => cases stored <;> simp [Phase.trace, Phase.ended]
  | finished ending stored => cases stored <;> simp [Phase.trace, Phase.ended]
  | _ => simp [Phase.trace, Phase.ended]

include h in
theorem stored_iff {data : CachedResponse} :
    ⟨.setResponse key data, ()⟩ ∈ th.trace ↔ ph.storedData = some data := by
  rw [h.trace]
  cases ph with
  | releasing ending stored => cases stored <;> simp [Phase.trace, Phase.storedData, eq_comm]
  | finished ending stored => cases stored <;> simp [Phase.trace, Phase.storedData, eq_comm]
  | _ => simp [Phase.trace, Phase.storedData]

include h in
/-- A thread that is still at its handler has not passed it. -/
theorem not_handling (hended : ph.ended) : ¬ At key th .handling := by
  intro h'
  have hthis : Ended key (fun _ => True) th := h.ended_iff.mpr ⟨hended, trivial⟩
  cases (h'.ended_iff.mp hthis).1

include h in
theorem key_eq {key' : String} (hkey : th.tag.key = some key') : key = key' := by
  rw [h.tagged] at hkey
  exact Option.some.inj hkey

end At

end FastapiTemplate.Idempotency
