import FastapiTemplate.EventBus
import FastapiTemplate.ProgramPool
import Mathlib.Data.List.Nodup

/-!
# Dispatching an event

`subscribe` and `_process_remote_event` of `EventBus`, with handlers that may raise. The
listeners of any number of workers process entries at the same time, each entry with the
subscriptions of its own worker, and any number of entries may carry one event.
-/

namespace FastapiTemplate.Events

def subscribe (subscribers : String → List Handler) (eventName : String) (handler : Handler) :
    String → List Handler :=
  if handler ∈ subscribers eventName then subscribers
  else Function.update subscribers eventName (subscribers eventName ++ [handler])

def subscribeAll (subscriptions : List (String × Handler)) : String → List Handler :=
  subscriptions.foldl (fun subscribers x => subscribe subscribers x.1 x.2) (fun _ => [])

inductive DispatchCall
  /-- `SET key 1 NX EX 60` -/
  | setNx (key : String)
  | invoke (handler : Handler) (event : ApplicationEvent)
  deriving DecidableEq, Repr

inductive DispatchError
  | validation
  | handler
  deriving DecidableEq, Repr

@[reducible] def DispatchCall.Answer : DispatchCall → Type
  | .setNx _ => Bool
  | .invoke .. => Except DispatchError Unit

instance (c : DispatchCall) : DecidableEq c.Answer := by
  cases c with
  | setNx key => exact inferInstanceAs (DecidableEq Bool)
  | invoke handler event => exact inferInstanceAs (DecidableEq (Except DispatchError Unit))

abbrev DispatchProgram (α : Type) := Program DispatchCall DispatchCall.Answer DispatchError α

/-- An entry that was read by a worker with these subscriptions. -/
structure Delivery where
  subscriptions : List (String × Handler)
  rawData : String
  deriving DecidableEq, Repr

def callHandler (handler : Handler) (event : ApplicationEvent) : DispatchProgram Unit := do
  Program.ofExcept (← Program.perform (DispatchCall.invoke handler event))

/-- What a handler raises is only logged. -/
def invokeHandlers (event : ApplicationEvent) : List Handler → DispatchProgram Unit
  | [] => pure ()
  | handler :: handlers => do
    let _ ← (callHandler handler event).attempt
    invokeHandlers event handlers

section process
variable (modelValidateJson : String → Option ApplicationEvent)

def validate (rawData : String) : DispatchProgram ApplicationEvent :=
  match modelValidateJson rawData with
  | some event => pure event
  | none => .raise .validation

def processRemoteEvent (d : Delivery) : DispatchProgram Unit :=
  Program.handle (do
    let event ← validate modelValidateJson d.rawData
    let handlers := subscribeAll d.subscriptions event.eventName
    if handlers = [] then pure ()
    else
      let acquired ← Program.perform (.setNx (Bus.lockKey event))
      if acquired then invokeHandlers event handlers else pure ()) (fun _ => pure ())

end process

/-! ## Workers side by side -/

/-- The locks, and which handlers raise an exception at the moment. -/
structure LockServer where
  now : ℕ
  locks : ExpiringStore String Unit
  raises : Handler → ApplicationEvent → Bool

inductive Surroundings
  | tick (seconds : ℕ)
  | raising (raises : Handler → ApplicationEvent → Bool)

namespace LockServer

def free (s : LockServer) (key : String) : Bool := s.locks.get s.now key = none

def handler : (c : DispatchCall) → LockServer → c.Answer × LockServer
  | .setNx key, s =>
    if s.free key then (true, { s with locks := s.locks.set key () (some (s.now + 60)) })
    else (false, s)
  | .invoke handler event, s => (if s.raises handler event then .error .handler else .ok (), s)

def surroundings : Surroundings → LockServer → LockServer
  | .tick seconds, s => { s with now := s.now + seconds }
  | .raising raises, s => { s with raises := raises }

def start : LockServer := ⟨0, .empty, fun _ _ => false⟩

end LockServer

abbrev DispatchThread := Thread DispatchCall DispatchCall.Answer DispatchError Unit Delivery

abbrev DispatchPool := Pool DispatchCall DispatchCall.Answer DispatchError Unit Delivery LockServer

abbrev DispatchMove := PoolMove Delivery Surroundings

def listeners (modelValidateJson : String → Option ApplicationEvent) :
    PoolSystem DispatchCall DispatchCall.Answer DispatchError Unit Delivery Surroundings
      LockServer where
  handler := LockServer.handler
  environment := LockServer.surroundings
  program := processRemoteEvent modelValidateJson

def DispatchPool.start : DispatchPool := ⟨.start, []⟩

def eventKey (eventId : String) : String := "event_bus:lock:" ++ eventId

def Won (eventId : String) (th : DispatchThread) : Prop :=
  ⟨.setNx (eventKey eventId), true⟩ ∈ th.trace

instance (eventId : String) : DecidablePred (Won eventId) :=
  fun _ => inferInstanceAs (Decidable (_ ∈ _))

def DispatchCall.handlerOf (eventId : String) : DispatchCall → Option Handler
  | .setNx _ => none
  | .invoke handler event => if event.eventId = eventId then some handler else none

def handled (eventId : String) (th : DispatchThread) : List Handler :=
  th.trace.filterMap (fun x => x.1.handlerOf eventId)

namespace DispatchPool

def invocations (p : DispatchPool) (handler : Handler) (eventId : String) : ℕ :=
  (p.threads.map (fun th => (handled eventId th).count handler)).sum

/-- When a listener tries to take the lock of the event, the lock has not been there and
expired. -/
def BeforeExpiry (eventId : String) (p : DispatchPool) (m : DispatchMove) : Prop :=
  m.OfThread p (fun th => th.nextCall = some (.setNx (eventKey eventId)) →
    ∀ entry ∈ p.state.locks (eventKey eventId), ExpiringStore.aliveAt p.state.now entry)

instance (eventId : String) (p : DispatchPool) : DecidablePred (BeforeExpiry eventId p) :=
  fun m => inferInstanceAs (Decidable (m.OfThread p _))

/-- Nothing is invoked twice, and the one listener with the lock invokes what it has subscribed,
in this order. -/
structure Dispatched (modelValidateJson : String → Option ApplicationEvent) (p : DispatchPool)
    (eventId : String) : Prop where
  once : ∀ handler, p.invocations handler eventId ≤ 1
  winner : PoolSystem.AtMostOne (Won eventId) p
  inOrder : ∀ th ∈ p.threads, Won eventId th → th.nextCall = none →
    ∃ event, modelValidateJson th.tag.rawData = some event ∧ event.eventId = eventId ∧
      handled eventId th = subscribeAll th.tag.subscriptions event.eventName

end DispatchPool

/-! ## Where a listener stands -/

theorem subscribe_nodup {subscribers : String → List Handler}
    (h : ∀ eventName, (subscribers eventName).Nodup) (name : String) (handler : Handler)
    (eventName : String) : (subscribe subscribers name handler eventName).Nodup := by
  unfold subscribe
  by_cases hmem : handler ∈ subscribers name
  · rw [if_pos hmem]
    exact h eventName
  · rw [if_neg hmem]
    by_cases hname : eventName = name
    · subst hname
      rw [Function.update_self]
      exact (h eventName).append (List.nodup_singleton handler) (by simpa using hmem)
    · rw [Function.update_of_ne hname]
      exact h eventName

theorem subscribeAll_nodup (subscriptions : List (String × Handler)) (eventName : String) :
    (subscribeAll subscriptions eventName).Nodup := by
  have hfold (subscribers : String → List Handler) (h : ∀ name, (subscribers name).Nodup) :
      (subscriptions.foldl (fun subs x => subscribe subs x.1 x.2) subscribers eventName).Nodup := by
    induction subscriptions generalizing subscribers with
    | nil => exact h eventName
    | cons x xs ih => exact ih _ (subscribe_nodup h x.1 x.2)
  exact hfold _ (fun _ => List.nodup_nil)

def invoking (event : ApplicationEvent) (handlers : List Handler) : DispatchProgram Unit :=
  (invokeHandlers event handlers).handle (fun _ => pure ())

/-- The next handler is invoked whether or not this one raises. -/
theorem invoking_cons (event : ApplicationEvent) (handler : Handler) (handlers : List Handler) :
    invoking event (handler :: handlers) =
      .call (.invoke handler event) (fun _ => invoking event handlers) := by
  change Program.call _ _ = _
  congr 1
  funext r
  cases r with
  | ok u => rfl
  | error e => rfl

def locking (event : ApplicationEvent) (handlers : List Handler) : DispatchProgram Unit :=
  .call (.setNx (Bus.lockKey event))
    (fun acquired => if acquired then invoking event handlers else pure ())

section phases
variable {modelValidateJson : String → Option ApplicationEvent}

theorem processRemoteEvent_of_invalid {d : Delivery} (h : modelValidateJson d.rawData = none) :
    processRemoteEvent modelValidateJson d = pure () := by
  simp only [processRemoteEvent, validate, h]
  rfl

theorem processRemoteEvent_of_valid {d : Delivery} {event : ApplicationEvent}
    (h : modelValidateJson d.rawData = some event) :
    processRemoteEvent modelValidateJson d =
      if subscribeAll d.subscriptions event.eventName = [] then pure ()
      else locking event (subscribeAll d.subscriptions event.eventName) := by
  simp only [processRemoteEvent, validate, h]
  by_cases hnone : subscribeAll d.subscriptions event.eventName = []
  · rw [if_pos hnone]
    change Program.handle (if _ then _ else _) _ = _
    rw [if_pos hnone]
    rfl
  · rw [if_neg hnone]
    change Program.handle (if _ then _ else _) _ = _
    rw [if_neg hnone]
    apply congrArg (Program.call _)
    funext acquired
    cases acquired <;> rfl

/-- What a worker of the bus has still to do for the message at work, before it acknowledges it. -/
def Task.program (app : Application) : Task → DispatchProgram Unit
  | .locking event _ => Events.locking event (app.subscribers event.eventName)
  | .invoking event handlers _ => Events.invoking event handlers
  | .reading => pure ()
  | .acking _ => pure ()

/-- A worker of the bus begins with the program of the message. -/
theorem begin_program (app : Application) {subscriptions : List (String × Handler)}
    (hsubs : app.subscribers = subscribeAll subscriptions) (i : ℕ) {rawData : String}
    (hraw : rawData ≠ "") (rest : Batch) :
    (app.begin ((i, ⟨some rawData⟩) :: rest)).program app =
      processRemoteEvent app.modelValidateJson ⟨subscriptions, rawData⟩ := by
  have hevent : app.eventOf ⟨some rawData⟩ = app.modelValidateJson rawData := by
    simp [Application.eventOf, Option.filter, hraw]
  rw [Application.begin, hevent]
  cases hvalid : app.modelValidateJson rawData with
  | none =>
    rw [processRemoteEvent_of_invalid hvalid]
    rfl
  | some event =>
    rw [processRemoteEvent_of_valid hvalid, ← hsubs]
    by_cases hnone : app.subscribers event.eventName = []
    · simp only [if_pos hnone]
      rfl
    · simp only [if_neg hnone]
      rfl

/-- The lock decides whether the worker goes on to the handlers. -/
theorem program_locking (app : Application) (event : ApplicationEvent) (batch : Batch) :
    (Task.locking event batch).program app = .call (.setNx (Bus.lockKey event)) (fun acquired =>
      (if acquired then Task.invoking event (app.subscribers event.eventName) batch
        else .acking batch).program app) := by
  apply congrArg (Program.call _)
  funext acquired
  cases acquired <;> rfl

theorem program_invoking (app : Application) (event : ApplicationEvent) (handler : Handler)
    (handlers : List Handler) (batch : Batch) :
    (Task.invoking event (handler :: handlers) batch).program app =
      .call (.invoke handler event) (fun _ => (Task.invoking event handlers batch).program app) :=
  invoking_cons event handler handlers

inductive Phase (event : ApplicationEvent) (handlers : List Handler) :
    CallTrace DispatchCall DispatchCall.Answer → DispatchProgram Unit → Prop
  | before : Phase event handlers [] (locking event handlers)
  | refused : Phase event handlers [⟨.setNx (Bus.lockKey event), false⟩] (pure ())
  | invoking (done : CallTrace DispatchCall DispatchCall.Answer) (called todo : List Handler)
      (hdone : done.map (·.1) = called.map (fun handler => .invoke handler event))
      (hall : called ++ todo = handlers) :
      Phase event handlers (⟨.setNx (Bus.lockKey event), true⟩ :: done)
        (Events.invoking event todo)

inductive Stands (modelValidateJson : String → Option ApplicationEvent) (th : DispatchThread) : Prop
  | dropped (htrace : th.trace = []) (hrest : th.rest = pure ())
  | processing (event : ApplicationEvent) (hvalid : modelValidateJson th.tag.rawData = some event)
      (hphase : Phase event (subscribeAll th.tag.subscriptions event.eventName) th.trace th.rest)

theorem fresh_stands (d : Delivery) :
    Stands modelValidateJson ((listeners modelValidateJson).fresh d) := by
  cases hvalid : modelValidateJson d.rawData with
  | none => exact .dropped rfl (processRemoteEvent_of_invalid hvalid)
  | some event =>
    have hprogram := processRemoteEvent_of_valid hvalid
    by_cases hnone : subscribeAll d.subscriptions event.eventName = []
    · rw [if_pos hnone] at hprogram
      exact .dropped rfl hprogram
    · rw [if_neg hnone] at hprogram
      apply Stands.processing event hvalid
      simp only [PoolSystem.fresh, listeners, hprogram]
      exact .before

theorem Phase.answered {event : ApplicationEvent} {handlers : List Handler}
    {trace : CallTrace DispatchCall DispatchCall.Answer} {c : DispatchCall}
    {next : c.Answer → DispatchProgram Unit} (h : Phase event handlers trace (.call c next))
    (r : c.Answer) : Phase event handlers (trace ++ [⟨c, r⟩]) (next r) := by
  generalize hrest : Program.call c next = rest at h
  cases h with
  | before =>
    cases hrest
    cases r with
    | false => exact .refused
    | true => exact .invoking [] [] handlers rfl rfl
  | refused => cases hrest
  | invoking done called todo hdone hall =>
    cases todo with
    | nil => cases hrest
    | cons handler todo =>
      rw [invoking_cons] at hrest
      cases hrest
      refine Phase.invoking (done ++ [⟨.invoke handler event, r⟩]) (called ++ [handler]) todo ?_ ?_
      · rw [List.map_append, List.map_append, hdone]
        rfl
      · rw [List.append_assoc]
        exact hall

theorem Stands.answered {th : DispatchThread} (h : Stands modelValidateJson th) {c : DispatchCall}
    {next : c.Answer → DispatchProgram Unit} (hrest : th.rest = .call c next) (r : c.Answer) :
    Stands modelValidateJson (th.answered c r next) := by
  cases h with
  | dropped htrace hpure =>
    rw [hpure] at hrest
    cases hrest
  | processing event hvalid hphase =>
    rw [hrest] at hphase
    exact .processing event hvalid (hphase.answered r)

end phases

theorem eventKey_injective : Function.Injective eventKey := by
  intro a b h
  unfold eventKey at h
  exact (String.append_right_inj _).mp h

theorem handlerOf_invoke (event : ApplicationEvent) (eventId : String) (called : List Handler) :
    (called.map (fun handler => DispatchCall.invoke handler event)).filterMap
        (DispatchCall.handlerOf eventId) =
      if event.eventId = eventId then called else [] := by
  rw [List.filterMap_map]
  induction called with
  | nil => simp
  | cons handler called ih =>
    by_cases hid : event.eventId = eventId
    · rw [if_pos hid] at ih ⊢
      rw [List.filterMap_cons_some (b := handler), ih]
      simp [DispatchCall.handlerOf, hid]
    · rw [if_neg hid] at ih ⊢
      rw [List.filterMap_cons_none, ih]
      simp [DispatchCall.handlerOf, hid]

/-- The listener has the lock of the event, and has invoked a part of what it has subscribed. -/
structure Invokes (modelValidateJson : String → Option ApplicationEvent) (eventId : String)
    (th : DispatchThread) (event : ApplicationEvent) (todo : List Handler) : Prop where
  valid : modelValidateJson th.tag.rawData = some event
  named : event.eventId = eventId
  won : Won eventId th
  calls : handled eventId th ++ todo = subscribeAll th.tag.subscriptions event.eventName
  rest : th.rest = invoking event todo

section handled
variable {modelValidateJson : String → Option ApplicationEvent} {eventId : String}
  {th : DispatchThread}

/-- Nothing is invoked without the lock. -/
theorem Stands.cases (h : Stands modelValidateJson th) (eventId : String) :
    (¬ Won eventId th ∧ handled eventId th = []) ∨
      ∃ event todo, Invokes modelValidateJson eventId th event todo := by
  unfold Won handled
  cases h with
  | dropped htrace hrest =>
    rw [htrace]
    exact .inl ⟨List.not_mem_nil, rfl⟩
  | processing event hvalid hphase =>
    generalize hhandlers : subscribeAll th.tag.subscriptions event.eventName = handlers at hphase
    generalize htrace : th.trace = trace at hphase
    generalize hrest : th.rest = rest at hphase
    cases hphase with
    | before => exact .inl ⟨List.not_mem_nil, rfl⟩
    | refused =>
      left
      constructor
      · simp
      · rfl
    | invoking done called todo hdone hall =>
      have hcalled : done.filterMap (fun x => x.1.handlerOf eventId) =
          if event.eventId = eventId then called else [] := by
        rw [← handlerOf_invoke, ← hdone, List.filterMap_map]
        rfl
      have hsplit : (⟨.setNx (Bus.lockKey event), true⟩ :: done :
          CallTrace DispatchCall DispatchCall.Answer).filterMap (fun x => x.1.handlerOf eventId) =
          done.filterMap (fun x => x.1.handlerOf eventId) := rfl
      by_cases hid : event.eventId = eventId
      · rw [if_pos hid] at hcalled
        right
        refine ⟨event, todo, hvalid, hid, ?_, ?_, hrest⟩
        · rw [Won, htrace, ← hid]
          exact List.mem_cons_self
        · rw [handled, htrace, hsplit, hcalled, hhandlers]
          exact hall
      · rw [if_neg hid] at hcalled
        left
        refine ⟨?_, by rw [hsplit, hcalled]⟩
        intro hwon
        rcases List.mem_cons.mp hwon with heq | hmem
        · have hkey : DispatchCall.setNx (eventKey eventId) = .setNx (Bus.lockKey event) :=
            congrArg Sigma.fst heq
          exact hid (eventKey_injective (DispatchCall.setNx.inj hkey)).symm
        · have hfst := List.mem_map_of_mem (f := fun x => x.1) hmem
          rw [hdone] at hfst
          simp at hfst

theorem Invokes.handled_nodup {event : ApplicationEvent} {todo : List Handler}
    (h : Invokes modelValidateJson eventId th event todo) : (handled eventId th).Nodup := by
  have hnodup := subscribeAll_nodup th.tag.subscriptions event.eventName
  rw [← h.calls] at hnodup
  exact hnodup.of_append_left

theorem Stands.count_le_one (h : Stands modelValidateJson th) (handler : Handler) :
    (handled eventId th).count handler ≤ 1 := by
  rcases h.cases eventId with ⟨-, hnone⟩ | ⟨event, todo, hinvokes⟩
  · rw [hnone]
    exact Nat.zero_le 1
  · exact List.nodup_iff_count_le_one.mp hinvokes.handled_nodup handler

theorem Stands.won_of_count (h : Stands modelValidateJson th) {handler : Handler}
    (hcount : 0 < (handled eventId th).count handler) : Won eventId th := by
  rcases h.cases eventId with ⟨-, hnone⟩ | ⟨event, todo, hinvokes⟩
  · rw [hnone] at hcount
    exact absurd hcount (Nat.lt_irrefl 0)
  · exact hinvokes.won

end handled

/-! ## The lock of an event -/

namespace DispatchPool

variable {modelValidateJson : String → Option ApplicationEvent} {p : DispatchPool}
  {eventId : String}

/-- Once a listener has taken the lock of the event, the lock is there, and no other listener
has taken it. -/
structure Locked (modelValidateJson : String → Option ApplicationEvent) (eventId : String)
    (p : DispatchPool) : Prop where
  stands : ∀ th ∈ p.threads, Stands modelValidateJson th
  stored : ∀ th ∈ p.threads, Won eventId th → p.state.locks (eventKey eventId) ≠ none
  winner : PoolSystem.AtMostOne (Won eventId) p

theorem locked_start : Locked modelValidateJson eventId start := by
  constructor
  · intro th hth
    cases hth
  · intro th hth
    cases hth
  · intro i j th th' hi
    cases hi

theorem handler_locks {key : String} {c : DispatchCall} {s : LockServer}
    (h : s.locks key ≠ none) : (LockServer.handler c s).2.locks key ≠ none := by
  cases c with
  | invoke handler event => exact h
  | setNx k =>
    rw [LockServer.handler]
    by_cases hfree : s.free k = true
    · rw [if_pos hfree]
      by_cases hk : key = k
      · subst hk
        simp
      · simp only [ne_eq]
        rw [ExpiringStore.set_of_ne _ hk]
        exact h
    · rw [if_neg hfree]
      exact h

/-- A listener that wins has found no lock, and has put it there. -/
theorem won_answered {th : DispatchThread} {c : DispatchCall} {next : c.Answer → DispatchProgram Unit}
    {s : LockServer} (hwon : Won eventId (th.answered c (LockServer.handler c s).1 next)) :
    Won eventId th ∨ (c = .setNx (eventKey eventId) ∧ s.free (eventKey eventId) = true ∧
      (LockServer.handler c s).2.locks (eventKey eventId) ≠ none) := by
  rcases List.mem_append.mp hwon with hold | hnew
  · exact .inl hold
  · right
    have heq := List.mem_singleton.mp hnew
    cases c with
    | invoke handler event => cases heq
    | setNx key =>
      rw [LockServer.handler] at heq
      by_cases hfree : s.free key = true
      · rw [if_pos hfree] at heq
        cases heq
        refine ⟨rfl, hfree, ?_⟩
        rw [LockServer.handler, if_pos hfree]
        simp
      · rw [if_neg hfree] at heq
        cases heq

theorem locked_step {m : DispatchMove} (hok : BeforeExpiry eventId p m)
    (h : Locked modelValidateJson eventId p) :
    Locked modelValidateJson eventId ((listeners modelValidateJson).step p m) := by
  -- a listener that takes the lock now finds that nobody has taken it
  have hfirst {i : ℕ} {th : DispatchThread} {next} (hm : m = .advance i)
      (hth : p.threads[i]? = some th) (hrest : th.rest = .call (.setNx (eventKey eventId)) next)
      (hfree : p.state.free (eventKey eventId) = true) : ∀ y ∈ p.threads, ¬ Won eventId y := by
    intro y hy hwon
    rw [hm] at hok
    have halive := hok th hth (Thread.nextCall_of_rest hrest)
    obtain ⟨entry, hentry⟩ := Option.ne_none_iff_exists'.mp (h.stored y hy hwon)
    have hget : p.state.locks.get p.state.now (eventKey eventId) = none := by
      simpa [LockServer.free] using hfree
    rw [ExpiringStore.get, hentry] at hget
    simp [halive entry hentry] at hget
  constructor
  · exact (listeners modelValidateJson).everyThread_step h.stands (fun d _ => fresh_stands d)
      (fun _ _ _ _ _ hrest hth => hth.answered hrest _)
  · have hcase := (listeners modelValidateJson).step_cases p m
    generalize (listeners modelValidateJson).step p m = q at hcase ⊢
    cases hcase with
    | spawn d =>
      intro th hth hwon
      rcases List.mem_append.mp hth with hold | hnew
      · exact h.stored th hold hwon
      · rw [List.mem_singleton.mp hnew] at hwon
        cases hwon
    | environment e =>
      intro th hth hwon
      cases e <;> exact h.stored th hth hwon
    | idle i => exact h.stored
    | @call i th c next hth hrest =>
      intro x hx hwon
      rcases mem_set_thread hx with rfl | ⟨j, -, hold⟩
      · rcases won_answered hwon with hbefore | ⟨-, -, hlocks⟩
        · exact handler_locks (h.stored th (List.mem_of_getElem? hth) hbefore)
        · exact hlocks
      · exact handler_locks (h.stored x (List.mem_of_getElem? hold) hwon)
  · apply (listeners modelValidateJson).atMostOne_step h.winner
    · intro d hwon
      cases hwon
    · intro i th c next hm hth hrest hwon
      rcases won_answered hwon with hbefore | ⟨rfl, hfree, -⟩
      · exact .inl hbefore
      · exact .inr (hfirst hm hth hrest hfree)

theorem Locked.dispatched (h : Locked modelValidateJson eventId p) :
    p.Dispatched modelValidateJson eventId where
  once handler := by
    apply sum_le_one
    · exact fun th hth => (h.stands th hth).count_le_one handler
    · intro i j x y hi hj hx hy
      have hwonx := (h.stands x (List.mem_of_getElem? hi)).won_of_count hx
      have hwony := (h.stands y (List.mem_of_getElem? hj)).won_of_count hy
      exact h.winner i j x y hi hj hwonx hwony
  winner := h.winner
  inOrder th hth hwon hended := by
    rcases (h.stands th hth).cases eventId with ⟨hnot, -⟩ | ⟨event, todo, hinvokes⟩
    · exact absurd hwon hnot
    · refine ⟨event, hinvokes.valid, hinvokes.named, ?_⟩
      cases todo with
      | nil =>
        rw [← hinvokes.calls, List.append_nil]
      | cons handler todo =>
        have hrest := hinvokes.rest
        rw [invoking_cons] at hrest
        rw [Thread.nextCall_of_rest hrest] at hended
        cases hended

/-- While its lock lasts, an event is dispatched once, to all the handlers of the listener that
takes the lock, whichever of them raise. -/
theorem dispatched_of_beforeExpiry
    (h : RunsWhere (listeners modelValidateJson).step (BeforeExpiry eventId) start p) :
    p.Dispatched modelValidateJson eventId :=
  (h.invariant locked_start (fun _ _ hok hp => locked_step hok hp)).dispatched

/-! ## A run -/

def userCreatedDelivery : Delivery where
  subscriptions := [("user.created", "notify"), ("user.created", "index"), ("user.created", "notify")]
  rawData := "e1"

/-- Two workers have the same event; the first handler of the one with the lock raises. -/
def twoWorkers : List DispatchMove :=
  [.spawn userCreatedDelivery, .spawn userCreatedDelivery, .advance 1, .environment (.tick 59),
    .environment (.raising (fun handler _ => handler = "notify")), .advance 0, .advance 1,
    .advance 1]

def readUserCreated (rawData : String) : Option ApplicationEvent :=
  some ⟨rawData, "user.created", ""⟩

theorem dispatched_twoWorkers :
    EveryStep (listeners readUserCreated).step (BeforeExpiry "e1") start twoWorkers ∧
      Dispatched readUserCreated (run (listeners readUserCreated).step start twoWorkers) "e1" ∧
      invocations (run (listeners readUserCreated).step start twoWorkers) "index" "e1" = 1 := by
  have hsteps : EveryStep (listeners readUserCreated).step (BeforeExpiry "e1") start twoWorkers := by
    decide +kernel
  exact ⟨hsteps, dispatched_of_beforeExpiry hsteps.runsWhere, by decide +kernel⟩

end DispatchPool
end FastapiTemplate.Events
