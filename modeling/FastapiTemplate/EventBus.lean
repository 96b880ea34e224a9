import FastapiTemplate.ConsumerGroups
import FastapiTemplate.ExpiringStore
import FastapiTemplate.TransitionRuns

/-!
# The event bus

`EventBus` of `api/core/events/bus.py`: publishers add events to a Redis stream, and the
listener of each worker reads batches of new entries, runs the handlers of each event
behind a lock on its identifier, and acknowledges the entry. A step is one Redis call of
a worker together with the code up to its next call, or one handler. Each call can fail,
with or without having been executed by the server.
-/

namespace FastapiTemplate.Events

structure ApplicationEvent where
  eventId : String
  eventName : String
  payload : String
  deriving DecidableEq, Repr

abbrev Handler := String

/-- What all workers share: the JSON form of events, and the handlers that are subscribed. -/
structure Application where
  modelDumpJson : ApplicationEvent → String
  modelValidateJson : String → Option ApplicationEvent
  subscribers : String → List Handler

structure Message where
  data : Option String
  deriving DecidableEq, Repr

/-- `data`, if it is there and not empty, as an event. -/
def Application.eventOf (app : Application) (m : Message) : Option ApplicationEvent :=
  (m.data.filter (· ≠ "")).bind app.modelValidateJson

abbrev Batch := List (ℕ × Message)

/-- What the listener waits for. The batch starts with the message at work. -/
inductive Task
  | reading
  | locking (event : ApplicationEvent) (batch : Batch)
  | invoking (event : ApplicationEvent) (handlers : List Handler) (batch : Batch)
  | acking (batch : Batch)
  deriving DecidableEq, Repr

def Task.batch : Task → Batch
  | .reading => []
  | .locking _ batch => batch
  | .invoking _ _ batch => batch
  | .acking batch => batch

/-- The loop over the messages: a message that is no event, or an event without handlers, is
acknowledged at once. -/
def Application.begin (app : Application) : Batch → Task
  | [] => .reading
  | (i, m) :: rest =>
    match app.eventOf m with
    | none => .acking ((i, m) :: rest)
    | some event =>
      if app.subscribers event.eventName = [] then .acking ((i, m) :: rest)
      else .locking event ((i, m) :: rest)

/-- A worker and the number of the `EventBus` instance it runs. -/
abbrev Consumer := ℕ × ℕ

structure Worker where
  instanceNo : ℕ
  running : Bool
  task : Task
  deriving DecidableEq, Repr

structure Bus where
  now : ℕ
  stream : EntryStream Message Consumer
  locks : ExpiringStore String Unit
  workers : ℕ → Worker
  /-- the handlers that were called, with their events -/
  invoked : List (ApplicationEvent × Handler)

def maxStreamLen : ℕ := 50000

inductive Move
  | tick (seconds : ℕ)
  | publish (event : ApplicationEvent) (trimmed : ℕ)
  /-- an entry that was not made by `publish` -/
  | addForeign (m : Message) (trimmed : ℕ)
  /-- a new process, or the old instance again; another error than that the group exists is
  only logged -/
  | start (w : ℕ) (newInstance created : Bool)
  | stop (w : ℕ)
  | read (w count : ℕ)
  /-- the entries that were handed out all the same, if the server executed the call -/
  | readFails (w : ℕ) (executed : Option ℕ)
  | lock (w : ℕ)
  | lockFails (w : ℕ) (executed : Bool)
  | invoke (w : ℕ)
  | ack (w : ℕ)
  | ackFails (w : ℕ) (executed : Bool)
  deriving DecidableEq, Repr

namespace Bus

def empty : Bus where
  now := 0
  stream := .empty
  locks := .empty
  workers _ := ⟨0, false, .reading⟩
  invoked := []

def consumer (s : Bus) (w : ℕ) : Consumer := (w, (s.workers w).instanceNo)

def withTask (s : Bus) (w : ℕ) (task : Task) : Bus :=
  { s with workers := Function.update s.workers w { s.workers w with task := task } }

def task (s : Bus) (w : ℕ) : Option Task :=
  if (s.workers w).running then some (s.workers w).task else none

def lockKey (event : ApplicationEvent) : String := "event_bus:lock:" ++ event.eventId

def lockFree (s : Bus) (event : ApplicationEvent) : Bool :=
  s.locks.get s.now (lockKey event) = none

def setLock (s : Bus) (event : ApplicationEvent) : Bus :=
  { s with locks := s.locks.set (lockKey event) () (some (s.now + 60)) }

def startWorker (s : Bus) (w : ℕ) (newInstance created : Bool) : Bus :=
  let instanceNo := (s.workers w).instanceNo + newInstance.toNat
  { s with
    stream := if created then s.stream.createGroup else s.stream
    workers := Function.update s.workers w ⟨instanceNo, true, .reading⟩ }

/-- The listener is cancelled at the call or the handler that it waits for. -/
def stopWorker (s : Bus) (w : ℕ) : Bus :=
  { s with workers := Function.update s.workers w { s.workers w with running := false } }

variable (app : Application)

def step (s : Bus) : Move → Bus
  | .tick seconds => { s with now := s.now + seconds }
  | .publish event trimmed =>
    { s with stream := s.stream.add ⟨some (app.modelDumpJson event)⟩ maxStreamLen trimmed }
  | .addForeign m trimmed => { s with stream := s.stream.add m maxStreamLen trimmed }
  | .start w newInstance created =>
    if (s.workers w).running then s else s.startWorker w newInstance created
  | .stop w => s.stopWorker w
  | .read w count =>
    match s.task w with
    | some .reading =>
      let (messages, stream) := s.stream.read (s.consumer w) count
      ({ s with stream := stream } : Bus).withTask w (app.begin messages)
    | _ => s
  | .readFails w executed =>
    match s.task w, executed with
    | some .reading, some count =>
      { s with stream := (s.stream.read (s.consumer w) count).2 }
    | _, _ => s
  | .lock w =>
    match s.task w with
    | some (.locking event batch) =>
      if s.lockFree event then
        (s.setLock event).withTask w (.invoking event (app.subscribers event.eventName) batch)
      else s.withTask w (.acking batch)
    | _ => s
  | .lockFails w executed =>
    match s.task w with
    | some (.locking event batch) =>
      if executed ∧ s.lockFree event then (s.setLock event).withTask w (.acking batch)
      else s.withTask w (.acking batch)
    | _ => s
  | .invoke w =>
    match s.task w with
    | some (.invoking event (handler :: handlers) batch) =>
      ({ s with invoked := s.invoked ++ [(event, handler)] } : Bus).withTask w
        (.invoking event handlers batch)
    | some (.invoking _ [] batch) => s.withTask w (.acking batch)
    | _ => s
  | .ack w =>
    match s.task w with
    | some (.acking ((i, _) :: rest)) =>
      ({ s with stream := s.stream.ack i } : Bus).withTask w (app.begin rest)
    | _ => s
  | .ackFails w executed =>
    match s.task w with
    | some (.acking ((i, _) :: _)) =>
      ({ s with stream := if executed then s.stream.ack i else s.stream } : Bus).withTask w .reading
    | _ => s

/-! ## At least once -/

def eventAt (s : Bus) (i : ℕ) : Option ApplicationEvent := s.stream.entries[i]?.bind app.eventOf

def AllInvoked (s : Bus) (event : ApplicationEvent) : Prop :=
  ∀ handler ∈ app.subscribers event.eventName, (event, handler) ∈ s.invoked

instance (s : Bus) : DecidablePred (s.AllInvoked app) :=
  fun _ => inferInstanceAs (Decidable (∀ _ ∈ _, _))

def Settled (s : Bus) (i : ℕ) : Prop := ∀ event ∈ s.eventAt app i, s.AllInvoked app event

instance (s : Bus) : DecidablePred (s.Settled app) :=
  fun _ => inferInstanceAs (Decidable (∀ _ ∈ _, _))

/-- The entry is pending for a worker that has gone on without it, in the same instance or
in a later one. -/
def LeftBehind (s : Bus) (i : ℕ) : Prop :=
  ∃ w k, (i, (w, k)) ∈ s.stream.pending ∧
    ¬ (k = (s.workers w).instanceNo ∧ i ∈ (s.workers w).task.batch.map (·.1))

/-- No event is acknowledged or left behind before all its handlers were called. -/
def AtLeastOnce (s : Bus) : Prop :=
  ∀ i, i ∈ s.stream.acked ∨ s.LeftBehind i → s.Settled app i

def Locks (P : ApplicationEvent → Prop) : Option Task → Prop
  | some (.locking event _) => P event
  | _ => True

instance (P : ApplicationEvent → Prop) [DecidablePred P] : DecidablePred (Locks P)
  | some (.locking event _) => inferInstanceAs (Decidable (P event))
  | none => .isTrue trivial
  | some .reading => .isTrue trivial
  | some (.invoking ..) => .isTrue trivial
  | some (.acking _) => .isTrue trivial

def Drops (P : ℕ → Prop) : Option Task → Prop
  | some (.acking batch) => ∀ x ∈ batch.tail, P x.1
  | _ => True

instance (P : ℕ → Prop) [DecidablePred P] : DecidablePred (Drops P)
  | some (.acking batch) => inferInstanceAs (Decidable (∀ x ∈ batch.tail, P x.1))
  | none => .isTrue trivial
  | some .reading => .isTrue trivial
  | some (.locking ..) => .isTrue trivial
  | some (.invoking ..) => .isTrue trivial

/-- The step loses nothing: no call fails, no lock is found taken and no worker is started again
while handlers of the events that this concerns are still to be called. -/
def KeepsEvents (s : Bus) : Move → Prop
  | .start w _ _ => ∀ x ∈ s.stream.pending, x.2.1 = w → s.Settled app x.1
  | .readFails w (some count) =>
    ∀ x ∈ (s.stream.read (s.consumer w) count).1, s.Settled app x.1
  | .lock w => Locks (fun event => s.lockFree event ∨ s.AllInvoked app event) (s.task w)
  | .lockFails w _ => Locks (s.AllInvoked app) (s.task w)
  | .ackFails w _ => Drops (s.Settled app) (s.task w)
  | _ => True

instance (s : Bus) : DecidablePred (s.KeepsEvents app)
  | .start w _ _ =>
    inferInstanceAs (Decidable (∀ x ∈ s.stream.pending, x.2.1 = w → s.Settled app x.1))
  | .readFails w (some count) =>
    inferInstanceAs (Decidable (∀ x ∈ (s.stream.read (s.consumer w) count).1, s.Settled app x.1))
  | .lock w => inferInstanceAs (Decidable (Locks _ (s.task w)))
  | .lockFails w _ => inferInstanceAs (Decidable (Locks _ (s.task w)))
  | .ackFails w _ => inferInstanceAs (Decidable (Drops _ (s.task w)))
  | .tick _ => .isTrue trivial
  | .publish .. => .isTrue trivial
  | .addForeign .. => .isTrue trivial
  | .stop _ => .isTrue trivial
  | .read .. => .isTrue trivial
  | .readFails _ none => .isTrue trivial
  | .invoke _ => .isTrue trivial
  | .ack _ => .isTrue trivial

end Bus
end FastapiTemplate.Events
