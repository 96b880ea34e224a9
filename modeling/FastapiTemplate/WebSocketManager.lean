import FastapiTemplate.CooperativePool

/-!
# The connection manager of the WebSockets

`ConnectionManager` keeps the sockets of every user in a dictionary and subscribes to the channel of
a user while it has some. Users and sockets are numbers. `accept`, `subscribe`, `unsubscribe` and
`send_text` are awaited; everything else happens at once. A socket may close and the listener may
stop at any time. `_local_broadcast` is a number of `_local_send`.
-/

namespace FastapiTemplate.WebSockets

inductive Channel
  | broadcast
  | user (userId : ℕ)
  deriving DecidableEq, Repr

inductive SocketError
  | keyError (userId : ℕ)
  | closed (websocket : ℕ)
  deriving DecidableEq, Repr

inductive SocketCall
  | accept (websocket : ℕ)
  | subscribe (channel : Channel)
  | unsubscribe (channel : Channel)
  | sendText (websocket : ℕ) (message : String)
  | hasUser (userId : ℕ)
  | setEmpty (userId : ℕ)
  | append (userId websocket : ℕ)
  | sockets (userId : ℕ)
  | remove (userId websocket : ℕ)
  | delete (userId : ℕ)
  | listenerDone
  | createListener
  | hasPubsub
  | createPubsub
  deriving DecidableEq

@[reducible] def SocketCall.Answer : SocketCall → Type
  | .accept _ => Except SocketError Unit
  | .subscribe _ => Unit
  | .unsubscribe _ => Unit
  | .sendText .. => Except SocketError Unit
  | .hasUser _ => Bool
  | .setEmpty _ => Unit
  | .append .. => Except SocketError Unit
  | .sockets _ => Except SocketError (List ℕ)
  | .remove .. => Unit
  | .delete _ => Unit
  | .listenerDone => Bool
  | .createListener => Unit
  | .hasPubsub => Bool
  | .createPubsub => Unit

def SocketCall.awaited : SocketCall → Bool
  | .accept _ => true
  | .subscribe _ => true
  | .unsubscribe _ => true
  | .sendText .. => true
  | _ => false

abbrev SocketProgram (α : Type) := Program SocketCall SocketCall.Answer SocketError α

def ask (c : SocketCall) : SocketProgram c.Answer := Program.perform c

/-! ## The methods -/

def ensureListener : SocketProgram Unit := do
  if ← ask .listenerDone then
    if !(← ask .hasPubsub) then ask .createPubsub
    if ← ask .hasPubsub then
      ask (.subscribe .broadcast)
      ask .createListener

def subscribeFirst (userId : ℕ) : SocketProgram Unit := do
  let sockets ← Program.ofExcept (← ask (.sockets userId))
  if sockets.length = 1 then
    if ← ask .hasPubsub then ask (.subscribe (.user userId))

def addConnection (websocket userId : ℕ) : SocketProgram Unit := do
  if !(← ask (.hasUser userId)) then ask (.setEmpty userId)
  Program.ofExcept (← ask (.append userId websocket))

def connect (websocket userId : ℕ) : SocketProgram Unit := do
  Program.ofExcept (← ask (.accept websocket))
  addConnection websocket userId
  ensureListener
  subscribeFirst userId

def deleteIfEmpty (userId : ℕ) : SocketProgram Unit := do
  let sockets ← Program.ofExcept (← ask (.sockets userId))
  if sockets = [] then
    ask (.delete userId)
    if ← ask .hasPubsub then ask (.unsubscribe (.user userId))

def disconnect (websocket userId : ℕ) : SocketProgram Unit := do
  if ← ask (.hasUser userId) then
    let sockets ← Program.ofExcept (← ask (.sockets userId))
    if websocket ∈ sockets then ask (.remove userId websocket)
    deleteIfEmpty userId

def sendEach (message : String) (userId : ℕ) : List ℕ → SocketProgram Unit
  | [] => pure ()
  | connection :: rest => do
    match ← ask (.sendText connection message) with
    | .ok () => pure ()
    | .error _ => disconnect connection userId
    sendEach message userId rest

def localSend (message : String) (userId : ℕ) : SocketProgram Unit := do
  if ← ask (.hasUser userId) then
    let sockets ← Program.ofExcept (← ask (.sockets userId))
    sendEach message userId sockets

/-! ## The state -/

/-- `active_connections`, whether `pubsub` is there and the listener runs, what Redis has subscribed,
and the sockets that are closed. -/
structure ManagerState where
  active : ℕ → Option (List ℕ)
  pubsub : Bool
  listening : Bool
  subscribed : Channel → Bool
  closed : ℕ → Bool

namespace ManagerState

def handler : (c : SocketCall) → ManagerState → c.Answer × ManagerState
  | .accept websocket, s => (if s.closed websocket then .error (.closed websocket) else .ok (), s)
  | .subscribe channel, s => ((), { s with subscribed := Function.update s.subscribed channel true })
  | .unsubscribe channel, s => ((), { s with subscribed := Function.update s.subscribed channel false })
  | .sendText websocket _, s => (if s.closed websocket then .error (.closed websocket) else .ok (), s)
  | .hasUser userId, s => ((s.active userId).isSome, s)
  | .setEmpty userId, s => ((), { s with active := Function.update s.active userId (some []) })
  | .append userId websocket, s =>
    match s.active userId with
    | some sockets =>
      (.ok (), { s with active := Function.update s.active userId (some (sockets ++ [websocket])) })
    | none => (.error (.keyError userId), s)
  | .sockets userId, s =>
    (match s.active userId with
      | some sockets => .ok sockets
      | none => .error (.keyError userId), s)
  | .remove userId websocket, s =>
    ((), { s with
      active := Function.update s.active userId ((s.active userId).map (·.erase websocket)) })
  | .delete userId, s => ((), { s with active := Function.update s.active userId none })
  | .listenerDone, s => (!s.listening, s)
  | .createListener, s => ((), { s with listening := true })
  | .hasPubsub, s => (s.pubsub, s)
  | .createPubsub, s => ((), { s with pubsub := true })

end ManagerState

inductive SocketEvent
  | close (websocket : ℕ)
  | listenerStops

def environment : SocketEvent → ManagerState → ManagerState
  | .close websocket, s => { s with closed := Function.update s.closed websocket true }
  | .listenerStops, s => { s with listening := false }

inductive SocketTask
  | connect (websocket userId : ℕ)
  | disconnect (websocket userId : ℕ)
  | localSend (message : String) (userId : ℕ)

def SocketTask.program : SocketTask → SocketProgram Unit
  | .connect websocket userId => WebSockets.connect websocket userId
  | .disconnect websocket userId => WebSockets.disconnect websocket userId
  | .localSend message userId => WebSockets.localSend message userId

def SocketTask.connects : SocketTask → Option ℕ
  | .connect _ userId => some userId
  | _ => none

def system : CooperativeSystem SocketCall SocketCall.Answer SocketError Unit SocketTask SocketEvent
    ManagerState where
  handler := ManagerState.handler
  environment := environment
  program := SocketTask.program
  awaits := SocketCall.awaited

abbrev SocketPool := Pool SocketCall SocketCall.Answer SocketError Unit SocketTask ManagerState

abbrev SocketThread := Thread SocketCall SocketCall.Answer SocketError Unit SocketTask

abbrev SocketMove := PoolMove SocketTask SocketEvent

end FastapiTemplate.WebSockets
