import FastapiTemplate.AuthData
import FastapiTemplate.CallProgram
import FastapiTemplate.ExpiringStore
import Mathlib

/-!
# Idempotent routes

`IdempotencyManager` and `IdempotentRoute` of `api/core/idempotency.py` as programs
over Redis commands and one call for the wrapped handler. Header names are lower
case, as the server hands them over; a JSON text stands for the data it encodes.
-/

namespace FastapiTemplate.Idempotency

def idempotencyTtl : ℕ := 60 * 60 * 24

def idempotencyLockTtl : ℕ := 60

structure HttpRequest where
  method : String
  path : String
  headers : List (String × String)
  deriving DecidableEq, Repr

/-- The content of a response: bytes in `body`, or chunks that are read while sending. -/
inductive Content
  | body (bytes : ByteArray)
  | stream (chunks : List ByteArray)
  deriving DecidableEq

structure HttpResponse where
  statusCode : ℕ
  headers : List (String × String)
  content : Content
  mediaType : Option String
  deriving DecidableEq

structure Sent where
  statusCode : ℕ
  headers : List (String × String)
  bytes : ByteArray
  deriving DecidableEq

def Content.bytes : Content → ByteArray
  | .body bytes => bytes
  | .stream chunks => chunks.foldl (· ++ ·) .empty

def HttpResponse.sent (r : HttpResponse) : Sent := ⟨r.statusCode, r.headers, r.content.bytes⟩

inductive RouteError
  | httpException (statusCode : ℕ) (detail : String)
  | unicodeDecodeError
  deriving DecidableEq, Repr

/-- How a run of the wrapped handler ends: it returns, or raises an exception that the framework
turns into a response of that status. -/
inductive Outcome
  | response (r : HttpResponse)
  | httpException (statusCode : ℕ) (detail : String)
  deriving DecidableEq

def Outcome.statusCode : Outcome → ℕ
  | .response r => r.statusCode
  | .httpException statusCode _ => statusCode

structure CachedResponse where
  statusCode : ℕ
  headers : List (String × String)
  content : String
  mediaType : Option String
  deriving DecidableEq

/-- The Redis entries of the layer, by the part of their names after the prefix. -/
structure Store where
  /-- `idempotency:lock:{key}`; the value is always `"in-progress"` -/
  locks : ExpiringStore String Unit
  /-- `idempotency:response:{key}` -/
  responses : ExpiringStore String CachedResponse
  clock : ℕ

inductive Call
  /-- `GET idempotency:response:{key}` -/
  | getResponse (key : String)
  /-- `SET idempotency:response:{key} data EX 86400` -/
  | setResponse (key : String) (data : CachedResponse)
  /-- `SET idempotency:lock:{key} in-progress EX 60 NX` -/
  | setLockNx (key : String)
  /-- `DEL idempotency:lock:{key}` -/
  | deleteLock (key : String)
  /-- the wrapped handler runs, for any time, and ends in this way -/
  | handle (outcome : Outcome)
  deriving DecidableEq

@[reducible] def Call.Answer : Call → Type
  | .getResponse _ => Option CachedResponse
  | .setResponse .. => Unit
  | .setLockNx _ => Bool
  | .deleteLock _ => Unit
  | .handle _ => Unit

instance (c : Call) : DecidableEq c.Answer := by
  cases c <;> exact inferInstance

namespace Store

variable (s : Store)

def setResponse (key : String) (data : CachedResponse) : Store :=
  { s with responses := s.responses.set key data (some (s.clock + idempotencyTtl * second)) }

def setLock (key : String) : Store :=
  { s with locks := s.locks.set key () (some (s.clock + idempotencyLockTtl * second)) }

def deleteLock (key : String) : Store := { s with locks := s.locks.delete key }

def advance (d : ℕ) : Store := { s with clock := s.clock + d }

def locked (key : String) : Bool := (s.locks.get s.clock key).isSome

def response (key : String) : Option CachedResponse := s.responses.get s.clock key

end Store

def handler : (c : Call) → Store → c.Answer × Store
  | .getResponse key, s => (s.response key, s)
  | .setResponse key data, s => ((), s.setResponse key data)
  | .setLockNx key, s => if s.locked key then (false, s) else (true, s.setLock key)
  | .deleteLock key, s => ((), s.deleteLock key)
  | .handle _, s => ((), s)

abbrev RouteProgram (α : Type) := Program Call Call.Answer RouteError α

abbrev ask (c : Call) : RouteProgram c.Answer := Program.perform c

/-- The constructor of Starlette's `Response`. -/
class Starlette where
  /-- the headers it adds to those it is given -/
  populate : (statusCode : ℕ) → (mediaType : Option String) → (body : ByteArray) →
    (headers : List (String × String)) → List (String × String)

/-- The documented behaviour: a missing `content-length` and a missing `content-type` are added. -/
@[reducible] def Starlette.plain : Starlette where
  populate statusCode mediaType body headers :=
    (if headers.any (·.1 = "content-length") ∨ statusCode < 200 ∨ statusCode = 204 ∨
        statusCode = 304 then [] else [("content-length", toString body.size)]) ++
      match mediaType with
      | none => []
      | some type =>
        if headers.any (·.1 = "content-type") then []
        else if "text/".isPrefixOf type ∧ ¬ "charset=".toList <:+: type.toLower.toList then
          [("content-type", type ++ "; charset=utf-8")]
        else [("content-type", type)]

/-! ## The manager -/

namespace IdempotencyManager

/-- `request.headers.get("Idempotency-Key")`: the first value. -/
def getKey (request : HttpRequest) : Option String :=
  (request.headers.find? (·.1 = "idempotency-key")).map (·.2)

def acquireLock (key : String) : RouteProgram Bool :=
  ask (.setLockNx key)

def releaseLock (key : String) : RouteProgram Unit := ask (.deleteLock key)

def rebuild [Starlette] (data : CachedResponse) : HttpResponse where
  statusCode := data.statusCode
  headers := data.headers ++
    Starlette.populate data.statusCode data.mediaType data.content.toUTF8 data.headers
  content := .body data.content.toUTF8
  mediaType := data.mediaType

def getCachedResponse [Starlette] (key : String) : RouteProgram (Option HttpResponse) := do
  match ← ask (.getResponse key) with
  | some data => pure (some (rebuild data))
  | none => pure none

/-- `dict(headers)`: each name once, with its first value. -/
def headerDict : List (String × String) → List (String × String)
  | [] => []
  | h :: headers => h :: (headerDict headers).filter (·.1 ≠ h.1)

/-- `content_bytes.decode("utf-8")`; a response without `body` counts as empty. -/
def decodeContent : Content → Option String
  | .body bytes => String.fromUTF8? bytes
  | .stream _ => some ""

def cachedData (r : HttpResponse) : Option CachedResponse :=
  (decodeContent r.content).map
    (fun content => ⟨r.statusCode, headerDict r.headers, content, r.mediaType⟩)

def cacheResponse (key : String) (response : HttpResponse) : RouteProgram Unit :=
  match cachedData response with
  | none => .raise .unicodeDecodeError
  | some data => ask (.setResponse key data)

end IdempotencyManager

/-! ## The route -/

/-- A request to the route, with the way the handler ends should it run for it. -/
structure Attempt where
  request : HttpRequest
  outcome : Outcome
  deriving DecidableEq

def Attempt.key (a : Attempt) : Option String :=
  match IdempotencyManager.getKey a.request with
  | none => none
  | some rawKey =>
    if rawKey = "" then none
    else some (a.request.method ++ ":" ++ a.request.path ++ ":" ++ rawKey)

def originalRouteHandler (outcome : Outcome) : RouteProgram HttpResponse := do
  ask (.handle outcome)
  match outcome with
  | .response r => pure r
  | .httpException statusCode detail => .raise (.httpException statusCode detail)

def inProgressError : RouteError :=
  .httpException 409 "A request with this Idempotency-Key is currently being processed."

/-- The body of the `try` statement. -/
def processRequest (key : String) (outcome : Outcome) : RouteProgram HttpResponse := do
  let response ← originalRouteHandler outcome
  if 200 ≤ response.statusCode ∧ response.statusCode < 500 then
    IdempotencyManager.cacheResponse key response
    pure response
  else pure response

def customRouteHandler [Starlette] (a : Attempt) : RouteProgram HttpResponse :=
  match a.key with
  | none => originalRouteHandler a.outcome
  | some key => do
    match ← IdempotencyManager.getCachedResponse key with
    | some response => pure response
    | none =>
      let lockAcquired ← IdempotencyManager.acquireLock key
      if ¬ lockAcquired then .raise inProgressError
      else (processRequest key a.outcome).tryFinally (IdempotencyManager.releaseLock key)

end FastapiTemplate.Idempotency
