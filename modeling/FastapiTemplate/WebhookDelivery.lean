import FastapiTemplate.ProgramPool
import FastapiTemplate.WebhookOperations

/-!
# Outbound deliveries

`send_webhook_event`: one delivery for each active endpoint that is subscribed to the event, all of
them at once under `asyncio.gather` with `return_exceptions=True`. A delivery makes a POST and then
writes a row of `webhook_logs`. The network answers each POST in any way that may depend on all
earlier ones.
-/

namespace FastapiTemplate.Webhooks

structure PostRequest where
  url : String
  content : JsonText
  headers : JsonDict

structure PostResponse where
  statusCode : ℕ
  headers : List (String × String)
  text : String

inductive PostError
  | transport (message : String)
  | other

structure PostAnswer where
  result : Except PostError PostResponse
  elapsedMs : ℕ

inductive DeliveryCall
  | post (request : PostRequest)
  | createLog (log : WebhookLogCreate)

@[reducible] def DeliveryCall.Answer : DeliveryCall → Type
  | .post _ => PostAnswer
  | .createLog _ => Except LogError WebhookLogData

def DeliveryCall.isPost : DeliveryCall → Bool
  | .post _ => true
  | .createLog _ => false

inductive DeliveryError
  | valueError
  | typeError
  | post
  | validationError
  | log (e : LogError)
  deriving DecidableEq, Repr

abbrev DeliveryProgram (α : Type) := Program DeliveryCall DeliveryCall.Answer DeliveryError α

def DeliveryCall.ask (c : DeliveryCall) : DeliveryProgram c.Answer := Program.perform c

/-! ## Headers -/

/-- One element of a sequence that a dictionary is updated with. A key that is no text is refused
by the client later. -/
def updatePair (headers : JsonDict) : JsonValue → Except DeliveryError JsonDict
  | .list [.str k, v] => .ok (setItem headers (k, v))
  | .str [a, b] => .ok (setItem headers ([a], .str [b]))
  | .dict [(a, _), (b, _)] => .ok (setItem headers (a, .str b))
  | .list [_, _] => .error .typeError
  | .list _ => .error .valueError
  | .str _ => .error .valueError
  | .dict _ => .error .valueError
  | _ => .error .typeError

def sequenceOf : JsonValue → Except DeliveryError (List JsonValue)
  | .list items => .ok items
  | .str s => .ok (s.map (fun u => .str [u]))
  | _ => .error .typeError

def updateHeaders (headers : JsonDict) (v : JsonValue) : Except DeliveryError JsonDict :=
  if v.truthy then
    match v with
    | .dict items => .ok (items.foldl setItem headers)
    | v => do
      let elements ← sequenceOf v
      elements.foldlM updatePair headers
  else .ok headers

/-- A text has elements of one character, which are no pairs. -/
theorem updateHeaders_str (headers : JsonDict) {s : PyText} (hs : s ≠ []) :
    updateHeaders headers (.str s) = .error .valueError := by
  obtain ⟨u, us, rfl⟩ := List.exists_cons_of_ne_nil hs
  rfl

theorem updateHeaders_dict (headers items : JsonDict) :
    updateHeaders headers (.dict items) = .ok (items.foldl setItem headers) := by
  cases items <;> rfl

/-! ## One delivery -/

/-- What one run of the task has: the event, and the time of its signature. -/
structure Dispatch where
  eventName : String
  payload : JsonValue
  eventId : String
  timestamp : String

section delivery
variable (p : Platform) (hexHmac : String → String → String) (d : Dispatch)

def generateWebhookSignature (secret timestamp : String) (payload : JsonText) : String :=
  hexHmac secret (timestamp ++ "." ++ payload.text)

def deliveryHeaders (secret : String) (body : JsonText) : JsonDict :=
  let signature := generateWebhookSignature hexHmac secret d.timestamp body
  JsonValue.ofStrings
    [("Content-Type", "application/json"),
      ("User-Agent", "FastAPI-Template-Webhook/1.0"),
      ("X-Webhook-ID", d.eventId),
      ("X-Webhook-Event", d.eventName),
      ("X-Webhook-Timestamp", d.timestamp),
      ("X-Webhook-Signature", "t=" ++ d.timestamp ++ ",v1=" ++ signature)]

structure Attempt where
  status : WebhookStatus
  statusCode : Option ℤ
  responseHeaders : Option JsonDict
  responseBody : Option String
  errorMessage : Option String

def PostResponse.attempt (response : PostResponse) : Attempt :=
  let isSuccess := 200 ≤ response.statusCode ∧ response.statusCode ≤ 299
  { status := if isSuccess then .success else .failed
    statusCode := some response.statusCode
    responseHeaders := some (JsonValue.ofStrings response.headers)
    responseBody := some response.text
    errorMessage := if isSuccess then none
      else some ("Received non-2xx status code: " ++ toString response.statusCode) }

/-- The attempt, unless an exception leaves the `try` statement. -/
def PostAnswer.attempt (answer : PostAnswer) : Except DeliveryError Attempt :=
  match answer.result with
  | .ok response => .ok response.attempt
  | .error (.transport message) => .ok ⟨.failed, none, none, none, some message⟩
  | .error .other => .error .post

def attemptArguments (endpoint : WebhookEndpointData) (headers : JsonDict) (elapsedMs : ℕ)
    (a : Attempt) : LogArguments where
  direction := .outbound
  endpointId := some endpoint.id
  source := "system"
  eventName := .ofString d.eventName
  url := endpoint.url
  status := a.status
  statusCode := a.statusCode
  payload := d.payload
  requestHeaders := some headers
  responseHeaders := a.responseHeaders
  responseBody := a.responseBody
  executionTimeMs := some elapsedMs
  errorMessage := a.errorMessage
  ipAddress := none

def recordAttempt (endpoint : WebhookEndpointData) (headers : JsonDict) (answer : PostAnswer) :
    DeliveryProgram Unit := do
  let a ← Program.ofExcept answer.attempt
  match (attemptArguments d endpoint headers answer.elapsedMs a).validate p.surrogates with
  | none => Program.raise .validationError
  | some log =>
    match ← (DeliveryCall.createLog log).ask with
    | .error e => Program.raise (.log e)
    | .ok _ => pure ()

def storedHeaders (endpoint : WebhookEndpointData) : JsonValue :=
  .ofPy (endpoint.headers.decode.getD .null)

def deliverToEndpoint (endpoint : WebhookEndpointData) (body : JsonText) : DeliveryProgram Unit := do
  let headers ← Program.ofExcept
    (updateHeaders (deliveryHeaders hexHmac d endpoint.secret body) (storedHeaders endpoint))
  let answer ← (DeliveryCall.post ⟨endpoint.url, body, headers⟩).ask
  recordAttempt p d endpoint headers answer

/-- The headers of an endpoint that are stored as an object override those of the task. -/
theorem deliverToEndpoint_dict {endpoint : WebhookEndpointData} {items : JsonDict}
    (h : storedHeaders endpoint = .dict items) (body : JsonText) :
    deliverToEndpoint p hexHmac d endpoint body =
      let headers := items.foldl setItem (deliveryHeaders hexHmac d endpoint.secret body)
      Program.call (DeliveryCall.post ⟨endpoint.url, body, headers⟩)
        (recordAttempt p d endpoint headers) := by
  rw [deliverToEndpoint, h, updateHeaders_dict]
  rfl

/-- Headers that are stored as a text stop the delivery before the POST. -/
theorem deliverToEndpoint_str {endpoint : WebhookEndpointData} {s : PyText}
    (h : storedHeaders endpoint = .str s) (hs : s ≠ []) (body : JsonText) :
    deliverToEndpoint p hexHmac d endpoint body = Program.raise .valueError := by
  rw [deliverToEndpoint, h, updateHeaders_str _ hs]
  rfl

end delivery
end FastapiTemplate.Webhooks
