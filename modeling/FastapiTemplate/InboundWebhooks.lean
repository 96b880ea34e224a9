import FastapiTemplate.WebhookLogs

/-!
# Inbound webhooks

`handle_inbound_webhook` with its adapters, from the request that Starlette gives it to the row in
`webhook_logs`. The drawn UUID and the elapsed time are arguments, and the database accepts or
rejects a row but does not fail.
-/

namespace FastapiTemplate.Webhooks

/-- The request. For some `Host` headers `request.url` cannot be split, which is a `ValueError`. -/
structure Request where
  body : List UInt8
  headers : List (String × String)
  urlPath : Option String
  client : Option String

/-- `dict(request.headers)`, the first value of each name. -/
def Request.headersDict (request : Request) : List (String × String) :=
  (request.headers.map (·.1)).eraseDups.map (fun k => (k, (request.headers.lookup k).getD ""))

/-! ## Adapters -/

structure NormalizedWebhookEvent where
  source : String
  eventId : PyText
  eventName : PyText
  resourceId : Option PyText
  payload : JsonValue
  rawPayload : JsonValue

inductive AdapterError
  | httpException (status : ℕ) (detail : String)
  | keyError (message : String)
  | valueError (message : String)
  | typeError (message : String)
  | attributeError (name : String)
  | recursionError
  deriving DecidableEq, Repr

structure BaseWebhookAdapter where
  verifySignature : Request → Bool
  normalize : Request → JsonValue → Except AdapterError NormalizedWebhookEvent
  getSuccessResponse : List (String × String)

namespace GenericWebhookAdapter

variable (py : Python) (uuidHex : String)

/-- `payload.get(key) or ...` over the keys. -/
def firstTruthy (items : JsonDict) (keys : List String) : Option JsonValue :=
  keys.findSome? (fun key => (JsonValue.get? items key).filter JsonValue.truthy)

def eventIdOf (items : JsonDict) : JsonValue :=
  (firstTruthy items ["id", "event_id"]).getD (.str (.ofString ("gen_" ++ uuidHex)))

def eventNameOf (items : JsonDict) : JsonValue :=
  (firstTruthy items ["event", "type"]).getD (.str (.ofString "generic.event"))

def resourceIdOf (items : JsonDict) : Option JsonValue := firstTruthy items ["resource_id"]

def printed (v : JsonValue) : Except AdapterError PyText :=
  match py.strOf v with
  | some text => .ok text
  | none => .error .recursionError

def printedOption : Option JsonValue → Except AdapterError (Option PyText)
  | some v => (printed py v).map some
  | none => .ok none

def normalize : JsonValue → Except AdapterError NormalizedWebhookEvent
  | .dict items => do
    let eventId ← printed py (eventIdOf uuidHex items)
    let eventName ← printed py (eventNameOf items)
    let resourceId ← printedOption py (resourceIdOf items)
    pure ⟨"generic", eventId, eventName, resourceId, .dict items, .dict items⟩
  | _ => throw (.attributeError "get")

def adapter : BaseWebhookAdapter where
  verifySignature _ := true
  normalize _ := normalize py uuidHex
  getSuccessResponse := [("status", "received"), ("source", "generic")]

structure Printable (items : JsonDict) (name : PyText) : Prop where
  eventId : (py.strOf (eventIdOf uuidHex items)).isSome
  eventName : py.strOf (eventNameOf items) = some name
  resourceId : ∀ v ∈ resourceIdOf items, (py.strOf v).isSome

theorem printed_eq_ok_iff {v : JsonValue} {text : PyText} :
    printed py v = .ok text ↔ py.strOf v = some text := by
  unfold printed
  cases py.strOf v <;> simp

variable {uuidHex} in
theorem normalize_dict {items : JsonDict} {name : PyText} (h : Printable py uuidHex items name) :
    ∃ event, normalize py uuidHex (.dict items) = .ok event ∧ event.eventName = name := by
  obtain ⟨eventId, heventId⟩ := Option.isSome_iff_exists.mp h.eventId
  have hid := (printed_eq_ok_iff py).mpr heventId
  have hname := (printed_eq_ok_iff py).mpr h.eventName
  have hresource : ∃ resource, printedOption py (resourceIdOf items) = .ok resource := by
    cases hv : resourceIdOf items with
    | none => exact ⟨none, rfl⟩
    | some v =>
      obtain ⟨text, htext⟩ := Option.isSome_iff_exists.mp (h.resourceId v hv)
      refine ⟨some text, ?_⟩
      rw [printedOption, (printed_eq_ok_iff py).mpr htext]
      rfl
  obtain ⟨resource, hresource⟩ := hresource
  refine ⟨⟨"generic", eventId, name, resource, .dict items, .dict items⟩, ?_, rfl⟩
  simp only [normalize, hid, hname, hresource]
  rfl

theorem printed_cases (v : JsonValue) :
    printed py v = .error .recursionError ∨ ∃ text, printed py v = .ok text := by
  unfold printed
  cases py.strOf v with
  | none => exact .inl rfl
  | some text => exact .inr ⟨text, rfl⟩

theorem printedOption_cases (v : Option JsonValue) :
    printedOption py v = .error .recursionError ∨
      ∃ text, printedOption py v = .ok text ∧ ∀ w ∈ v, (py.strOf w).isSome := by
  cases v with
  | none => exact .inr ⟨none, rfl, by simp⟩
  | some v =>
    rcases printed_cases py v with h | ⟨text, h⟩
    · left
      rw [printedOption, h]
      rfl
    · right
      refine ⟨some text, by rw [printedOption, h]; rfl, ?_⟩
      rintro w ⟨⟩
      rw [(printed_eq_ok_iff py).mp h]
      rfl

/-- What can come of a payload: it is normalized, or one of two exceptions is raised. -/
theorem normalize_cases (payload : JsonValue) :
    normalize py uuidHex payload = .error (.attributeError "get") ∨
      normalize py uuidHex payload = .error .recursionError ∨
      ∃ items name event, payload = .dict items ∧ Printable py uuidHex items name ∧
        normalize py uuidHex payload = .ok event ∧ event.eventName = name := by
  cases payload with
  | dict items =>
    right
    rcases printed_cases py (eventIdOf uuidHex items) with hid | ⟨eventId, hid⟩
    · left
      simp only [normalize, hid]
      rfl
    rcases printed_cases py (eventNameOf items) with hname | ⟨name, hname⟩
    · left
      simp only [normalize, hid, hname]
      rfl
    rcases printedOption_cases py (resourceIdOf items) with hres | ⟨resource, hres, hprints⟩
    · left
      simp only [normalize, hid, hname, hres]
      rfl
    · right
      have hprintable : Printable py uuidHex items name := by
        refine ⟨?_, (printed_eq_ok_iff py).mp hname, hprints⟩
        rw [(printed_eq_ok_iff py).mp hid]
        rfl
      obtain ⟨event, hevent, hname⟩ := normalize_dict py hprintable
      exact ⟨items, name, event, rfl, hprintable, hevent, hname⟩
  | _ => exact .inl rfl

end GenericWebhookAdapter

namespace WebhookAdapterFactory

variable (py : Python) (uuidHex : String)

def registry : List (String × BaseWebhookAdapter) :=
  [("generic", GenericWebhookAdapter.adapter py uuidHex)]

def getAdapter (source : String) : BaseWebhookAdapter :=
  ((registry py uuidHex).lookup source.toLower).getD (GenericWebhookAdapter.adapter py uuidHex)

/-- There is only one adapter. -/
theorem getAdapter_eq (source : String) :
    getAdapter py uuidHex source = GenericWebhookAdapter.adapter py uuidHex := by
  unfold getAdapter registry
  rw [List.lookup_cons]
  cases source.toLower == "generic" <;> rfl

end WebhookAdapterFactory

/-! ## The route -/

structure Processed where
  eventName : PyText
  status : WebhookStatus
  statusCode : ℕ
  responseData : List (String × String)
  errorMessage : Option String

def failedEvent (source : String) (statusCode : ℕ) (err : String) : Processed :=
  ⟨.ofString (source ++ ".event"), .failed, statusCode, [("error", err)], some err⟩

def processInboundAdapter (adapter : BaseWebhookAdapter) (source : String) (request : Request)
    (payload : JsonValue) : Except AdapterError Processed :=
  if adapter.verifySignature request = false then
    .ok (failedEvent source 401 ("Invalid signature for " ++ source ++ " webhook."))
  else
    match adapter.normalize request payload with
    | .ok event => .ok ⟨event.eventName, .success, 200, adapter.getSuccessResponse, none⟩
    | .error (.httpException status detail) => .ok (failedEvent source status detail)
    | .error (.keyError message) => .ok (failedEvent source 400 message)
    | .error (.valueError message) => .ok (failedEvent source 400 message)
    | .error (.typeError message) => .ok (failedEvent source 400 message)
    | .error e => .error e

/-- How the handler is left; only an `HTTPException` is an answer. -/
inductive InboundError
  | httpException (status : ℕ) (detail : Option String)
  | adapter (e : AdapterError)
  | recursionError
  | valueError
  | validationError
  | log (e : LogError)
  deriving DecidableEq, Repr

section route
variable (py : Python) (surrogates : Bool) (uuidHex : String) (elapsedMs now : ℕ)

/-- `request.json()`, or the text of the body in its place. -/
def payloadOf (body : List UInt8) : Option JsonValue :=
  match py.loads body with
  | .ok v => some v
  | .error (.valueError _) => some (.dict (JsonValue.ofStrings [("raw", py.decodeReplacing body)]))
  | .error .recursionError => none

def responseHeaders : List (String × String) := [("content-type", "application/json")]

def logArguments (source : String) (request : Request) (path : String) (payload : JsonValue)
    (processed : Processed) : LogArguments where
  direction := .inbound
  endpointId := none
  source := source
  eventName := processed.eventName
  url := path
  status := processed.status
  statusCode := some processed.statusCode
  payload := payload
  requestHeaders := some (JsonValue.ofStrings request.headersDict)
  responseHeaders := some (JsonValue.ofStrings responseHeaders)
  responseBody := some (py.strDict processed.responseData)
  executionTimeMs := some elapsedMs
  errorMessage := processed.errorMessage
  ipAddress := request.client

def answer (processed : Processed) : Except InboundError (List (String × String)) :=
  if processed.status = .failed then
    .error (.httpException processed.statusCode processed.errorMessage)
  else .ok processed.responseData

/-- The answer, and the rows of `webhook_logs` after it. -/
def handleInboundWebhook (source : String) (request : Request) (logs : List WebhookLogData) :
    Except InboundError (List (String × String)) × List WebhookLogData :=
  match payloadOf py request.body with
  | none => (.error .recursionError, logs)
  | some payload =>
    let adapter := WebhookAdapterFactory.getAdapter py uuidHex source
    match processInboundAdapter adapter source request payload with
    | .error e => (.error (.adapter e), logs)
    | .ok processed =>
      match request.urlPath with
      | none => (.error .valueError, logs)
      | some path =>
        match (logArguments py elapsedMs source request path payload processed).validate
            surrogates with
        | none => (.error .validationError, logs)
        | some log =>
          match log.createLog py (fun _ => false) logs.length now with
          | .error e => (.error (.log e), logs)
          | .ok row => (answer processed, logs ++ [row])

end route
end FastapiTemplate.Webhooks
