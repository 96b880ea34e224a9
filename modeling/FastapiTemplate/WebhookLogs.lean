import FastapiTemplate.PythonValues

/-!
# Webhook logs

The schema `WebhookLogCreate`, and `WebhookLogDAO.create_log` over the table `webhook_logs` of
`008_api_keys_and_webhooks.sql`. Ids are numbers in the order of the rows.
-/

namespace FastapiTemplate.Webhooks

inductive WebhookDirection
  | inbound
  | outbound
  deriving DecidableEq, Repr

def WebhookDirection.value : WebhookDirection → String
  | .inbound => "INBOUND"
  | .outbound => "OUTBOUND"

inductive WebhookStatus
  | success
  | failed
  | retrying
  deriving DecidableEq, Repr

def WebhookStatus.value : WebhookStatus → String
  | .success => "SUCCESS"
  | .failed => "FAILED"
  | .retrying => "RETRYING"

/-! ## The schema -/

abbrev JsonDict := List (PyText × JsonValue)

structure LogArguments where
  direction : WebhookDirection
  endpointId : Option ℕ
  source : String
  eventName : PyText
  url : String
  status : WebhookStatus
  statusCode : Option ℤ
  payload : JsonValue
  requestHeaders : Option JsonDict
  responseHeaders : Option JsonDict
  responseBody : Option String
  executionTimeMs : Option ℤ
  errorMessage : Option String
  ipAddress : Option String

structure WebhookLogCreate where
  direction : WebhookDirection
  endpointId : Option ℕ
  source : String
  eventName : String
  url : String
  status : WebhookStatus
  statusCode : Option ℤ
  payload : JsonDict
  requestHeaders : Option JsonDict
  responseHeaders : Option JsonDict
  responseBody : Option String
  executionTimeMs : Option ℤ
  errorMessage : Option String
  ipAddress : Option String
  source_length : source.length ≤ 100
  eventName_length : eventName.length ≤ 100
  executionTimeMs_nonneg : ∀ ms ∈ executionTimeMs, 0 ≤ ms
  ipAddress_length : ∀ ip ∈ ipAddress, ip.length ≤ 45

/-- Whether the schema accepts the keys; one with a lone surrogate depends on its version. -/
def validKeys (surrogates : Bool) (items : JsonDict) : Bool :=
  items.all (fun x => surrogates || x.1.toString?.isSome)

namespace LogArguments

variable (surrogates : Bool) (a : LogArguments)

structure Bounded (eventName : String) (payload : JsonDict) : Prop where
  source : a.source.length ≤ 100
  eventName : eventName.length ≤ 100
  executionTimeMs : ∀ ms ∈ a.executionTimeMs, 0 ≤ ms
  ipAddress : ∀ ip ∈ a.ipAddress, ip.length ≤ 45
  payloadKeys : validKeys surrogates payload = true
  requestKeys : ∀ items ∈ a.requestHeaders, validKeys surrogates items = true
  responseKeys : ∀ items ∈ a.responseHeaders, validKeys surrogates items = true

instance (eventName : String) (payload : JsonDict) :
    Decidable (a.Bounded surrogates eventName payload) :=
  decidable_of_iff
    (a.source.length ≤ 100 ∧ eventName.length ≤ 100 ∧ (∀ ms ∈ a.executionTimeMs, 0 ≤ ms) ∧
      (∀ ip ∈ a.ipAddress, ip.length ≤ 45) ∧ validKeys surrogates payload = true ∧
      (∀ items ∈ a.requestHeaders, validKeys surrogates items = true) ∧
      ∀ items ∈ a.responseHeaders, validKeys surrogates items = true)
    ⟨fun ⟨h₁, h₂, h₃, h₄, h₅, h₆, h₇⟩ => ⟨h₁, h₂, h₃, h₄, h₅, h₆, h₇⟩,
      fun ⟨h₁, h₂, h₃, h₄, h₅, h₆, h₇⟩ => ⟨h₁, h₂, h₃, h₄, h₅, h₆, h₇⟩⟩

variable {surrogates a} in
def Bounded.log {eventName : String} {payload : JsonDict}
    (h : a.Bounded surrogates eventName payload) : WebhookLogCreate where
  direction := a.direction
  endpointId := a.endpointId
  source := a.source
  eventName := eventName
  url := a.url
  status := a.status
  statusCode := a.statusCode
  payload := payload
  requestHeaders := a.requestHeaders
  responseHeaders := a.responseHeaders
  responseBody := a.responseBody
  executionTimeMs := a.executionTimeMs
  errorMessage := a.errorMessage
  ipAddress := a.ipAddress
  source_length := h.source
  eventName_length := h.eventName
  executionTimeMs_nonneg := h.executionTimeMs
  ipAddress_length := h.ipAddress

/-- `WebhookLogCreate(...)`, which raises a `ValidationError` in the other cases. -/
def validate : Option WebhookLogCreate :=
  match a.eventName.toString?, a.payload with
  | some eventName, .dict payload =>
    if h : a.Bounded surrogates eventName payload then some h.log else none
  | _, _ => none

theorem validate_eq_some_iff {log : WebhookLogCreate} :
    a.validate surrogates = some log ↔
      ∃ eventName payload, a.eventName.toString? = some eventName ∧ a.payload = .dict payload ∧
        ∃ h : a.Bounded surrogates eventName payload, h.log = log := by
  unfold validate
  constructor
  · intro h
    split at h
    · next eventName payload hevent hpayload =>
      split_ifs at h with hbounded
      exact ⟨eventName, payload, hevent, hpayload, hbounded, Option.some.inj h⟩
    · cases h
  · rintro ⟨eventName, payload, hevent, hpayload, hbounded, rfl⟩
    rw [hevent, hpayload]
    exact dif_pos hbounded

end LogArguments

/-! ## The table -/

structure WebhookLogData where
  id : ℕ
  direction : String
  endpointId : Option ℕ
  source : String
  eventName : String
  url : String
  status : String
  statusCode : Option ℤ
  payload : Jsonb
  requestHeaders : Option Jsonb
  responseHeaders : Option Jsonb
  responseBody : Option String
  executionTimeMs : Option ℤ
  errorMessage : Option String
  ipAddress : Option String
  createdAt : ℕ

def jsonbStringLimit : ℕ := 268435455

def fitsJsonb (t : JsonText) : Bool := t.text.utf8ByteSize ≤ jsonbStringLimit

def fitsInteger (n : ℤ) : Bool := -2147483648 ≤ n && n ≤ 2147483647

inductive LogError
  | recursionError
  | database
  deriving DecidableEq, Repr

/-- `response_body[:2048]`, and nothing in place of an empty text. -/
def truncated (body : Option String) : Option String :=
  (body.filter (· ≠ "")).map (fun s => String.ofList (s.toList.take 2048))

namespace WebhookLogCreate

variable (py : Python) (endpoints : ℕ → Bool) (log : WebhookLogCreate)

/-- What the columns and the foreign key of the table accept; JSON texts have their own limit. -/
def accepted : Bool :=
  PyValue.noNulIn log.source && PyValue.noNulIn log.eventName && PyValue.noNulIn log.url &&
    log.statusCode.all fitsInteger && (truncated log.responseBody).all PyValue.noNulIn &&
    log.executionTimeMs.all fitsInteger && log.errorMessage.all PyValue.noNulIn &&
    log.ipAddress.all PyValue.noNulIn && log.endpointId.all endpoints

def row (id now : ℕ) (payload : JsonText) (requestHeaders responseHeaders : Option JsonText) :
    WebhookLogData where
  id := id
  direction := log.direction.value
  endpointId := log.endpointId
  source := log.source
  eventName := log.eventName
  url := log.url
  status := log.status.value
  statusCode := log.statusCode
  payload := payload.stored
  requestHeaders := requestHeaders.map JsonText.stored
  responseHeaders := responseHeaders.map JsonText.stored
  responseBody := truncated log.responseBody
  executionTimeMs := log.executionTimeMs
  errorMessage := log.errorMessage
  ipAddress := log.ipAddress
  createdAt := now

def dumpsDict (items : JsonDict) : Except LogError JsonText :=
  match py.dumps (.dict items) with
  | some text => .ok text
  | none => .error .recursionError

def dumpsOption : Option JsonDict → Except LogError (Option JsonText)
  | none => .ok none
  | some items => (dumpsDict py items).map some

def createLog (id now : ℕ) : Except LogError WebhookLogData := do
  let payloadJson ← dumpsDict py log.payload
  let reqHeadersJson ← dumpsOption py log.requestHeaders
  let resHeadersJson ← dumpsOption py log.responseHeaders
  if log.accepted endpoints ∧ fitsJsonb payloadJson ∧ reqHeadersJson.all fitsJsonb ∧
      resHeadersJson.all fitsJsonb then
    pure (log.row id now payloadJson reqHeadersJson resHeadersJson)
  else throw .database

variable {py endpoints log}

theorem dumpsDict_eq_ok_iff {items : JsonDict} {text : JsonText} :
    dumpsDict py items = .ok text ↔ py.dumps (.dict items) = some text := by
  unfold dumpsDict
  cases py.dumps (.dict items) <;> simp

theorem dumpsOption_some {items : JsonDict} {text : Option JsonText} :
    dumpsOption py (some items) = .ok text ↔
      ∃ t, py.dumps (.dict items) = some t ∧ some t = text := by
  rw [dumpsOption]
  constructor
  · intro h
    cases hdict : dumpsDict py items with
    | error e =>
      rw [hdict] at h
      cases h
    | ok t =>
      rw [hdict] at h
      exact ⟨t, dumpsDict_eq_ok_iff.mp hdict, Except.ok.inj h⟩
  · rintro ⟨t, ht, rfl⟩
    rw [dumpsDict_eq_ok_iff.mpr ht]
    rfl

theorem createLog_eq_ok_iff {id now : ℕ} {row : WebhookLogData} :
    log.createLog py endpoints id now = .ok row ↔
      ∃ payload, dumpsDict py log.payload = .ok payload ∧
        ∃ request, dumpsOption py log.requestHeaders = .ok request ∧
          ∃ response, dumpsOption py log.responseHeaders = .ok response ∧
            (log.accepted endpoints ∧ fitsJsonb payload ∧ request.all fitsJsonb ∧
              response.all fitsJsonb) ∧
            log.row id now payload request response = row := by
  unfold createLog
  simp only [except_bind_eq_ok_iff]
  apply exists_congr
  intro payload
  apply and_congr_right
  intro _
  apply exists_congr
  intro request
  apply and_congr_right
  intro _
  apply exists_congr
  intro response
  apply and_congr_right
  intro _
  split_ifs with haccepted
  · constructor
    · intro h
      exact ⟨haccepted, Except.ok.inj h⟩
    · rintro ⟨-, rfl⟩
      rfl
  · constructor
    · rintro ⟨⟩
    · rintro ⟨h, -⟩
      exact absurd h haccepted

theorem createLog_row {id now : ℕ} {row : WebhookLogData}
    (h : log.createLog py endpoints id now = .ok row) :
    row.direction = log.direction.value ∧ row.status = log.status.value ∧
      row.endpointId = log.endpointId := by
  obtain ⟨payload, -, request, -, response, -, -, rfl⟩ := createLog_eq_ok_iff.mp h
  exact ⟨rfl, rfl, rfl⟩

end WebhookLogCreate
end FastapiTemplate.Webhooks
