import FastapiTemplate.MigrationFiles
import FastapiTemplate.WebhookLogs

/-!
# Webhook endpoints

The table `webhook_endpoints` with its schemas, and the operations on it: those of `WebhookService`
over `WebhookDAO`, and those of the admin view. Ids and times are numbers, and one database answers
reads and writes. The URLs that `validate_webhook_url` accepts are recorded.
-/

namespace FastapiTemplate.Webhooks

open Migrations (splitLines)

inductive WebhookEvents
  | userCreated
  | userUpdated
  | userDeleted
  deriving DecidableEq, Repr

def WebhookEvents.value : WebhookEvents → String
  | .userCreated => "user.created"
  | .userUpdated => "user.updated"
  | .userDeleted => "user.deleted"

def WebhookEvents.values : List String :=
  [userCreated.value, userUpdated.value, userDeleted.value]

inductive Environments
  | dev
  | staging
  | prod
  | test
  deriving DecidableEq, Repr

/-- What stays the same while the application runs: the library, whether pydantic accepts texts with
lone surrogates, `settings.ENV`, and `urlparse` with the scheme and the host name of a URL. -/
structure Platform where
  py : Python
  surrogates : Bool
  env : Environments
  urlparse : String → Option (String × Option String)

/-- What one operation meets: the time, the token it draws and the answers of `gethostbyname`. -/
structure Surroundings where
  now : ℕ
  token : String
  gethostbyname : String → Option UInt32

inductive WebhookError
  | httpException (status : ℕ) (detail : String)
  | validationError
  | valueError
  | recursionError
  | database
  deriving DecidableEq, Repr

/-! ## Schemas -/

abbrev HeaderMap := List (PyText × PyText)

def HeaderMap.json (headers : HeaderMap) : JsonValue :=
  .dict (headers.map (fun x => (x.1, .str x.2)))

def validHeaders (surrogates : Bool) (headers : HeaderMap) : Bool :=
  headers.all (fun x => surrogates || x.1.toString?.isSome && x.2.toString?.isSome)

def emptySecretToNone (v : Option String) : Option String := v.filter (fun s => Sql.strip s ≠ "")

structure EndpointArguments where
  url : String
  description : Option String
  eventTypes : List String
  headers : HeaderMap
  secret : Option String

structure WebhookEndpointCreate where
  url : String
  description : Option String
  eventTypes : List String
  headers : HeaderMap
  secret : Option String
  url_length : 7 ≤ url.length ∧ url.length ≤ 2048
  description_length : ∀ d ∈ description, d.length ≤ 255
  eventTypes_valid : ∀ e ∈ eventTypes, e ∈ WebhookEvents.values
  secret_length : ∀ s ∈ secret, 16 ≤ s.length ∧ s.length ≤ 64

structure WebhookEndpointCreateInternal extends WebhookEndpointCreate where
  createdBy : Option ℕ

/-- `list(set(v))`, up to its order. -/
def EndpointArguments.create (surrogates : Bool) (a : EndpointArguments) :
    Option WebhookEndpointCreate :=
  if h : (7 ≤ a.url.length ∧ a.url.length ≤ 2048) ∧ (∀ d ∈ a.description, d.length ≤ 255) ∧
      (a.eventTypes ≠ [] ∧ ∀ e ∈ a.eventTypes.dedup, e ∈ WebhookEvents.values) ∧
      (∀ s ∈ emptySecretToNone a.secret, 16 ≤ s.length ∧ s.length ≤ 64) ∧
      validHeaders surrogates a.headers = true then
    some ⟨a.url, a.description, a.eventTypes.dedup, a.headers, emptySecretToNone a.secret, h.1, h.2.1,
      h.2.2.1.2, h.2.2.2.1⟩
  else none

def EndpointArguments.createInternal (surrogates : Bool) (a : EndpointArguments)
    (createdBy : Option ℕ) : Option WebhookEndpointCreateInternal :=
  (a.create surrogates).map (fun c => ⟨c, createdBy⟩)

structure UpdateArguments where
  url : Option String
  description : Option String
  eventTypes : Option (List String)
  headers : Option HeaderMap
  secret : Option String
  isActive : Option Bool

structure WebhookEndpointUpdate where
  url : Option String
  description : Option String
  eventTypes : Option (List String)
  headers : Option HeaderMap
  secret : Option String
  isActive : Option Bool
  url_length : ∀ u ∈ url, 7 ≤ u.length ∧ u.length ≤ 2048
  description_length : ∀ d ∈ description, d.length ≤ 255
  eventTypes_valid : ∀ v ∈ eventTypes, ∀ e ∈ v, e ∈ WebhookEvents.values
  secret_length : ∀ s ∈ secret, 16 ≤ s.length ∧ s.length ≤ 64

def UpdateArguments.update (surrogates : Bool) (a : UpdateArguments) :
    Option WebhookEndpointUpdate :=
  if h : (∀ u ∈ a.url, 7 ≤ u.length ∧ u.length ≤ 2048) ∧ (∀ d ∈ a.description, d.length ≤ 255) ∧
      (∀ v ∈ a.eventTypes.map List.dedup, ∀ e ∈ v, e ∈ WebhookEvents.values) ∧
      (∀ s ∈ emptySecretToNone a.secret, 16 ≤ s.length ∧ s.length ≤ 64) ∧
      a.eventTypes ≠ some [] ∧ (a.headers.all (validHeaders surrogates)) = true then
    some ⟨a.url, a.description, a.eventTypes.map List.dedup, a.headers, emptySecretToNone a.secret,
      a.isActive, h.1, h.2.1, h.2.2.1, h.2.2.2.1⟩
  else none

/-! ## The table -/

structure WebhookEndpointData where
  id : ℕ
  createdBy : Option ℕ
  url : String
  secret : String
  description : Option String
  eventTypes : List String
  headers : Jsonb
  isActive : Bool
  createdAt : ℕ
  updatedAt : ℕ

/-- The rows under the primary key, with the id of the next one, and the ids of the users. -/
structure WebhookTable where
  users : ℕ → Bool
  nextId : ℕ
  endpoints : List WebhookEndpointData
  drawn : ∀ row ∈ endpoints, row.id < nextId
  idsApart : (endpoints.map (·.id)).Nodup

namespace WebhookTable

variable (t : WebhookTable)

def empty (users : ℕ → Bool) : WebhookTable := ⟨users, 0, [], by simp, by simp⟩

def insertRow (row : WebhookEndpointData) (hid : row.id = t.nextId) : WebhookTable where
  users := t.users
  nextId := t.nextId + 1
  endpoints := t.endpoints ++ [row]
  drawn := by
    intro r hr
    rcases List.mem_append.mp hr with hold | hnew
    · exact Nat.lt_succ_of_lt (t.drawn r hold)
    · rw [List.mem_singleton.mp hnew, hid]
      exact Nat.lt_succ_self _
  idsApart := by
    rw [List.map_append]
    apply List.nodup_append.mpr
    refine ⟨t.idsApart, by simp, ?_⟩
    intro id hid' id' hnew heq
    obtain ⟨r, hr, rfl⟩ := List.mem_map.mp hid'
    rw [List.map_singleton, List.mem_singleton, hid] at hnew
    exact absurd (t.drawn r hr) (by omega)

def updateRows (f : WebhookEndpointData → WebhookEndpointData) (hf : ∀ row, (f row).id = row.id) :
    WebhookTable where
  users := t.users
  nextId := t.nextId
  endpoints := t.endpoints.map f
  drawn := by
    intro r hr
    obtain ⟨row, hrow, rfl⟩ := List.mem_map.mp hr
    rw [hf]
    exact t.drawn row hrow
  idsApart := by
    have hids : (t.endpoints.map f).map (·.id) = t.endpoints.map (·.id) := by
      rw [List.map_map]
      exact List.map_congr_left (fun row _ => hf row)
    rw [hids]
    exact t.idsApart

def deleteRows (ids : List ℕ) : WebhookTable where
  users := t.users
  nextId := t.nextId
  endpoints := t.endpoints.filter (fun row => row.id ∉ ids)
  drawn := fun r hr => t.drawn r (List.mem_filter.mp hr).1
  idsApart := t.idsApart.sublist (List.filter_sublist.map _)

def getEndpointById (id : ℕ) : Option WebhookEndpointData := t.endpoints.find? (·.id = id)

end WebhookTable

/-- The table, and the URLs that `validate_webhook_url` has accepted in the current operation. -/
structure WebhookState where
  table : WebhookTable
  validated : List String

abbrev Outcome (α : Type) := Except WebhookError α × WebhookState

/-! ## The check of URLs -/

def ipv4 (a b c d : ℕ) : ℕ := ((a * 256 + b) * 256 + c) * 256 + d

def inNetwork (ip : UInt32) (network : ℕ × ℕ) : Bool :=
  ip.toNat / 2 ^ (32 - network.2) = network.1 / 2 ^ (32 - network.2)

def privateNetworks : List (ℕ × ℕ) :=
  [(ipv4 0 0 0 0, 8), (ipv4 10 0 0 0, 8), (ipv4 127 0 0 0, 8), (ipv4 169 254 0 0, 16),
    (ipv4 172 16 0 0, 12), (ipv4 192 0 0 0, 24), (ipv4 192 0 0 170, 31), (ipv4 192 0 2 0, 24),
    (ipv4 192 168 0 0, 16), (ipv4 198 18 0 0, 15), (ipv4 198 51 100 0, 24), (ipv4 203 0 113 0, 24),
    (ipv4 240 0 0 0, 4), (ipv4 255 255 255 255, 32)]

def privateExceptions : List (ℕ × ℕ) := [(ipv4 192 0 0 9, 32), (ipv4 192 0 0 10, 32)]

def isPrivate (ip : UInt32) : Bool :=
  privateNetworks.any (inNetwork ip) && !privateExceptions.any (inNetwork ip)

def isLoopback (ip : UInt32) : Bool := inNetwork ip (ipv4 127 0 0 0, 8)

def isLinkLocal (ip : UInt32) : Bool := inNetwork ip (ipv4 169 254 0 0, 16)

def isReserved (ip : UInt32) : Bool := inNetwork ip (ipv4 240 0 0 0, 4)

def isUnspecified (ip : UInt32) : Bool := ip = 0

section operations
variable (p : Platform) (around : Surroundings)

def badRequest (detail : String) : WebhookError := .httpException 400 detail

def validateWebhookUrl (url : String) : Except WebhookError Unit :=
  match p.urlparse url with
  | none => .error .valueError
  | some (scheme, hostname) =>
    if scheme ≠ "http" ∧ scheme ≠ "https" then
      .error (badRequest "Webhook URL must use HTTP or HTTPS scheme.")
    else if p.env = .dev ∨ p.env = .test then .ok ()
    else
      match hostname.filter (· ≠ "") with
      | none => .error (badRequest "Invalid hostname in webhook URL.")
      | some hostname =>
        match around.gethostbyname hostname with
        | none => .error (badRequest "Could not resolve webhook hostname.")
        | some ip =>
          if isPrivate ip || isLoopback ip || isLinkLocal ip || isReserved ip || isUnspecified ip then
            .error
              (badRequest "Webhook URL points to a forbidden private or local network address.")
          else .ok ()

def WebhookState.accepting (s : WebhookState) (url : String) : WebhookState :=
  { s with validated := url :: s.validated }

/-! ## The data access object -/

namespace WebhookDAO

def newRow (t : WebhookTable) (endpointIn : WebhookEndpointCreateInternal) (secret : String)
    (headersJson : JsonText) : WebhookEndpointData :=
  ⟨t.nextId, endpointIn.createdBy, endpointIn.url, secret, endpointIn.description,
    endpointIn.eventTypes, headersJson.stored, true, around.now, around.now⟩

theorem newRow_id (t : WebhookTable) (endpointIn : WebhookEndpointCreateInternal) (secret : String)
    (headersJson : JsonText) : (newRow around t endpointIn secret headersJson).id = t.nextId := rfl

def insertable (t : WebhookTable) (row : WebhookEndpointData) (headersJson : JsonText) : Bool :=
  PyValue.noNulIn row.url && PyValue.noNulIn row.secret && row.description.all PyValue.noNulIn &&
    row.createdBy.all t.users && fitsJsonb headersJson

def createEndpoint (endpointIn : WebhookEndpointCreateInternal) (s : WebhookState) :
    Outcome WebhookEndpointData :=
  match p.py.dumps endpointIn.headers.json, endpointIn.secret with
  | none, _ => (.error .recursionError, s)
  | some _, none => (.error .database, s)
  | some headersJson, some secret =>
    let row := newRow around s.table endpointIn secret headersJson
    if insertable s.table row headersJson then
      let hid := newRow_id around s.table endpointIn secret headersJson
      (.ok row, { s with table := s.table.insertRow row hid })
    else (.error .database, s)

def changed (updateData : WebhookEndpointUpdate) (headersVal : Option JsonText)
    (row : WebhookEndpointData) : WebhookEndpointData :=
  { row with
    url := updateData.url.getD row.url
    description := updateData.description.or row.description
    eventTypes := updateData.eventTypes.getD row.eventTypes
    headers := (headersVal.map JsonText.stored).getD row.headers
    secret := updateData.secret.getD row.secret
    isActive := updateData.isActive.getD row.isActive
    updatedAt := around.now }

def updatable (updateData : WebhookEndpointUpdate) (headersVal : Option JsonText) : Bool :=
  updateData.url.all PyValue.noNulIn && updateData.description.all PyValue.noNulIn &&
    updateData.secret.all PyValue.noNulIn && headersVal.all fitsJsonb

def headersParam : Option HeaderMap → Option (Option JsonText)
  | none => some none
  | some headers => (p.py.dumps headers.json).map some

def updateRow (endpointId : ℕ) (updateData : WebhookEndpointUpdate) (headersVal : Option JsonText)
    (t : WebhookTable) : WebhookTable :=
  t.updateRows
    (fun row => if row.id = endpointId then changed around updateData headersVal row else row)
    (fun row => by split_ifs <;> rfl)

def updateEndpoint (endpointId : ℕ) (updateData : WebhookEndpointUpdate) (s : WebhookState) :
    Outcome (Option WebhookEndpointData) :=
  match headersParam p updateData.headers with
  | none => (.error .recursionError, s)
  | some headersVal =>
    if updatable updateData headersVal then
      let table := updateRow around endpointId updateData headersVal s.table
      (.ok (table.getEndpointById endpointId), { s with table := table })
    else (.error .database, s)

def deleteEndpoint (endpointId : ℕ) (s : WebhookState) : Outcome Bool :=
  (.ok (s.table.getEndpointById endpointId).isSome,
    { s with table := s.table.deleteRows [endpointId] })

def deleteEndpoints (endpointIds : List ℕ) (s : WebhookState) : Outcome ℕ :=
  if endpointIds = [] then (.ok 0, s)
  else
    (.ok (s.table.endpoints.filter (·.id ∈ endpointIds)).length,
      { s with table := s.table.deleteRows endpointIds })

/-- In the order of `created_at`. -/
def listActiveEndpointsForEvent (t : WebhookTable) (eventName : String) :
    List WebhookEndpointData :=
  (t.endpoints.filter (fun row => row.isActive && eventName ∈ row.eventTypes)).mergeSort
    (fun a b => a.createdAt ≤ b.createdAt)

end WebhookDAO

/-! ## The service -/

namespace WebhookService

def notFound (endpointId : ℕ) : WebhookError :=
  .httpException 404 ("Webhook endpoint '" ++ toString endpointId ++ "' not found.")

def generatedSecret : String := "whsec_" ++ around.token

def createEndpoint (endpointIn : WebhookEndpointCreate) (createdBy : Option ℕ) (s : WebhookState) :
    Outcome WebhookEndpointData :=
  match validateWebhookUrl p around endpointIn.url with
  | .error e => (.error e, s)
  | .ok () =>
    let s := s.accepting endpointIn.url
    let secret := (endpointIn.secret.filter (· ≠ "")).getD (generatedSecret around)
    let arguments : EndpointArguments :=
      ⟨endpointIn.url, endpointIn.description, endpointIn.eventTypes, endpointIn.headers, some secret⟩
    match arguments.createInternal p.surrogates createdBy with
    | none => (.error .validationError, s)
    | some internalData => WebhookDAO.createEndpoint p around internalData s

def getEndpoint (endpointId : ℕ) (s : WebhookState) : Outcome WebhookEndpointData :=
  match s.table.getEndpointById endpointId with
  | none => (.error (notFound endpointId), s)
  | some endpoint => (.ok endpoint, s)

def checkUrl (url : Option String) (s : WebhookState) : Outcome Unit :=
  match url.filter (· ≠ "") with
  | none => (.ok (), s)
  | some url =>
    match validateWebhookUrl p around url with
    | .error e => (.error e, s)
    | .ok () => (.ok (), s.accepting url)

def updateEndpoint (endpointId : ℕ) (updateIn : WebhookEndpointUpdate) (s : WebhookState) :
    Outcome WebhookEndpointData :=
  match checkUrl p around updateIn.url s with
  | (.error e, s) => (.error e, s)
  | (.ok (), s) =>
    match getEndpoint endpointId s with
    | (.error e, s) => (.error e, s)
    | (.ok _, s) =>
      match WebhookDAO.updateEndpoint p around endpointId updateIn s with
      | (.error e, s) => (.error e, s)
      | (.ok none, s) => (.error (notFound endpointId), s)
      | (.ok (some updated), s) => (.ok updated, s)

def deleteEndpoint (endpointId : ℕ) (s : WebhookState) : Outcome Unit :=
  match getEndpoint endpointId s with
  | (.error e, s) => (.error e, s)
  | (.ok _, s) =>
    match WebhookDAO.deleteEndpoint endpointId s with
    | (.error e, s) => (.error e, s)
    | (.ok false, s) =>
      (.error (.httpException 404
        ("Failed to delete webhook endpoint '" ++ toString endpointId ++ "'.")), s)
    | (.ok true, s) => (.ok (), s)

end WebhookService
end operations
end FastapiTemplate.Webhooks
