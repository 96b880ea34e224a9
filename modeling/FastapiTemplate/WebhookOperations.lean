import FastapiTemplate.TransitionRuns
import FastapiTemplate.WebhookEndpoints

/-!
# Operations on webhook endpoints

The admin view with `parse_headers`, and the runs of operations of the service and of the admin
view, each in surroundings of its own. `Effect` says what an operation can do to the table.
-/

namespace FastapiTemplate.Webhooks

open Migrations (splitLines)

/-! ## Headers from a form -/

inductive FormHeaders
  | null
  | text (s : String)
  | dict (items : JsonDict)
  | other

def splitOnce (sep : Char) (line : String) : Option (String × String) :=
  match line.toList.dropWhile (· ≠ sep) with
  | [] => none
  | _ :: rest => some (String.ofList (line.toList.takeWhile (· ≠ sep)), String.ofList rest)

def parseHeaderLine (line : String) : Option (String × String) :=
  let line := Sql.strip line
  if line = "" ∨ line.toList.head? = some '#' then none
  else
    let parts := (splitOnce ':' line).or (splitOnce '=' line)
    parts.map (fun x => (Sql.strip x.1, Sql.strip x.2))

def parseHeaderLines (text : String) : HeaderMap :=
  let lines := (splitLines [] text.toList).filterMap parseHeaderLine
  (lines.foldl setItem []).map (fun x => (PyText.ofString x.1, PyText.ofString x.2))

def printItems (py : Python) (items : JsonDict) : Option HeaderMap :=
  items.mapM (fun x => (py.strOf x.2).map (fun text => (x.1, text)))

/-- The headers, unless a value is nested too deeply. -/
def parseHeaders (py : Python) : FormHeaders → Option HeaderMap
  | .null => some []
  | .other => some []
  | .dict items => printItems py items
  | .text raw =>
    let text := Sql.strip raw
    if text = "" ∨ text = "\x7b\x7d" then some []
    else
      match py.loadsText text with
      | .ok (.dict parsed) => printItems py parsed
      | .error .recursionError => none
      | _ => some (parseHeaderLines text)

/-! ## The admin view -/

inductive FormEvents
  | one (event : String)
  | many (events : List String)

def FormEvents.list : FormEvents → List String
  | .one event => [event]
  | .many events => events

/-- The data of a form; a field that is missing or `None` is `none`. -/
structure AdminForm where
  url : Option String
  secret : Option String
  description : Option String
  eventTypes : Option FormEvents
  headers : Option FormHeaders
  isActive : Option Bool

namespace WebhookEndpointAdminView

section view
variable (p : Platform) (around : Surroundings)

def endpointIn (currentUser : Option ℕ) (data : AdminForm) :
    Except WebhookError WebhookEndpointCreateInternal :=
  let secret := (data.secret.filter (fun s => Sql.strip s ≠ "")).getD
    (WebhookService.generatedSecret around)
  let eventTypes := match data.eventTypes with
    | none => []
    | some (.one event) => if event = "" then [] else [event]
    | some (.many events) => events
  match parseHeaders p.py (data.headers.getD .null), data.url with
  | none, _ => .error .recursionError
  | some _, none => .error .validationError
  | some headers, some url =>
    let arguments : EndpointArguments := ⟨url, data.description, eventTypes, headers, some secret⟩
    match arguments.createInternal p.surrogates currentUser with
    | none => .error .validationError
    | some endpointIn => .ok endpointIn

def create (currentUser : Option ℕ) (data : AdminForm) (s : WebhookState) :
    Outcome WebhookEndpointData :=
  match endpointIn p around currentUser data with
  | .error e => (.error e, s)
  | .ok endpointIn => WebhookDAO.createEndpoint p around endpointIn s

def updateHeaders (headers : Option FormHeaders) : Option (Option HeaderMap) :=
  match headers with
  | none => some none
  | some raw => (parseHeaders p.py raw).map some

def updateData (data : AdminForm) : Except WebhookError WebhookEndpointUpdate :=
  let secret := data.secret.filter (fun s => Sql.strip s ≠ "")
  match updateHeaders p data.headers with
  | none => .error .recursionError
  | some headers =>
    let arguments : UpdateArguments := ⟨data.url, data.description,
      data.eventTypes.map FormEvents.list, headers, secret, data.isActive⟩
    match arguments.update p.surrogates with
    | none => .error .validationError
    | some updateData => .ok updateData

def edit (pk : ℕ) (data : AdminForm) (s : WebhookState) : Outcome (Option WebhookEndpointData) :=
  match updateData p data with
  | .error e => (.error e, s)
  | .ok updateData => WebhookDAO.updateEndpoint p around pk updateData s

def delete (pks : List ℕ) (s : WebhookState) : Outcome ℕ := WebhookDAO.deleteEndpoints pks s

end view
end WebhookEndpointAdminView

/-! ## Runs of operations -/

/-- A request to a route, with its body, or a form or an action of the admin view. -/
inductive WebhookOperation
  | createEndpoint (body : EndpointArguments) (currentUser : Option ℕ)
  | updateEndpoint (endpointId : ℕ) (body : UpdateArguments)
  | deleteEndpoint (endpointId : ℕ)
  | adminCreate (currentUser : Option ℕ) (data : AdminForm)
  | adminEdit (pk : ℕ) (data : AdminForm)
  | adminDelete (pks : List ℕ)

section run
variable (p : Platform)

/-- The state after the operation, in which no URL has been accepted yet. -/
def WebhookOperation.perform (around : Surroundings) (s : WebhookState) :
    WebhookOperation → WebhookState
  | .createEndpoint body currentUser =>
    match body.create p.surrogates with
    | none => s
    | some endpointIn => (WebhookService.createEndpoint p around endpointIn currentUser s).2
  | .updateEndpoint endpointId body =>
    match body.update p.surrogates with
    | none => s
    | some updateIn => (WebhookService.updateEndpoint p around endpointId updateIn s).2
  | .deleteEndpoint endpointId => (WebhookService.deleteEndpoint endpointId s).2
  | .adminCreate currentUser data => (WebhookEndpointAdminView.create p around currentUser data s).2
  | .adminEdit pk data => (WebhookEndpointAdminView.edit p around pk data s).2
  | .adminDelete pks => (WebhookEndpointAdminView.delete pks s).2

abbrev WebhookLabel := Surroundings × WebhookOperation

def step (t : WebhookTable) (l : WebhookLabel) : WebhookState := l.2.perform p l.1 ⟨t, []⟩

def tableStep (t : WebhookTable) (l : WebhookLabel) : WebhookTable := (step p t l).table

end run

/-! ## What the statements do -/

namespace WebhookDAO

section effects
variable (p : Platform) (around : Surroundings)

def Inserts (t : WebhookTable) (endpointIn : WebhookEndpointCreateInternal) (secret : String)
    (headersJson : JsonText) : Prop :=
  p.py.dumps endpointIn.headers.json = some headersJson ∧ endpointIn.secret = some secret ∧
    insertable t (newRow around t endpointIn secret headersJson) headersJson = true

def Updates (updateData : WebhookEndpointUpdate) (headersVal : Option JsonText) : Prop :=
  headersParam p updateData.headers = some headersVal ∧ updatable updateData headersVal = true

def inserted (t : WebhookTable) (endpointIn : WebhookEndpointCreateInternal) (secret : String)
    (headersJson : JsonText) : WebhookTable :=
  t.insertRow (newRow around t endpointIn secret headersJson)
    (newRow_id around t endpointIn secret headersJson)

theorem createEndpoint_cases (endpointIn : WebhookEndpointCreateInternal) (s : WebhookState) :
    ((∀ secret headersJson, ¬ Inserts p around s.table endpointIn secret headersJson) ∧
        (createEndpoint p around endpointIn s).2 = s) ∨
      ∃ secret headersJson, Inserts p around s.table endpointIn secret headersJson ∧
        (createEndpoint p around endpointIn s).2 =
          { s with table := inserted around s.table endpointIn secret headersJson } := by
  unfold createEndpoint
  cases hdumps : p.py.dumps endpointIn.headers.json with
  | none =>
    refine .inl ⟨?_, rfl⟩
    rintro secret headersJson ⟨h, -⟩
    rw [hdumps] at h
    cases h
  | some headersJson =>
    cases hsecret : endpointIn.secret with
    | none =>
      refine .inl ⟨?_, rfl⟩
      rintro secret headersJson ⟨-, h, -⟩
      rw [hsecret] at h
      cases h
    | some secret =>
      dsimp only
      split_ifs with haccepted
      · exact .inr ⟨secret, headersJson, ⟨hdumps, hsecret, haccepted⟩, rfl⟩
      · refine .inl ⟨?_, rfl⟩
        rintro secret' headersJson' ⟨h, h', haccepted'⟩
        rw [hdumps] at h
        rw [hsecret] at h'
        cases h
        cases h'
        exact haccepted haccepted'

theorem updateEndpoint_cases (endpointId : ℕ) (updateData : WebhookEndpointUpdate)
    (s : WebhookState) :
    ((∀ headersVal, ¬ Updates p updateData headersVal) ∧
        (updateEndpoint p around endpointId updateData s).2 = s) ∨
      ∃ headersVal, Updates p updateData headersVal ∧
        (updateEndpoint p around endpointId updateData s).2 =
          { s with table := updateRow around endpointId updateData headersVal s.table } := by
  unfold updateEndpoint
  cases hheaders : headersParam p updateData.headers with
  | none =>
    refine .inl ⟨?_, rfl⟩
    rintro headersVal ⟨h, -⟩
    rw [hheaders] at h
    cases h
  | some headersVal =>
    dsimp only
    split_ifs with haccepted
    · exact .inr ⟨headersVal, ⟨hheaders, haccepted⟩, rfl⟩
    · refine .inl ⟨?_, rfl⟩
      rintro headersVal' ⟨h, haccepted'⟩
      rw [hheaders] at h
      cases h
      exact haccepted haccepted'

theorem deleteEndpoints_table (endpointIds : List ℕ) (s : WebhookState) :
    (deleteEndpoints endpointIds s).2.table = s.table.deleteRows endpointIds := by
  unfold deleteEndpoints
  split_ifs with hempty
  · subst hempty
    simp [WebhookTable.deleteRows]
  · rfl

end effects
end WebhookDAO

/-! ## What the service does -/

theorem createInternal_url {surrogates : Bool} {a : EndpointArguments} {createdBy : Option ℕ}
    {c : WebhookEndpointCreateInternal} (h : a.createInternal surrogates createdBy = some c) :
    c.url = a.url := by
  obtain ⟨endpointIn, hcreate, rfl⟩ := Option.map_eq_some_iff.mp h
  unfold EndpointArguments.create at hcreate
  split_ifs at hcreate
  cases hcreate
  rfl

namespace WebhookService

section cases
variable (p : Platform) (around : Surroundings)

theorem createEndpoint_cases (endpointIn : WebhookEndpointCreate) (createdBy : Option ℕ)
    (s : WebhookState) :
    (createEndpoint p around endpointIn createdBy s).2.table = s.table ∨
      ∃ internalData : WebhookEndpointCreateInternal, internalData.url = endpointIn.url ∧
        (createEndpoint p around endpointIn createdBy s).2 =
          (WebhookDAO.createEndpoint p around internalData (s.accepting endpointIn.url)).2 := by
  unfold createEndpoint
  split
  · exact .inl rfl
  · dsimp only
    split
    · exact .inl rfl
    · next internalData hinternal =>
      have hurl : internalData.url = endpointIn.url := createInternal_url hinternal
      exact .inr ⟨internalData, hurl, rfl⟩

theorem checkUrl_cases (url : Option String) (s : WebhookState) :
    (∃ e, checkUrl p around url s = (.error e, s)) ∨
      ∃ s', checkUrl p around url s = (.ok (), s') ∧ s'.table = s.table ∧
        ∀ u ∈ url, u ≠ "" → u ∈ s'.validated := by
  unfold checkUrl
  cases hurl : url.filter (· ≠ "") with
  | none =>
    refine .inr ⟨s, rfl, rfl, ?_⟩
    rintro u hu hne
    have hsome : url.filter (· ≠ "") = some u := by
      rw [Option.mem_def.mp hu]
      simp [Option.filter, hne]
    rw [hurl] at hsome
    cases hsome
  | some u =>
    dsimp only
    cases validateWebhookUrl p around u with
    | error e => exact .inl ⟨e, rfl⟩
    | ok v =>
      refine .inr ⟨s.accepting u, rfl, rfl, ?_⟩
      intro u' hu' _
      rw [Option.mem_def.mp hu', Option.filter] at hurl
      split_ifs at hurl
      cases hurl
      exact List.mem_cons_self

theorem updateEndpoint_cases (endpointId : ℕ) (updateIn : WebhookEndpointUpdate)
    (s : WebhookState) :
    (updateEndpoint p around endpointId updateIn s).2.table = s.table ∨
      ∃ s', s'.table = s.table ∧ (∀ url ∈ updateIn.url, url ∈ s'.validated) ∧
        (updateEndpoint p around endpointId updateIn s).2 =
          (WebhookDAO.updateEndpoint p around endpointId updateIn s').2 := by
  unfold updateEndpoint
  rcases checkUrl_cases p around updateIn.url s with
    ⟨e, hcheck⟩ | ⟨s', hcheck, htable, haccepted⟩
  · rw [hcheck]
    exact .inl rfl
  · simp only [hcheck, getEndpoint]
    cases s'.table.getEndpointById endpointId with
    | none => exact .inl htable
    | some endpoint =>
      refine .inr ⟨s', htable, ?_, ?_⟩
      · intro url hurl
        apply haccepted url hurl
        rintro rfl
        exact absurd (updateIn.url_length "" hurl).1 (by decide)
      · dsimp only
        rcases WebhookDAO.updateEndpoint p around endpointId updateIn s' with
          ⟨e | _ | updated, s''⟩ <;> rfl

theorem deleteEndpoint_cases (endpointId : ℕ) (s : WebhookState) :
    (deleteEndpoint endpointId s).2.table = s.table ∨
      (deleteEndpoint endpointId s).2.table = s.table.deleteRows [endpointId] := by
  unfold deleteEndpoint getEndpoint WebhookDAO.deleteEndpoint
  cases hrow : s.table.getEndpointById endpointId with
  | none => exact .inl rfl
  | some endpoint =>
    right
    simp only [hrow, Option.isSome_some]

end cases
end WebhookService

/-! ## Stored URLs -/

namespace WebhookTable

variable (t : WebhookTable)

def urlOf (id : ℕ) : Option String := (t.getEndpointById id).map (·.url)

theorem getEndpointById_insertRow (row : WebhookEndpointData) (hid : row.id = t.nextId) (id : ℕ) :
    (t.insertRow row hid).getEndpointById id =
      if id = t.nextId then some row else t.getEndpointById id := by
  have hnew : [row].find? (·.id = id) = if id = t.nextId then some row else none := by
    simp [List.find?_singleton, hid, eq_comm]
  simp only [getEndpointById, insertRow, List.find?_append, hnew]
  split_ifs with h
  · have hnone : t.endpoints.find? (·.id = id) = none := by
      apply List.find?_eq_none.mpr
      intro r hr
      have hlt := t.drawn r hr
      simp only [decide_eq_true_eq]
      omega
    rw [hnone, Option.none_or]
  · rw [Option.or_none]

theorem getEndpointById_updateRows (f : WebhookEndpointData → WebhookEndpointData)
    (hf : ∀ row, (f row).id = row.id) (id : ℕ) :
    (t.updateRows f hf).getEndpointById id = (t.getEndpointById id).map f := by
  simp only [getEndpointById, updateRows, List.find?_map]
  congr 2
  funext row
  simp only [Function.comp_apply, hf]

theorem getEndpointById_deleteRows (ids : List ℕ) (id : ℕ) :
    (t.deleteRows ids).getEndpointById id = if id ∈ ids then none else t.getEndpointById id := by
  simp only [getEndpointById, deleteRows, List.find?_filter]
  split_ifs with h
  · apply List.find?_eq_none.mpr
    intro r _
    simp only [decide_eq_true_eq, not_and]
    rintro hr rfl
    exact hr h
  · congr 1
    funext r
    by_cases hr : r.id = id
    · simp [hr, h]
    · simp [hr]

end WebhookTable
end FastapiTemplate.Webhooks
