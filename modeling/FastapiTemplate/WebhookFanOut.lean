import FastapiTemplate.WebhookDelivery

/-!
# The fan-out of an event

All orders in which the deliveries of one event take their turns, over the tables that the
operations on webhook endpoints leave. The headers of an endpoint are dumped once by the DAO and once
more by the codec of the column, so every row holds them as a JSON string.
-/

namespace FastapiTemplate.Webhooks

/-! ## The task -/

structure DeliveryState where
  table : WebhookTable
  logs : List WebhookLogData
  posts : List PostRequest

abbrev Network := List PostRequest → PostRequest → PostAnswer

section task
variable (p : Platform) (hexHmac : String → String → String) (d : Dispatch) (network : Network)
  (now : ℕ)

def DeliveryState.handler : (c : DeliveryCall) → DeliveryState → c.Answer × DeliveryState
  | .post request, s => (network s.posts request, { s with posts := s.posts ++ [request] })
  | .createLog log, s =>
    match log.createLog p.py (fun id => (s.table.getEndpointById id).isSome) s.logs.length now with
    | .error e => (.error e, s)
    | .ok row => (.ok row, { s with logs := s.logs ++ [row] })

abbrev DeliveryTag := WebhookEndpointData × JsonText

abbrev DeliveryPool := Pool DeliveryCall DeliveryCall.Answer DeliveryError Unit DeliveryTag DeliveryState

def deliveries : PoolSystem DeliveryCall DeliveryCall.Answer DeliveryError Unit DeliveryTag Empty
    DeliveryState where
  handler := DeliveryState.handler p network now
  environment e _ := e.elim
  program x := deliverToEndpoint p hexHmac d x.1 x.2

/-- The deliveries as `asyncio.gather` starts them; a payload that cannot be dumped starts none. -/
def sendWebhookEvent (s : DeliveryState) : DeliveryPool :=
  match WebhookDAO.listActiveEndpointsForEvent s.table d.eventName with
  | [] => ⟨s, []⟩
  | endpoints =>
    match p.py.dumpsCompact d.payload with
    | none => ⟨s, []⟩
    | some body =>
      ⟨s, endpoints.map (fun endpoint => (deliveries p hexHmac d network now).fresh (endpoint, body))⟩

def takeTurns (turns : List ℕ) (q : DeliveryPool) : DeliveryPool :=
  run (deliveries p hexHmac d network now).step q (turns.map .advance)

end task

/-! ## Completeness -/

def Completed (q : DeliveryPool) : Prop := ∀ th ∈ q.threads, th.nextCall = none

def attempts (endpointId : ℕ) (q : DeliveryPool) : ℕ :=
  ((q.threads.filter (·.tag.1.id = endpointId)).flatMap Thread.trace).countP (fun c => c.1.isPost)

def logRows (endpointId : ℕ) (logs : List WebhookLogData) : ℕ :=
  logs.countP (·.endpointId = some endpointId)

/-- In whatever order the deliveries run, each active endpoint that is subscribed to the event gets
one POST and one row of the log. -/
def FanOutComplete (p : Platform) (hexHmac : String → String → String) (d : Dispatch)
    (network : Network) (now : ℕ) (s : DeliveryState) : Prop :=
  ∀ turns, Completed (takeTurns p hexHmac d network now turns
      (sendWebhookEvent p hexHmac d network now s)) →
    ∀ endpoint ∈ WebhookDAO.listActiveEndpointsForEvent s.table d.eventName,
      let q := takeTurns p hexHmac d network now turns (sendWebhookEvent p hexHmac d network now s)
      attempts endpoint.id q = 1 ∧
        logRows endpoint.id q.state.logs = logRows endpoint.id s.logs + 1

/-! ## The stored headers -/

def TextHeaders (t : WebhookTable) : Prop :=
  ∀ row ∈ t.endpoints, ∃ text : JsonText, row.headers = text.stored

section headers
variable {p : Platform} {around : Surroundings} {t : WebhookTable} {s : WebhookState}

theorem textHeaders_empty (users : ℕ → Bool) : TextHeaders (.empty users) := by
  rintro row ⟨⟩

theorem textHeaders_createEndpoint (h : TextHeaders s.table)
    (endpointIn : WebhookEndpointCreateInternal) :
    TextHeaders (WebhookDAO.createEndpoint p around endpointIn s).2.table := by
  rcases WebhookDAO.createEndpoint_cases p around endpointIn s with
    ⟨-, hs⟩ | ⟨secret, headersJson, -, hs⟩
  · rw [hs]
    exact h
  · rw [hs]
    intro row hrow
    rcases List.mem_append.mp hrow with hold | hnew
    · exact h row hold
    · rw [List.mem_singleton.mp hnew]
      exact ⟨headersJson, rfl⟩

theorem textHeaders_updateEndpoint (h : TextHeaders s.table) (endpointId : ℕ)
    (updateData : WebhookEndpointUpdate) :
    TextHeaders (WebhookDAO.updateEndpoint p around endpointId updateData s).2.table := by
  rcases WebhookDAO.updateEndpoint_cases p around endpointId updateData s with
    ⟨-, hs⟩ | ⟨headersVal, -, hs⟩
  · rw [hs]
    exact h
  · rw [hs]
    intro row hrow
    obtain ⟨old, hold, rfl⟩ := List.mem_map.mp hrow
    split_ifs
    · cases headersVal with
      | none => exact h old hold
      | some text => exact ⟨text, rfl⟩
    · exact h old hold

theorem textHeaders_deleteRows (h : TextHeaders t) (ids : List ℕ) :
    TextHeaders (t.deleteRows ids) := fun row hrow => h row (List.mem_filter.mp hrow).1

theorem textHeaders_step (h : TextHeaders t) (l : WebhookLabel) : TextHeaders (tableStep p t l) := by
  obtain ⟨around, op⟩ := l
  unfold tableStep step
  cases op with
  | createEndpoint body currentUser =>
    simp only [WebhookOperation.perform]
    split
    · exact h
    · next endpointIn _ =>
      rcases WebhookService.createEndpoint_cases p around endpointIn currentUser ⟨t, []⟩ with
        htable | ⟨internalData, -, hcreated⟩
      · rw [htable]
        exact h
      · rw [hcreated]
        exact textHeaders_createEndpoint (s := WebhookState.accepting ⟨t, []⟩ endpointIn.url) h _
  | updateEndpoint endpointId body =>
    simp only [WebhookOperation.perform]
    split
    · exact h
    · next updateIn _ =>
      rcases WebhookService.updateEndpoint_cases p around endpointId updateIn ⟨t, []⟩ with
        htable | ⟨s', htable, -, hupdated⟩
      · rw [htable]
        exact h
      · rw [hupdated]
        apply textHeaders_updateEndpoint
        rw [htable]
        exact h
  | deleteEndpoint endpointId =>
    rcases WebhookService.deleteEndpoint_cases endpointId ⟨t, []⟩ with htable | htable
    · exact htable ▸ h
    · exact htable ▸ textHeaders_deleteRows h [endpointId]
  | adminCreate currentUser data =>
    simp only [WebhookOperation.perform, WebhookEndpointAdminView.create]
    split
    · exact h
    · next endpointIn _ => exact textHeaders_createEndpoint (s := ⟨t, []⟩) h endpointIn
  | adminEdit pk data =>
    simp only [WebhookOperation.perform, WebhookEndpointAdminView.edit]
    split
    · exact h
    · next updateData _ => exact textHeaders_updateEndpoint (s := ⟨t, []⟩) h pk updateData
  | adminDelete pks =>
    have htable := WebhookDAO.deleteEndpoints_table pks ⟨t, []⟩
    exact htable ▸ textHeaders_deleteRows h pks

theorem textHeaders_run (h : TextHeaders t) (ls : List WebhookLabel) :
    TextHeaders (run (tableStep p) t ls) := by
  induction ls generalizing t with
  | nil => exact h
  | cons l ls ih => exact ih (textHeaders_step h l)

/-- A stored text is read as a text that is not empty. -/
theorem storedHeaders_text {endpoint : WebhookEndpointData} {text : JsonText}
    (h : endpoint.headers = text.stored) :
    storedHeaders endpoint = .str (.ofString text.text) ∧ PyText.ofString text.text ≠ [] := by
  constructor
  · rw [storedHeaders, h, JsonText.stored, Jsonb.decode_eq]
    rfl
  · intro hnil
    apply text.nonempty
    have hlist : text.text.toList = [] := List.map_eq_nil_iff.mp hnil
    rw [← String.ofList_toList (s := text.text), hlist]

end headers

/-! ## The deliveries -/

section fanOut
variable {p : Platform} {hexHmac : String → String → String} {d : Dispatch} {network : Network}
  {now : ℕ} {s : DeliveryState}

theorem mem_listActive {t : WebhookTable} {eventName : String} {endpoint : WebhookEndpointData}
    (h : endpoint ∈ WebhookDAO.listActiveEndpointsForEvent t eventName) :
    endpoint ∈ t.endpoints :=
  (List.mem_filter.mp ((List.mergeSort_perm _ _).mem_iff.mp h)).1

/-- Every delivery has raised before its first call. -/
theorem sendWebhookEvent_thread (h : TextHeaders s.table) :
    ∀ th ∈ (sendWebhookEvent p hexHmac d network now s).threads,
      th.trace = [] ∧ th.rest = .raise .valueError := by
  intro th hth
  unfold sendWebhookEvent at hth
  split at hth
  · cases hth
  · split at hth
    · cases hth
    · obtain ⟨endpoint, hendpoint, rfl⟩ := List.mem_map.mp hth
      obtain ⟨text, htext⟩ := h endpoint (mem_listActive hendpoint)
      obtain ⟨hstored, hne⟩ := storedHeaders_text htext
      exact ⟨rfl, deliverToEndpoint_str p hexHmac d hstored hne _⟩

theorem attempts_eq_zero {q : DeliveryPool} (h : ∀ th ∈ q.threads, th.trace = [])
    (endpointId : ℕ) : attempts endpointId q = 0 := by
  have hnone : (q.threads.filter (·.tag.1.id = endpointId)).flatMap Thread.trace = [] := by
    apply List.flatMap_eq_nil_iff.mpr
    intro th hth
    exact h th (List.mem_filter.mp hth).1
  rw [attempts, hnone, List.countP_nil]

/-- While the headers are stored as texts, the fan-out is complete only if there is nothing to do. -/
theorem TextHeaders.fanOutComplete_iff (h : TextHeaders s.table) :
    FanOutComplete p hexHmac d network now s ↔
      WebhookDAO.listActiveEndpointsForEvent s.table d.eventName = [] := by
  have hthreads : ∀ th ∈ (sendWebhookEvent p hexHmac d network now s).threads,
      th.trace = [] ∧ th.rest = .raise .valueError := sendWebhookEvent_thread h
  constructor
  · intro hcomplete
    apply List.eq_nil_iff_forall_not_mem.mpr
    intro endpoint hendpoint
    have hdone : Completed (sendWebhookEvent p hexHmac d network now s) := by
      intro th hth
      rw [Thread.nextCall, (hthreads th hth).2]
    have hone := (hcomplete [] hdone endpoint hendpoint).1
    have hzero := attempts_eq_zero (fun th hth => (hthreads th hth).1) endpoint.id
    exact absurd (hzero.symm.trans hone) (by decide)
  · intro hnone turns _ endpoint hendpoint
    rw [hnone] at hendpoint
    cases hendpoint

end fanOut

/-- After every run of operations the fan-out of an event is complete exactly if no active endpoint
is subscribed to it. -/
theorem fanOut_complete_iff (p : Platform) (hexHmac : String → String → String)
    (users : ℕ → Bool) (ls : List WebhookLabel) (logs : List WebhookLogData)
    (posts : List PostRequest) (d : Dispatch) (network : Network) (now : ℕ) :
    FanOutComplete p hexHmac d network now ⟨run (tableStep p) (.empty users) ls, logs, posts⟩ ↔
      WebhookDAO.listActiveEndpointsForEvent (run (tableStep p) (.empty users) ls) d.eventName =
        [] :=
  TextHeaders.fanOutComplete_iff (textHeaders_run (textHeaders_empty users) ls)

def helloEndpoint : WebhookLabel :=
  (⟨0, "AAAAAAAAAAAAAAAAAAAAAAAAAAAAAAAA", fun _ => none⟩,
    .createEndpoint ⟨"http://example.com/hook", none, ["user.created"], [], none⟩ none)

def development : Platform where
  py := .plain
  surrogates := false
  env := .dev
  urlparse _ := some ("http", some "example.com")

theorem helloEndpoint_not_delivered :
    ¬ FanOutComplete development (fun _ _ => "") ⟨"user.created", .dict [], "1", "0"⟩
      (fun _ _ => ⟨.ok ⟨200, [], ""⟩, 0⟩) 0
      ⟨run (tableStep development) (.empty fun _ => false) [helloEndpoint], [], []⟩ := by
  intro h
  have htext := textHeaders_run (p := development) (textHeaders_empty fun _ => false) [helloEndpoint]
  have hnone := congrArg List.length (htext.fanOutComplete_iff.mp h)
  rw [WebhookDAO.listActiveEndpointsForEvent, List.length_mergeSort] at hnone
  revert hnone
  decide +kernel

end FastapiTemplate.Webhooks
