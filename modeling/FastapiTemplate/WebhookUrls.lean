import FastapiTemplate.WebhookOperations

/-!
# Which URLs are stored

The URLs in `webhook_endpoints` after runs of operations, and whether `validate_webhook_url` accepted
each of them in the operation that stored it. The service checks a URL before it stores it; the admin
view stores what its form holds.
-/

namespace FastapiTemplate.Webhooks

namespace WebhookDAO

variable (around : Surroundings) (t : WebhookTable)

theorem urlOf_inserted (endpointIn : WebhookEndpointCreateInternal) (secret : String)
    (headersJson : JsonText) (id : ℕ) :
    (inserted around t endpointIn secret headersJson).urlOf id =
      if id = t.nextId then some endpointIn.url else t.urlOf id := by
  rw [WebhookTable.urlOf, inserted, WebhookTable.getEndpointById_insertRow]
  split_ifs <;> rfl

theorem urlOf_updateRow (endpointId : ℕ) (updateData : WebhookEndpointUpdate)
    (headersVal : Option JsonText) (id : ℕ) :
    (updateRow around endpointId updateData headersVal t).urlOf id =
      if id = endpointId then (t.urlOf id).map updateData.url.getD else t.urlOf id := by
  rw [WebhookTable.urlOf, updateRow, WebhookTable.getEndpointById_updateRows, WebhookTable.urlOf]
  cases hrow : t.getEndpointById id with
  | none => split_ifs <;> rfl
  | some row =>
    have hid : row.id = id := by simpa using List.find?_some hrow
    simp only [Option.map_some, hid]
    split_ifs <;> rfl

theorem urlOf_deleteRows (ids : List ℕ) (id : ℕ) :
    (t.deleteRows ids).urlOf id = if id ∈ ids then none else t.urlOf id := by
  rw [WebhookTable.urlOf, WebhookTable.getEndpointById_deleteRows]
  split_ifs <;> rfl

end WebhookDAO

theorem WebhookTable.urlOf_nextId (t : WebhookTable) : t.urlOf t.nextId = none := by
  have hnone : t.getEndpointById t.nextId = none := by
    apply List.find?_eq_none.mpr
    intro r hr
    have hlt := t.drawn r hr
    simp only [decide_eq_true_eq]
    omega
  rw [urlOf, hnone, Option.map_none]

/-! ## One operation -/

section storing
variable (p : Platform)

/-- Every URL in the table after the operation stood in its row before, or has been accepted. -/
def StoresAccepted (t : WebhookTable) (s : WebhookState) : Prop :=
  ∀ id url, s.table.urlOf id = some url → t.urlOf id = some url ∨ url ∈ s.validated

def LeavesUrls (t : WebhookTable) (l : WebhookLabel) : Prop :=
  match l.2 with
  | .adminCreate currentUser data => ∀ endpointIn secret headersJson,
      WebhookEndpointAdminView.endpointIn p l.1 currentUser data = .ok endpointIn →
        ¬ WebhookDAO.Inserts p l.1 t endpointIn secret headersJson
  | .adminEdit pk data => ∀ updateData headersVal,
      WebhookEndpointAdminView.updateData p data = .ok updateData →
        WebhookDAO.Updates p updateData headersVal →
          ∀ url ∈ updateData.url, ∀ old ∈ t.urlOf pk, url = old
  | _ => True

end storing

section lemmas
variable {p : Platform} {around : Surroundings} {t : WebhookTable} {s : WebhookState}

theorem storesAccepted_of_table (h : s.table = t) : StoresAccepted t s := by
  intro id url hurl
  rw [h] at hurl
  exact .inl hurl

theorem storesAccepted_deleteRows (ids : List ℕ) (hs : s.table = t.deleteRows ids) :
    StoresAccepted t s := by
  intro id url h
  rw [hs, WebhookDAO.urlOf_deleteRows] at h
  split_ifs at h
  exact .inl h

/-- A row is inserted with an accepted URL only. -/
theorem storesAccepted_createEndpoint_iff (endpointIn : WebhookEndpointCreateInternal) :
    StoresAccepted s.table (WebhookDAO.createEndpoint p around endpointIn s).2 ↔
      (∃ secret headersJson, WebhookDAO.Inserts p around s.table endpointIn secret headersJson) →
        endpointIn.url ∈ s.validated := by
  rcases WebhookDAO.createEndpoint_cases p around endpointIn s with
    ⟨hnone, hs⟩ | ⟨secret, headersJson, hinserts, hs⟩
  · rw [hs]
    constructor
    · rintro - ⟨secret, headersJson, hinserts⟩
      exact absurd hinserts (hnone secret headersJson)
    · intro _
      exact storesAccepted_of_table rfl
  · rw [hs]
    constructor
    · intro h _
      have hnew : (WebhookDAO.inserted around s.table endpointIn secret headersJson).urlOf
          s.table.nextId = some endpointIn.url := by
        rw [WebhookDAO.urlOf_inserted, if_pos rfl]
      rcases h s.table.nextId endpointIn.url hnew with hold | haccepted
      · rw [s.table.urlOf_nextId] at hold
        cases hold
      · exact haccepted
    · intro h id url hurl
      dsimp only at hurl
      rw [WebhookDAO.urlOf_inserted] at hurl
      split_ifs at hurl with hid
      · cases hurl
        exact .inr (h ⟨secret, headersJson, hinserts⟩)
      · exact .inl hurl

/-- A row is updated with its own URL or with an accepted one. -/
theorem storesAccepted_updateEndpoint_iff (endpointId : ℕ) (updateData : WebhookEndpointUpdate) :
    StoresAccepted s.table (WebhookDAO.updateEndpoint p around endpointId updateData s).2 ↔
      ∀ headersVal, WebhookDAO.Updates p updateData headersVal →
        ∀ url ∈ updateData.url, ∀ old ∈ s.table.urlOf endpointId, url = old ∨ url ∈ s.validated := by
  rcases WebhookDAO.updateEndpoint_cases p around endpointId updateData s with
    ⟨hnone, hs⟩ | ⟨headersVal, hupdates, hs⟩
  · rw [hs]
    constructor
    · intro _ headersVal hupdates
      exact absurd hupdates (hnone headersVal)
    · intro _
      exact storesAccepted_of_table rfl
  · rw [hs]
    constructor
    · intro h _ _ url hurl old hold
      have hnew : (WebhookDAO.updateRow around endpointId updateData headersVal s.table).urlOf
          endpointId = some url := by
        rw [WebhookDAO.urlOf_updateRow, if_pos rfl, Option.mem_def.mp hold, Option.mem_def.mp hurl]
        rfl
      rcases h endpointId url hnew with hsame | haccepted
      · exact .inl (Option.some.inj (hsame.symm.trans hold))
      · exact .inr haccepted
    · intro h id url hurl
      dsimp only at hurl
      rw [WebhookDAO.urlOf_updateRow] at hurl
      split_ifs at hurl with hid
      · subst hid
        obtain ⟨old, hold, hold'⟩ := Option.map_eq_some_iff.mp hurl
        cases hdata : updateData.url with
        | none =>
          rw [hdata] at hold'
          cases hold'
          exact .inl hold
        | some new =>
          rw [hdata] at hold'
          cases hold'
          rcases h headersVal hupdates new hdata old hold with rfl | haccepted
          · exact .inl hold
          · exact .inr haccepted
      · exact .inl hurl

theorem service_createEndpoint_stores (endpointIn : WebhookEndpointCreate)
    (createdBy : Option ℕ) :
    StoresAccepted s.table (WebhookService.createEndpoint p around endpointIn createdBy s).2 := by
  rcases WebhookService.createEndpoint_cases p around endpointIn createdBy s with
    htable | ⟨internalData, hurl, hcreated⟩
  · exact storesAccepted_of_table htable
  · rw [hcreated]
    apply (storesAccepted_createEndpoint_iff (s := s.accepting endpointIn.url) internalData).mpr
    intro _
    rw [hurl]
    exact List.mem_cons_self

theorem service_updateEndpoint_stores (endpointId : ℕ) (updateIn : WebhookEndpointUpdate) :
    StoresAccepted s.table (WebhookService.updateEndpoint p around endpointId updateIn s).2 := by
  rcases WebhookService.updateEndpoint_cases p around endpointId updateIn s with
    htable | ⟨s', htable, haccepted, hupdated⟩
  · exact storesAccepted_of_table htable
  · rw [hupdated, ← htable]
    apply (storesAccepted_updateEndpoint_iff endpointId updateIn).mpr
    intro _ _ url hurl old _
    exact .inr (haccepted url hurl)

theorem service_deleteEndpoint_stores (endpointId : ℕ) :
    StoresAccepted s.table (WebhookService.deleteEndpoint endpointId s).2 := by
  rcases WebhookService.deleteEndpoint_cases endpointId s with htable | htable
  · exact storesAccepted_of_table htable
  · exact storesAccepted_deleteRows [endpointId] htable

end lemmas

/-- An operation stores accepted URLs only if it is no form of the admin view that writes one. -/
theorem step_storesAccepted_iff (p : Platform) (t : WebhookTable) (l : WebhookLabel) :
    StoresAccepted t (step p t l) ↔ LeavesUrls p t l := by
  obtain ⟨around, op⟩ := l
  cases op with
  | createEndpoint body currentUser =>
    apply iff_of_true _ trivial
    simp only [step, WebhookOperation.perform]
    split
    · exact storesAccepted_of_table rfl
    · next endpointIn _ => exact service_createEndpoint_stores endpointIn currentUser
  | updateEndpoint endpointId body =>
    apply iff_of_true _ trivial
    simp only [step, WebhookOperation.perform]
    split
    · exact storesAccepted_of_table rfl
    · next updateIn _ => exact service_updateEndpoint_stores endpointId updateIn
  | deleteEndpoint endpointId =>
    exact iff_of_true (service_deleteEndpoint_stores endpointId) trivial
  | adminDelete pks =>
    exact iff_of_true (storesAccepted_deleteRows pks (WebhookDAO.deleteEndpoints_table pks _)) trivial
  | adminCreate currentUser data =>
    simp only [step, WebhookOperation.perform, WebhookEndpointAdminView.create, LeavesUrls]
    cases hform : WebhookEndpointAdminView.endpointIn p around currentUser data with
    | error e =>
      apply iff_of_true (storesAccepted_of_table rfl)
      rintro endpointIn secret headersJson ⟨⟩
    | ok endpointIn =>
      apply (storesAccepted_createEndpoint_iff endpointIn).trans
      constructor
      · rintro h _ secret headersJson ⟨⟩ hinserts
        exact absurd (h ⟨secret, headersJson, hinserts⟩) List.not_mem_nil
      · rintro h ⟨secret, headersJson, hinserts⟩
        exact absurd hinserts (h endpointIn secret headersJson rfl)
  | adminEdit pk data =>
    simp only [step, WebhookOperation.perform, WebhookEndpointAdminView.edit, LeavesUrls]
    cases hform : WebhookEndpointAdminView.updateData p data with
    | error e =>
      apply iff_of_true (storesAccepted_of_table rfl)
      rintro updateData headersVal ⟨⟩
    | ok updateData =>
      apply (storesAccepted_updateEndpoint_iff pk updateData).trans
      constructor
      · rintro h _ headersVal ⟨⟩ hupdates url hurl old hold
        exact (h headersVal hupdates url hurl old hold).resolve_right List.not_mem_nil
      · intro h headersVal hupdates url hurl old hold
        exact .inl (h updateData headersVal rfl hupdates url hurl old hold)

/-! ## Runs -/

/-- The table, and whether the URL of a row was accepted in the operation that stored it. -/
structure TracedTable where
  table : WebhookTable
  accepted : ℕ → Bool

def TracedTable.empty (users : ℕ → Bool) : TracedTable := ⟨.empty users, fun _ => false⟩

def TracedTable.AllAccepted (x : TracedTable) : Prop :=
  ∀ id url, x.table.urlOf id = some url → x.accepted id = true

/-- A URL that stays is the one that was stored before. -/
def tracedStep (p : Platform) (x : TracedTable) (l : WebhookLabel) : TracedTable :=
  let s := step p x.table l
  { table := s.table
    accepted := fun id =>
      if s.table.urlOf id = x.table.urlOf id then x.accepted id
      else (s.table.urlOf id).all (· ∈ s.validated) }

theorem tracedStep_accepted_iff {p : Platform} {x : TracedTable} {l : WebhookLabel} {id : ℕ}
    {url : String} (hurl : (step p x.table l).table.urlOf id = some url)
    (hnew : x.table.urlOf id ≠ some url) :
    (tracedStep p x l).accepted id = true ↔ url ∈ (step p x.table l).validated := by
  have hchanged : (step p x.table l).table.urlOf id ≠ x.table.urlOf id := by
    rw [hurl]
    exact hnew.symm
  have hflag : (tracedStep p x l).accepted id =
      ((step p x.table l).table.urlOf id).all (· ∈ (step p x.table l).validated) := if_neg hchanged
  rw [hflag, hurl, Option.all_some, decide_eq_true_eq]

theorem allAccepted_step_iff {p : Platform} {x : TracedTable} {l : WebhookLabel}
    (hx : x.AllAccepted) :
    (tracedStep p x l).AllAccepted ↔ StoresAccepted x.table (step p x.table l) := by
  constructor
  · intro h id url hurl
    by_cases hold : x.table.urlOf id = some url
    · exact .inl hold
    · exact .inr ((tracedStep_accepted_iff hurl hold).mp (h id url hurl))
  · intro h id url hurl
    by_cases hold : x.table.urlOf id = some url
    · have hflag : (tracedStep p x l).accepted id = x.accepted id := if_pos (hurl.trans hold.symm)
      rw [hflag]
      exact hx id url hold
    · exact (tracedStep_accepted_iff hurl hold).mpr ((h id url hurl).resolve_left hold)

/-- In every state of a run all URLs were accepted when they were stored, exactly if no form of the
admin view has written one. -/
theorem urls_accepted_iff (p : Platform) (users : ℕ → Bool) (ls : List WebhookLabel) :
    EveryState (tracedStep p) TracedTable.AllAccepted (.empty users) ls ↔
      EveryStep (tracedStep p) (fun x l => LeavesUrls p x.table l) (.empty users) ls := by
  apply everyState_iff
  · intro id url h
    cases h
  · intro x l hx
    exact (allAccepted_step_iff hx).trans (step_storesAccepted_iff p x.table l)

def production : Platform where
  py := .plain
  surrogates := false
  env := .prod
  urlparse url := if url = "http://127.0.0.1/" then some ("http", some "127.0.0.1") else none

def loopbackForm : WebhookLabel :=
  (⟨0, "AAAAAAAAAAAAAAAAAAAAAAAAAAAAAAAA", fun _ => some 0x7f000001⟩,
    .adminCreate none
      ⟨some "http://127.0.0.1/", none, none, some (.many ["user.created"]), none, none⟩)

theorem admin_stores_loopback :
    ¬ EveryState (tracedStep production) TracedTable.AllAccepted (.empty fun _ => false)
      [loopbackForm] := by
  rintro ⟨-, h⟩
  have hstored := h 0 "http://127.0.0.1/" (by decide +kernel)
  revert hstored
  decide +kernel

end FastapiTemplate.Webhooks
