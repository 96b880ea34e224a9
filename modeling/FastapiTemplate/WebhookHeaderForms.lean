import FastapiTemplate.WebhookOperations

/-!
# The headers of an endpoint in its form

Headers are stored as a JSON string, and the form of the admin view shows this text as it is. An
unchanged submission reads the map from the text and stores it again. The form may change the line
endings of a text.
-/

namespace FastapiTemplate.PyValue

/-! ## Texts with an indent -/

def newline (depth : ℕ) : List Char := '\n' :: List.replicate (2 * depth) ' '

mutual

def indentedText (depth : ℕ) : PyValue → List Char
  | .list (v :: vs) =>
    '[' :: newline (depth + 1) ++ indentedText (depth + 1) v ++ indentedElements depth vs
  | .dict ((k, v) :: items) =>
    '{' :: newline (depth + 1) ++ stringText true k ++ ':' :: ' ' :: indentedText (depth + 1) v ++
      indentedItems depth items
  | v => v.text true

def indentedElements (depth : ℕ) : List PyValue → List Char
  | [] => newline depth ++ [']']
  | v :: vs =>
    ',' :: newline (depth + 1) ++ indentedText (depth + 1) v ++ indentedElements depth vs

def indentedItems (depth : ℕ) : List (String × PyValue) → List Char
  | [] => newline depth ++ ['}']
  | (k, v) :: items =>
    ',' :: newline (depth + 1) ++ stringText true k ++ ':' :: ' ' :: indentedText (depth + 1) v ++
      indentedItems depth items

end

end FastapiTemplate.PyValue

namespace FastapiTemplate.Webhooks

/-! ## Line endings -/

def unixLines : List Char → List Char
  | [] => []
  | '\r' :: '\n' :: cs => '\n' :: unixLines cs
  | '\r' :: cs => '\n' :: unixLines cs
  | c :: cs => c :: unixLines cs

def SameLines (a b : String) : Prop := unixLines a.toList = unixLines b.toList

theorem unixLines_eq_self {cs : List Char} (h : '\r' ∉ cs) : unixLines cs = cs := by
  induction cs using unixLines.induct with
  | case1 => rfl
  | case2 cs ih => exact absurd List.mem_cons_self h
  | case3 cs hcs ih => exact absurd List.mem_cons_self h
  | case4 c cs hcr hlone ih =>
    rw [unixLines, ih (fun hmem => h (List.mem_cons_of_mem c hmem))]
    · exact hcr
    · exact hlone

theorem lineFeed_mem_unixLines {cs : List Char} (h : '\r' ∈ cs) : '\n' ∈ unixLines cs := by
  induction cs using unixLines.induct with
  | case1 => cases h
  | case2 cs ih => exact List.mem_cons_self
  | case3 cs hcs ih =>
    rw [unixLines]
    · exact List.mem_cons_self
    · exact hcs
  | case4 c cs hcr hlone ih =>
    rw [unixLines]
    · rcases List.mem_cons.mp h with hc | hmem
      · exact absurd hc.symm hlone
      · exact List.mem_cons_of_mem c (ih hmem)
    · exact hcr
    · exact hlone

/-- A text on one line is sent as it is. -/
theorem SameLines.eq {a b : String} (h : SameLines a b) (hreturn : '\r' ∉ b.toList)
    (hfeed : '\n' ∉ b.toList) : a = b := by
  have hb : unixLines b.toList = b.toList := unixLines_eq_self hreturn
  have ha : '\r' ∉ a.toList := by
    intro hmem
    have hfeed' := lineFeed_mem_unixLines hmem
    rw [h, hb] at hfeed'
    exact hfeed hfeed'
  unfold SameLines at h
  rw [unixLines_eq_self ha, hb] at h
  exact String.toList_inj.mp h

/-! ## The form -/

structure AdminEndpoint where
  id : ℕ
  createdBy : Option ℕ
  url : String
  secret : String
  description : Option String
  eventTypes : List String
  headers : PyValue
  isActive : Bool
  createdAt : ℕ
  updatedAt : ℕ

/-- The value of the column, a text if it is a filled object or array, the empty text if it is
falsy. -/
def shownHeaders : PyValue → PyValue
  | .list (v :: vs) => .str (String.ofList ((PyValue.list (v :: vs)).indentedText 0))
  | .dict (x :: items) => .str (String.ofList ((PyValue.dict (x :: items)).indentedText 0))
  | v => if (JsonValue.ofPy v).truthy then v else .str ""

namespace WebhookEndpointAdminView

def toAdminObject (record : WebhookEndpointData) : AdminEndpoint :=
  ⟨record.id, record.createdBy, record.url, record.secret, record.description, record.eventTypes,
    shownHeaders (record.headers.decode.getD .null), record.isActive, record.createdAt,
    record.updatedAt⟩

def findByPk (t : WebhookTable) (pk : ℕ) : Option AdminEndpoint :=
  (t.getEndpointById pk).map toAdminObject

end WebhookEndpointAdminView

/-! ## Maps of texts -/

section maps
variable {items : List (String × String)}

/-- A `dict[str, str]` of texts without lone surrogates. -/
def headerMap (items : List (String × String)) : HeaderMap :=
  items.map (fun x => (PyText.ofString x.1, PyText.ofString x.2))

def headersText (items : List (String × String)) : String :=
  String.ofList ((PyValue.ofStrings items).text true)

/-- `json.loads` reads an object of texts as the grammar of JSON has it. -/
def ReadsTexts (py : Python) : Prop :=
  ∀ text items, PyValue.loads text = some (PyValue.ofStrings items) →
    py.loadsText text = .ok (.dict (JsonValue.ofStrings items))

theorem headerMap_json (items : List (String × String)) :
    (headerMap items).json = .dict (JsonValue.ofStrings items) := by
  simp only [HeaderMap.json, headerMap, JsonValue.ofStrings, List.map_map, Function.comp_def]

theorem dumps_headerMap {py : Python} {json : JsonText}
    (h : py.dumps (headerMap items).json = some json) : json.text = headersText items := by
  have htext := py.dumps_strings items
  rw [← headerMap_json, h] at htext
  exact Option.some.inj htext

theorem printItems_ofStrings (py : Python) (items : List (String × String)) :
    printItems py (JsonValue.ofStrings items) = some (headerMap items) := by
  unfold printItems
  induction items with
  | nil => rfl
  | cons x items ih =>
    have hcons : JsonValue.ofStrings (x :: items) =
        (PyText.ofString x.1, .str (.ofString x.2)) :: JsonValue.ofStrings items := rfl
    rw [hcons, List.mapM_cons, ih]
    rfl

theorem isJson_ofStrings (hkeys : (items.map (·.1)).Nodup) : (PyValue.ofStrings items).IsJson := by
  refine Jsonb.isJson_dict_iff.mpr ⟨?_, ?_⟩
  · rw [List.map_map]
    exact hkeys
  · intro x hx
    obtain ⟨y, -, rfl⟩ := List.mem_map.mp hx
    exact PyValue.isJson_str y.2

theorem headersText_oneLine (items : List (String × String)) {c : Char} (hc : c.toNat < 32) :
    c ∉ (headersText items).toList := by
  intro hmem
  rw [headersText, String.toList_ofList] at hmem
  have hblank := Jsonb.text_blank_le true _ c hmem
  omega

theorem itemsText_ends (ascii : Bool) (items : List (String × PyValue)) :
    ∃ cs, PyValue.itemsText ascii items = cs ++ ['}'] := by
  induction items with
  | nil => exact ⟨[], rfl⟩
  | cons x items ih =>
    obtain ⟨cs, hcs⟩ := ih
    refine ⟨',' :: ' ' :: (PyValue.stringText ascii x.1 ++
      ':' :: ' ' :: (PyValue.text ascii x.2 ++ cs)), ?_⟩
    simp only [PyValue.itemsText, hcs, List.cons_append, List.append_assoc]

theorem headersText_braces (items : List (String × String)) :
    ∃ cs, (headersText items).toList = '{' :: cs ++ ['}'] := by
  rw [headersText, String.toList_ofList, PyValue.ofStrings]
  cases items with
  | nil => exact ⟨[], by simp [PyValue.text]⟩
  | cons x items =>
    obtain ⟨cs, hcs⟩ := itemsText_ends true (items.map (fun x => (x.1, PyValue.str x.2)))
    refine ⟨PyValue.stringText true x.1 ++
      ':' :: ' ' :: (PyValue.text true (.str x.2) ++ cs), ?_⟩
    simp only [List.map_cons, PyValue.text, hcs, List.cons_append, List.append_assoc]

theorem strip_headersText (items : List (String × String)) :
    Sql.strip (headersText items) = headersText items := by
  obtain ⟨cs, hcs⟩ := headersText_braces items
  have hopen : Sql.isSpace '{' = false := by decide
  have hclose : Sql.isSpace '}' = false := by decide
  have hchars : ((headersText items).toList.dropWhile Sql.isSpace).reverse.dropWhile Sql.isSpace =
      (headersText items).toList.reverse := by
    rw [hcs, List.cons_append, List.dropWhile_cons_of_neg (by simp [hopen]), ← List.cons_append,
      List.reverse_append, List.reverse_singleton, List.singleton_append,
      List.dropWhile_cons_of_neg (by simp [hclose])]
  rw [Sql.strip, hchars, List.reverse_reverse, String.ofList_toList]

/-- Only the empty map is written as a pair of braces. -/
theorem eq_nil_of_headersText (h : headersText items = "\x7b\x7d") : items = [] := by
  cases items with
  | nil => rfl
  | cons x items =>
    have hchars := congrArg String.toList h
    rw [headersText, String.toList_ofList] at hchars
    simp [PyValue.ofStrings, PyValue.text, PyValue.stringText] at hchars

/-- The text of a map is read as the map. -/
theorem parseHeaders_headersText {py : Python} (hpy : ReadsTexts py)
    (hkeys : (items.map (·.1)).Nodup) :
    parseHeaders py (.text (headersText items)) = some (headerMap items) := by
  have hloads : PyValue.loads (headersText items) = some (PyValue.ofStrings items) :=
    PyValue.loads_text (isJson_ofStrings hkeys)
  by_cases hbraces : headersText items = "\x7b\x7d"
  · rw [eq_nil_of_headersText hbraces]
    rfl
  · have hempty : headersText items ≠ "" := by
      obtain ⟨cs, hcs⟩ := headersText_braces items
      intro hnone
      rw [hnone] at hcs
      cases hcs
    simp only [parseHeaders, strip_headersText, hempty, hbraces, or_self, if_false, hpy _ _ hloads]
    exact printItems_ofStrings py items

end maps

/-! ## The headers of a row -/

namespace WebhookTable

def headersOf (t : WebhookTable) (id : ℕ) : Option Jsonb := (t.getEndpointById id).map (·.headers)

def StoresText (t : WebhookTable) (id : ℕ) (items : List (String × String)) : Prop :=
  t.headersOf id = some (Jsonb.ofStr (headersText items))

end WebhookTable

namespace WebhookDAO

section headers
variable {p : Platform} {around : Surroundings} {t : WebhookTable} {s s' : WebhookState}
  {row : WebhookEndpointData}

theorem headersOf_inserted (endpointIn : WebhookEndpointCreateInternal) (secret : String)
    (headersJson : JsonText) {id : ℕ} {headers : Jsonb} (h : t.headersOf id = some headers) :
    (inserted around t endpointIn secret headersJson).headersOf id = some headers := by
  obtain ⟨row, hrow, -⟩ := Option.map_eq_some_iff.mp h
  have hdrawn := t.drawn row (List.mem_of_find?_eq_some hrow)
  have hid : row.id = id := by simpa using List.find?_some hrow
  rw [WebhookTable.headersOf, inserted, WebhookTable.getEndpointById_insertRow, if_neg (by omega)]
  exact h

theorem headersOf_updateRow (endpointId : ℕ) (updateData : WebhookEndpointUpdate)
    (headersVal : Option JsonText) (id : ℕ) :
    (updateRow around endpointId updateData headersVal t).headersOf id =
      if id = endpointId then (t.headersOf id).map (headersVal.map JsonText.stored).getD
      else t.headersOf id := by
  rw [WebhookTable.headersOf, updateRow, WebhookTable.getEndpointById_updateRows,
    WebhookTable.headersOf]
  cases hrow : t.getEndpointById id with
  | none => split_ifs <;> rfl
  | some row =>
    have hid : row.id = id := by simpa using List.find?_some hrow
    simp only [Option.map_some, hid]
    split_ifs <;> rfl

theorem headersOf_deleteRows {ids : List ℕ} {id : ℕ} (hid : id ∉ ids) :
    (t.deleteRows ids).headersOf id = t.headersOf id := by
  rw [WebhookTable.headersOf, WebhookTable.getEndpointById_deleteRows, if_neg hid,
    WebhookTable.headersOf]

/-- A created endpoint has the text of its headers. -/
theorem createEndpoint_ok {endpointIn : WebhookEndpointCreateInternal}
    (h : createEndpoint p around endpointIn s = (.ok row, s')) :
    ∃ headersJson, p.py.dumps endpointIn.headers.json = some headersJson ∧
      s'.table.headersOf row.id = some headersJson.stored := by
  unfold createEndpoint at h
  cases hdumps : p.py.dumps endpointIn.headers.json with
  | none =>
    rw [hdumps] at h
    cases h
  | some headersJson =>
    cases hsecret : endpointIn.secret with
    | none =>
      rw [hdumps, hsecret] at h
      cases h
    | some secret =>
      rw [hdumps, hsecret] at h
      dsimp only at h
      split_ifs at h
      · cases h
        refine ⟨headersJson, rfl, ?_⟩
        rw [WebhookTable.headersOf, WebhookTable.getEndpointById_insertRow, newRow_id, if_pos rfl]
        rfl
      · cases h

/-- An updated endpoint has the text of the headers that it was given. -/
theorem updateEndpoint_ok {endpointId : ℕ} {updateData : WebhookEndpointUpdate}
    {headers : HeaderMap} (hheaders : updateData.headers = some headers)
    (h : updateEndpoint p around endpointId updateData s = (.ok (some row), s')) :
    ∃ headersJson, p.py.dumps headers.json = some headersJson ∧
      s'.table.headersOf endpointId = some headersJson.stored := by
  unfold updateEndpoint headersParam at h
  rw [hheaders] at h
  cases hdumps : p.py.dumps headers.json with
  | none =>
    simp only [hdumps, Option.map_none] at h
    cases h
  | some headersJson =>
    simp only [hdumps, Option.map_some] at h
    split_ifs at h
    · obtain ⟨hanswer, hstate⟩ := Prod.mk.inj h
      have hrow := Except.ok.inj hanswer
      have hnew : s'.table.headersOf endpointId = some row.headers := by
        rw [← hstate, WebhookTable.headersOf, hrow]
        rfl
      refine ⟨headersJson, rfl, ?_⟩
      rw [← hstate, headersOf_updateRow, if_pos rfl] at hnew ⊢
      obtain ⟨old, hold, -⟩ := Option.map_eq_some_iff.mp hnew
      rw [hold]
      rfl
    · cases h

end headers
end WebhookDAO

/-! ## Operations -/

inductive GivesHeaders (p : Platform) (t : WebhookTable) (id : ℕ) (headers : HeaderMap) :
    WebhookLabel → Prop
  | createEndpoint {around : Surroundings} {body : EndpointArguments} {currentUser : Option ℕ}
      {endpointIn : WebhookEndpointCreate} {row : WebhookEndpointData} {s : WebhookState}
      (hbody : body.create p.surrogates = some endpointIn) (hheaders : body.headers = headers)
      (hcreate : WebhookService.createEndpoint p around endpointIn currentUser ⟨t, []⟩ = (.ok row, s))
      (hid : row.id = id) : GivesHeaders p t id headers (around, .createEndpoint body currentUser)
  | updateEndpoint {around : Surroundings} {body : UpdateArguments}
      {updateIn : WebhookEndpointUpdate} {row : WebhookEndpointData} {s : WebhookState}
      (hbody : body.update p.surrogates = some updateIn) (hheaders : body.headers = some headers)
      (hupdate : WebhookService.updateEndpoint p around id updateIn ⟨t, []⟩ = (.ok row, s)) :
      GivesHeaders p t id headers (around, .updateEndpoint id body)
  | adminCreate {around : Surroundings} {currentUser : Option ℕ} {data : AdminForm}
      {row : WebhookEndpointData} {s : WebhookState}
      (hheaders : parseHeaders p.py (data.headers.getD .null) = some headers)
      (hcreate : WebhookEndpointAdminView.create p around currentUser data ⟨t, []⟩ = (.ok row, s))
      (hid : row.id = id) : GivesHeaders p t id headers (around, .adminCreate currentUser data)
  | adminEdit {around : Surroundings} {data : AdminForm} {raw : FormHeaders}
      {row : WebhookEndpointData} {s : WebhookState} (hraw : data.headers = some raw)
      (hheaders : parseHeaders p.py raw = some headers)
      (hedit : WebhookEndpointAdminView.edit p around id data ⟨t, []⟩ = (.ok (some row), s)) :
      GivesHeaders p t id headers (around, .adminEdit id data)

/-- The operation keeps the endpoint, and gives it no headers but those that its form shows. -/
def LeavesHeaders (id : ℕ) (t : WebhookTable) (l : WebhookLabel) : Prop :=
  match l.2 with
  | .createEndpoint .. => True
  | .updateEndpoint endpointId body => endpointId = id → body.headers = none
  | .deleteEndpoint endpointId => endpointId ≠ id
  | .adminCreate .. => True
  | .adminEdit pk data => pk = id → data.headers = none ∨
      ∃ record text sent, WebhookEndpointAdminView.findByPk t id = some record ∧
        record.headers = .str text ∧ SameLines sent text ∧ data.headers = some (.text sent)
  | .adminDelete pks => id ∉ pks

/-- The form of the endpoint shows a text that is read as these headers, with any line endings. -/
def ShowsHeaders (p : Platform) (id : ℕ) (headers : HeaderMap) (t : WebhookTable) : Prop :=
  ∃ record text, WebhookEndpointAdminView.findByPk t id = some record ∧
    record.headers = .str text ∧
      ∀ sent, SameLines sent text → parseHeaders p.py (.text sent) = some headers

section operations
variable {p : Platform} {t : WebhookTable} {id : ℕ} {items : List (String × String)}

theorem create_headers {surrogates : Bool} {a : EndpointArguments} {c : WebhookEndpointCreate}
    (h : a.create surrogates = some c) : c.headers = a.headers := by
  unfold EndpointArguments.create at h
  split_ifs at h
  cases h
  rfl

theorem createInternal_headers {surrogates : Bool} {a : EndpointArguments} {createdBy : Option ℕ}
    {c : WebhookEndpointCreateInternal} (h : a.createInternal surrogates createdBy = some c) :
    c.headers = a.headers := by
  obtain ⟨endpointIn, hcreate, rfl⟩ := Option.map_eq_some_iff.mp h
  exact create_headers hcreate

theorem update_headers {surrogates : Bool} {a : UpdateArguments} {u : WebhookEndpointUpdate}
    (h : a.update surrogates = some u) : u.headers = a.headers := by
  unfold UpdateArguments.update at h
  split_ifs at h
  cases h
  rfl

theorem stored_eq {headersJson : JsonText}
    (h : p.py.dumps (headerMap items).json = some headersJson) :
    headersJson.stored = Jsonb.ofStr (headersText items) := by
  rw [JsonText.stored, dumps_headerMap h]

theorem endpointIn_headers {around : Surroundings} {currentUser : Option ℕ} {data : AdminForm}
    {c : WebhookEndpointCreateInternal} {headers : HeaderMap}
    (hheaders : parseHeaders p.py (data.headers.getD .null) = some headers)
    (h : WebhookEndpointAdminView.endpointIn p around currentUser data = .ok c) :
    c.headers = headers := by
  unfold WebhookEndpointAdminView.endpointIn at h
  rw [hheaders] at h
  cases hurl : data.url with
  | none =>
    rw [hurl] at h
    cases h
  | some url =>
    rw [hurl] at h
    dsimp only at h
    split at h
    · cases h
    · next c' hinternal =>
      cases h
      exact createInternal_headers hinternal

theorem updateData_headers {data : AdminForm} {u : WebhookEndpointUpdate}
    (h : WebhookEndpointAdminView.updateData p data = .ok u) :
    WebhookEndpointAdminView.updateHeaders p data.headers = some u.headers := by
  unfold WebhookEndpointAdminView.updateData at h
  cases hheaders : WebhookEndpointAdminView.updateHeaders p data.headers with
  | none =>
    simp only [hheaders] at h
    cases h
  | some headers =>
    simp only [hheaders] at h
    split at h
    · cases h
    · next u' hupdate =>
      cases h
      rw [update_headers hupdate]

theorem service_createEndpoint_ok {around : Surroundings} {endpointIn : WebhookEndpointCreate}
    {createdBy : Option ℕ} {s s' : WebhookState} {row : WebhookEndpointData}
    (h : WebhookService.createEndpoint p around endpointIn createdBy s = (.ok row, s')) :
    ∃ (c : WebhookEndpointCreateInternal) (u : WebhookState), c.headers = endpointIn.headers ∧
      WebhookDAO.createEndpoint p around c u = (.ok row, s') := by
  unfold WebhookService.createEndpoint at h
  split at h
  · cases h
  · dsimp only at h
    split at h
    · cases h
    · next c hinternal => exact ⟨c, _, createInternal_headers hinternal, h⟩

theorem service_updateEndpoint_ok {around : Surroundings} {updateIn : WebhookEndpointUpdate}
    {s s' : WebhookState} {row : WebhookEndpointData}
    (h : WebhookService.updateEndpoint p around id updateIn s = (.ok row, s')) :
    ∃ u : WebhookState, WebhookDAO.updateEndpoint p around id updateIn u = (.ok (some row), s') := by
  unfold WebhookService.updateEndpoint at h
  split at h
  · cases h
  · split at h
    · cases h
    · next u _ =>
      refine ⟨u, ?_⟩
      rcases hupdated : WebhookDAO.updateEndpoint p around id updateIn u with ⟨e | _ | row', s''⟩
      · rw [hupdated] at h
        cases h
      · rw [hupdated] at h
        cases h
      · rw [hupdated] at h
        cases h
        rfl

/-- The endpoint then has the text of the map. -/
theorem storesText_of_gives {l : WebhookLabel} (h : GivesHeaders p t id (headerMap items) l) :
    (tableStep p t l).StoresText id items := by
  cases h with
  | createEndpoint hbody hheaders hcreate hid =>
    obtain ⟨c, u, hc, hinsert⟩ := service_createEndpoint_ok hcreate
    obtain ⟨headersJson, hdumps, hstored⟩ := WebhookDAO.createEndpoint_ok hinsert
    rw [hc, create_headers hbody, hheaders] at hdumps
    simp only [tableStep, step, WebhookOperation.perform, hbody, hcreate]
    rw [WebhookTable.StoresText, ← hid, hstored, stored_eq hdumps]
  | updateEndpoint hbody hheaders hupdate =>
    obtain ⟨u, hupdated⟩ := service_updateEndpoint_ok hupdate
    obtain ⟨headersJson, hdumps, hstored⟩ :=
      WebhookDAO.updateEndpoint_ok ((update_headers hbody).trans hheaders) hupdated
    simp only [tableStep, step, WebhookOperation.perform, hbody, hupdate]
    rw [WebhookTable.StoresText, hstored, stored_eq hdumps]
  | @adminCreate around currentUser data row s hheaders hcreate hid =>
    have hcreate' := hcreate
    unfold WebhookEndpointAdminView.create at hcreate'
    cases hform : WebhookEndpointAdminView.endpointIn p around currentUser data with
    | error e =>
      rw [hform] at hcreate'
      cases hcreate'
    | ok endpointIn =>
      rw [hform] at hcreate'
      obtain ⟨headersJson, hdumps, hstored⟩ := WebhookDAO.createEndpoint_ok hcreate'
      rw [endpointIn_headers hheaders hform] at hdumps
      simp only [tableStep, step, WebhookOperation.perform, hcreate]
      rw [WebhookTable.StoresText, ← hid, hstored, stored_eq hdumps]
  | @adminEdit around data raw row s hraw hheaders hedit =>
    have hedit' := hedit
    unfold WebhookEndpointAdminView.edit at hedit'
    cases hform : WebhookEndpointAdminView.updateData p data with
    | error e =>
      rw [hform] at hedit'
      cases hedit'
    | ok updateData =>
      rw [hform] at hedit'
      have hgiven := updateData_headers hform
      rw [hraw, WebhookEndpointAdminView.updateHeaders, hheaders] at hgiven
      obtain ⟨headersJson, hdumps, hstored⟩ :=
        WebhookDAO.updateEndpoint_ok (Option.some.inj hgiven).symm hedit'
      simp only [tableStep, step, WebhookOperation.perform, hedit]
      rw [WebhookTable.StoresText, hstored, stored_eq hdumps]

/-- The form shows the text as it is stored. -/
theorem findByPk_of_storesText (h : t.StoresText id items) :
    ∃ record, WebhookEndpointAdminView.findByPk t id = some record ∧
      record.headers = .str (headersText items) := by
  obtain ⟨row, hrow, hheaders⟩ := Option.map_eq_some_iff.mp h
  refine ⟨WebhookEndpointAdminView.toAdminObject row, ?_, ?_⟩
  · rw [WebhookEndpointAdminView.findByPk, hrow, Option.map_some]
  · have hfilled : (JsonValue.ofPy (.str (headersText items))).truthy = true := by
      obtain ⟨cs, hcs⟩ := headersText_braces items
      simp [JsonValue.ofPy, JsonValue.truthy, PyText.ofString, hcs]
    have hdecode : row.headers.decode = some (.str (headersText items)) := by
      rw [hheaders, Jsonb.decode_eq]
      rfl
    simp only [WebhookEndpointAdminView.toAdminObject, hdecode, Option.getD_some, shownHeaders,
      hfilled, if_true]

/-- Whatever line endings the form sends, the text of the map is read as the map. -/
theorem parseHeaders_sent (hpy : ReadsTexts p.py) (hkeys : (items.map (·.1)).Nodup) {sent : String}
    (hsent : SameLines sent (headersText items)) :
    parseHeaders p.py (.text sent) = some (headerMap items) := by
  have hreturn := headersText_oneLine items (by decide : '\r'.toNat < 32)
  have hfeed := headersText_oneLine items (by decide : '\n'.toNat < 32)
  rw [hsent.eq hreturn hfeed]
  exact parseHeaders_headersText hpy hkeys

theorem showsHeaders_of_storesText (hpy : ReadsTexts p.py) (hkeys : (items.map (·.1)).Nodup)
    (h : t.StoresText id items) : ShowsHeaders p id (headerMap items) t := by
  obtain ⟨record, hrecord, hheaders⟩ := findByPk_of_storesText h
  exact ⟨record, _, hrecord, hheaders, fun sent => parseHeaders_sent hpy hkeys⟩

theorem storesText_insert {around : Surroundings} (endpointIn : WebhookEndpointCreateInternal)
    {s : WebhookState} (h : s.table.StoresText id items) :
    (WebhookDAO.createEndpoint p around endpointIn s).2.table.StoresText id items := by
  rcases WebhookDAO.createEndpoint_cases p around endpointIn s with
    ⟨-, hs⟩ | ⟨secret, headersJson, -, hs⟩
  · rw [hs]
    exact h
  · rw [hs]
    exact WebhookDAO.headersOf_inserted endpointIn secret headersJson h

/-- An update without headers, or with those of the endpoint, keeps their text. -/
theorem storesText_update {around : Surroundings} {endpointId : ℕ}
    {updateData : WebhookEndpointUpdate} {s : WebhookState} (h : s.table.StoresText id items)
    (hheaders : endpointId = id →
      updateData.headers = none ∨ updateData.headers = some (headerMap items)) :
    (WebhookDAO.updateEndpoint p around endpointId updateData s).2.table.StoresText id items := by
  rcases WebhookDAO.updateEndpoint_cases p around endpointId updateData s with
    ⟨-, hs⟩ | ⟨headersVal, ⟨hparam, -⟩, hs⟩
  · rw [hs]
    exact h
  · rw [hs]
    change WebhookTable.headersOf _ id = _
    rw [WebhookDAO.headersOf_updateRow]
    split_ifs with hid
    · rw [h, Option.map_some]
      rcases hheaders hid.symm with hnone | hsame
      · rw [hnone] at hparam
        cases hparam
        rfl
      · rw [hsame] at hparam
        obtain ⟨headersJson, hdumps, rfl⟩ := Option.map_eq_some_iff.mp hparam
        rw [Option.map_some, Option.getD_some, stored_eq hdumps]
    · exact h

/-- What leaves the headers alone keeps their text. -/
theorem storesText_step (hpy : ReadsTexts p.py) (hkeys : (items.map (·.1)).Nodup) {l : WebhookLabel}
    (hl : LeavesHeaders id t l) (h : t.StoresText id items) :
    (tableStep p t l).StoresText id items := by
  obtain ⟨around, op⟩ := l
  cases op with
  | createEndpoint body currentUser =>
    simp only [tableStep, step, WebhookOperation.perform]
    split
    · exact h
    · next endpointIn _ =>
      rcases WebhookService.createEndpoint_cases p around endpointIn currentUser ⟨t, []⟩ with
        htable | ⟨internalData, -, hcreated⟩
      · rw [htable]
        exact h
      · rw [hcreated]
        exact storesText_insert internalData h
  | updateEndpoint endpointId body =>
    simp only [tableStep, step, WebhookOperation.perform]
    split
    · exact h
    · next updateIn hbody =>
      rcases WebhookService.updateEndpoint_cases p around endpointId updateIn ⟨t, []⟩ with
        htable | ⟨s, hs, -, hupdated⟩
      · rw [htable]
        exact h
      · rw [hupdated]
        refine storesText_update (hs ▸ h) (fun hid => .inl ?_)
        rw [update_headers hbody]
        exact hl hid
  | deleteEndpoint endpointId =>
    simp only [tableStep, step, WebhookOperation.perform]
    rcases WebhookService.deleteEndpoint_cases endpointId ⟨t, []⟩ with htable | htable
    · rw [htable]
      exact h
    · rw [htable]
      have hother : id ∉ [endpointId] := by simpa using Ne.symm hl
      exact (WebhookDAO.headersOf_deleteRows hother).trans h
  | adminDelete pks =>
    simp only [tableStep, step, WebhookOperation.perform, WebhookEndpointAdminView.delete]
    rw [WebhookDAO.deleteEndpoints_table]
    exact (WebhookDAO.headersOf_deleteRows hl).trans h
  | adminCreate currentUser data =>
    simp only [tableStep, step, WebhookOperation.perform, WebhookEndpointAdminView.create]
    cases WebhookEndpointAdminView.endpointIn p around currentUser data with
    | error e => exact h
    | ok endpointIn => exact storesText_insert endpointIn h
  | adminEdit pk data =>
    simp only [tableStep, step, WebhookOperation.perform, WebhookEndpointAdminView.edit]
    cases hform : WebhookEndpointAdminView.updateData p data with
    | error e => exact h
    | ok updateData =>
      refine storesText_update h (fun hid => ?_)
      have hgiven := updateData_headers hform
      rcases hl hid with hnone | ⟨record, text, sent, hrecord, htext, hsent, hdata⟩
      · rw [hnone] at hgiven
        exact .inl (Option.some.inj hgiven).symm
      · obtain ⟨record', hrecord', htext'⟩ := findByPk_of_storesText h
        rw [hrecord'] at hrecord
        cases hrecord
        rw [htext'] at htext
        cases htext
        rw [hdata, WebhookEndpointAdminView.updateHeaders, parseHeaders_sent hpy hkeys hsent] at hgiven
        exact .inr (Option.some.inj hgiven).symm

end operations

/-- Once an endpoint was given a map of headers, its form shows a text that is read as this map, after
any operations that give it no headers but those that the form shows. -/
theorem headers_surviveForm {p : Platform} (hpy : ReadsTexts p.py) {t : WebhookTable} {id : ℕ}
    {items : List (String × String)} (hkeys : (items.map (·.1)).Nodup) {l : WebhookLabel}
    (hl : GivesHeaders p t id (headerMap items) l) {ls : List WebhookLabel}
    (hls : EveryStep (tableStep p) (LeavesHeaders id) (tableStep p t l) ls) :
    EveryState (tableStep p) (ShowsHeaders p id (headerMap items)) (tableStep p t l) ls := by
  refine hls.everyState (I := fun t => t.StoresText id items) (storesText_of_gives hl) ?_ ?_
  · intro t l hleaves hstores
    exact storesText_step hpy hkeys hleaves hstores
  · intro t hstores
    exact showsHeaders_of_storesText hpy hkeys hstores

theorem ofPy_ofStrings (items : List (String × String)) :
    JsonValue.ofPy (PyValue.ofStrings items) = .dict (JsonValue.ofStrings items) := by
  rw [PyValue.ofStrings, JsonValue.ofPy]
  congr 1
  induction items with
  | nil => rfl
  | cons x items ih =>
    have hitems : JsonValue.ofPyItems ((x :: items).map (fun x => (x.1, PyValue.str x.2))) =
        (PyText.ofString x.1, .str (.ofString x.2)) ::
          JsonValue.ofPyItems (items.map (fun x => (x.1, PyValue.str x.2))) := rfl
    rw [hitems, ih]
    rfl

theorem readsTexts_plain : ReadsTexts .plain := by
  intro text items hloads
  have hplain : Python.plain.loadsText text = Python.plainLoads text := rfl
  rw [hplain, Python.plainLoads, hloads]
  exact congrArg Except.ok (ofPy_ofStrings items)

def localPlatform : Platform where
  py := .plain
  surrogates := false
  env := .dev
  urlparse _ := some ("http", some "hooks")

def noted : List (String × String) := [("X-Note", "a=b"), ("X-Mode", "c")]

def notedSurroundings : Surroundings := ⟨0, "AAAAAAAAAAAAAAAAAAAAAAAAAAAAAAAA", fun _ => none⟩

def notedForm : AdminForm :=
  ⟨some "http://hooks/", none, none, some (.many ["user.created"]),
    some (.text "X-Note: a=b\nX-Mode = c"), none⟩

def describedForm : AdminForm :=
  ⟨some "http://hooks/", none, some "hooks", some (.many ["user.created"]),
    some (.text (headersText noted)), some true⟩

theorem headers_surviveForm_noted :
    EveryState (tableStep localPlatform) (ShowsHeaders localPlatform 0 (headerMap noted))
      (tableStep localPlatform (.empty fun _ => false) (notedSurroundings, .adminCreate none notedForm))
      [(notedSurroundings, .adminEdit 0 describedForm)] := by
  have hcreated : ((WebhookEndpointAdminView.create localPlatform notedSurroundings none notedForm
      ⟨.empty fun _ => false, []⟩).1.map (·.id)).toOption = some 0 := by decide +kernel
  rcases hcreate : WebhookEndpointAdminView.create localPlatform notedSurroundings none notedForm
      ⟨.empty fun _ => false, []⟩ with ⟨e | row, s⟩
  · rw [hcreate] at hcreated
    cases hcreated
  · rw [hcreate] at hcreated
    have hgives : GivesHeaders localPlatform (.empty fun _ => false) 0 (headerMap noted)
        (notedSurroundings, .adminCreate none notedForm) :=
      .adminCreate (by decide +kernel) hcreate (Option.some.inj hcreated)
    obtain ⟨record, hrecord, hheaders⟩ := findByPk_of_storesText (storesText_of_gives hgives)
    refine headers_surviveForm readsTexts_plain (by decide) hgives ⟨?_, trivial⟩
    exact fun _ => .inr ⟨record, _, _, hrecord, hheaders, rfl, rfl⟩

end FastapiTemplate.Webhooks
