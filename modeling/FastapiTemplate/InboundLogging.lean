import FastapiTemplate.InboundWebhooks

/-!
# What inbound webhooks leave in the log

The requests of which `handle_inbound_webhook` writes one row. The row is built after the payload
has been read and normalized, and outside of the handlers of exceptions, so whatever the schema or
the table refuses leaves no row.
-/

namespace FastapiTemplate.Webhooks

open GenericWebhookAdapter

/-- One row for the request, with the status that the answer has. -/
def LoggedOnce (logs : List WebhookLogData)
    (result : Except InboundError (List (String × String)) × List WebhookLogData) : Prop :=
  ∃ row, result.2 = logs ++ [row] ∧ row.direction = WebhookDirection.inbound.value ∧
    match result.1 with
    | .ok _ => row.status = WebhookStatus.success.value
    | .error (.httpException status _) => 400 ≤ status ∧ row.status = WebhookStatus.failed.value
    | .error _ => False

section condition
variable (py : Python) (surrogates : Bool) (uuidHex : String)

/-- The payload is printed, named and stored without an exception. -/
structure LoggablePayload (items : JsonDict) : Prop where
  keys : validKeys surrogates items = true
  stored : ∃ text, py.dumps (.dict items) = some text ∧ fitsJsonb text = true
  event : ∃ name text, Printable py uuidHex items name ∧ name.toString? = some text ∧
    text.length ≤ 100 ∧ PyValue.noNulIn text = true

structure Loggable (elapsedMs : ℕ) (source : String) (request : Request) : Prop where
  path : ∃ path, request.urlPath = some path ∧ PyValue.noNulIn path = true
  source : source.length ≤ 100 ∧ PyValue.noNulIn source = true
  client : ∀ ip ∈ request.client, ip.length ≤ 45 ∧ PyValue.noNulIn ip = true
  elapsed : elapsedMs ≤ 2147483647
  headers : ∃ text, py.dumps (.dict (JsonValue.ofStrings request.headersDict)) = some text ∧
    fitsJsonb text = true
  payload : ∃ items, payloadOf py request.body = some (.dict items) ∧
    LoggablePayload py surrogates uuidHex items

end condition

/-! ## The adapter -/

def received (name : PyText) : Processed :=
  ⟨name, .success, 200, [("status", "received"), ("source", "generic")], none⟩

section adapter
variable {py : Python} {uuidHex source : String} {request : Request} {payload : JsonValue}

theorem process_eq_ok_iff {processed : Processed} :
    processInboundAdapter (WebhookAdapterFactory.getAdapter py uuidHex source) source request
        payload = .ok processed ↔
      ∃ items name, payload = .dict items ∧ Printable py uuidHex items name ∧
        received name = processed := by
  have hverified : ¬(GenericWebhookAdapter.adapter py uuidHex).verifySignature request = false := by
    rintro ⟨⟩
  have hnormalize : (GenericWebhookAdapter.adapter py uuidHex).normalize request payload =
      normalize py uuidHex payload := rfl
  rw [WebhookAdapterFactory.getAdapter_eq, processInboundAdapter, if_neg hverified, hnormalize]
  constructor
  · intro h
    rcases normalize_cases py uuidHex payload with
      hget | hdeep | ⟨items, name, event, hdict, hprintable, hevent, rfl⟩
    · rw [hget] at h
      cases h
    · rw [hdeep] at h
      cases h
    · rw [hevent] at h
      exact ⟨items, event.eventName, hdict, hprintable, Except.ok.inj h⟩
  · rintro ⟨items, name, rfl, hprintable, rfl⟩
    obtain ⟨event, hevent, rfl⟩ := normalize_dict py hprintable
    rw [hevent]
    rfl

end adapter

/-! ## The row -/

theorem validKeys_ofStrings (surrogates : Bool) (items : List (String × String)) :
    validKeys surrogates (JsonValue.ofStrings items) = true := by
  apply List.all_eq_true.mpr
  intro x hx
  obtain ⟨item, -, rfl⟩ := List.mem_map.mp hx
  simp

theorem truncated_noNul {body : String} (h : PyValue.noNulIn body = true) :
    (truncated (some body)).all PyValue.noNulIn = true := by
  by_cases hempty : body = ""
  · simp [truncated, Option.filter, hempty]
  · simp only [truncated, Option.filter, hempty, ne_eq, not_false_eq_true, decide_true, if_true,
      Option.map_some, Option.all_some, PyValue.noNulIn, String.toList_ofList]
    apply List.all_eq_true.mpr
    intro c hc
    exact List.all_eq_true.mp h c (List.mem_of_mem_take hc)

theorem dumps_responseHeaders (py : Python) :
    ∃ text, py.dumps (.dict (JsonValue.ofStrings responseHeaders)) = some text ∧
      fitsJsonb text = true := by
  obtain ⟨text, htext, heq⟩ := Option.map_eq_some_iff.mp (py.dumps_strings responseHeaders)
  refine ⟨text, htext, ?_⟩
  rw [fitsJsonb, heq]
  decide +kernel

section row
variable {py : Python} {surrogates : Bool} {uuidHex source path : String} {elapsedMs now id : ℕ}
  {request : Request} {items : JsonDict} {name : PyText} {text : String}

theorem bounded_iff {payload : JsonValue} :
    (logArguments py elapsedMs source request path payload (received name)).Bounded surrogates text
        items ↔
      source.length ≤ 100 ∧ text.length ≤ 100 ∧ (∀ ip ∈ request.client, ip.length ≤ 45) ∧
        validKeys surrogates items = true := by
  constructor
  · intro h
    exact ⟨h.source, h.eventName, h.ipAddress, h.payloadKeys⟩
  · rintro ⟨hsource, htext, hclient, hkeys⟩
    refine ⟨hsource, htext, ?_, hclient, hkeys, ?_, ?_⟩
    · rintro ms ⟨⟩
      exact Int.natCast_nonneg elapsedMs
    · rintro headers ⟨⟩
      exact validKeys_ofStrings surrogates _
    · rintro headers ⟨⟩
      exact validKeys_ofStrings surrogates _

theorem accepted_iff {payload : JsonValue}
    (h : (logArguments py elapsedMs source request path payload (received name)).Bounded surrogates
      text items) :
    h.log.accepted (fun _ => false) = true ↔
      PyValue.noNulIn source = true ∧ PyValue.noNulIn text = true ∧ PyValue.noNulIn path = true ∧
        elapsedMs ≤ 2147483647 ∧ ∀ ip ∈ request.client, PyValue.noNulIn ip = true := by
  have hbody : (truncated h.log.responseBody).all PyValue.noNulIn = true :=
    truncated_noNul (py.strDict_noNul _)
  have helapsed : h.log.executionTimeMs.all fitsInteger = true ↔ elapsedMs ≤ 2147483647 := by
    have hms : h.log.executionTimeMs = some (elapsedMs : ℤ) := rfl
    simp only [hms, Option.all_some, fitsInteger, Bool.and_eq_true, decide_eq_true_eq]
    omega
  have hstatus : h.log.statusCode.all fitsInteger = true := by
    have hcode : h.log.statusCode = some 200 := rfl
    rw [hcode]
    decide
  have herror : h.log.errorMessage.all PyValue.noNulIn = true := rfl
  have hendpoint : h.log.endpointId.all (fun _ => false) = true := rfl
  have hclient : h.log.ipAddress.all PyValue.noNulIn = true ↔
      ∀ ip ∈ request.client, PyValue.noNulIn ip = true := Option.all_eq_true _ _
  unfold WebhookLogCreate.accepted
  simp only [Bool.and_eq_true, hbody, helapsed, hstatus, hclient, herror, hendpoint, and_true,
    and_assoc]
  exact Iff.rfl

theorem createLog_iff
    (h : (logArguments py elapsedMs source request path (.dict items) (received name)).Bounded
      surrogates text items) :
    (∃ row, h.log.createLog py (fun _ => false) id now = .ok row) ↔
      h.log.accepted (fun _ => false) = true ∧
        (∃ t, py.dumps (.dict items) = some t ∧ fitsJsonb t = true) ∧
        ∃ t, py.dumps (.dict (JsonValue.ofStrings request.headersDict)) = some t ∧
          fitsJsonb t = true := by
  constructor
  · rintro ⟨row, hrow⟩
    obtain ⟨payload, hpayload, headers, hheaders, response, -, haccepted, -⟩ :=
      WebhookLogCreate.createLog_eq_ok_iff.mp hrow
    obtain ⟨t, ht, rfl⟩ := WebhookLogCreate.dumpsOption_some.mp hheaders
    exact ⟨haccepted.1, ⟨payload, WebhookLogCreate.dumpsDict_eq_ok_iff.mp hpayload, haccepted.2.1⟩,
      t, ht, haccepted.2.2.1⟩
  · rintro ⟨haccepted, ⟨payload, hpayload, hfits⟩, headers, hheaders, hheadersFit⟩
    obtain ⟨response, hresponse, hresponseFits⟩ := dumps_responseHeaders py
    refine ⟨_, WebhookLogCreate.createLog_eq_ok_iff.mpr ⟨payload,
      WebhookLogCreate.dumpsDict_eq_ok_iff.mpr hpayload, some headers,
      WebhookLogCreate.dumpsOption_some.mpr ⟨headers, hheaders, rfl⟩, some response,
      WebhookLogCreate.dumpsOption_some.mpr ⟨response, hresponse, rfl⟩, ?_, rfl⟩⟩
    exact ⟨haccepted, hfits, hheadersFit, hresponseFits⟩

end row

/-! ## The handler -/

section handler
variable {py : Python} {surrogates : Bool} {uuidHex : String} {elapsedMs now : ℕ} {source : String}
  {request : Request} {logs : List WebhookLogData}

/-- A request that has left a row met all conditions on the way. -/
theorem Loggable.of_row {row : WebhookLogData}
    (hlogs : (handleInboundWebhook py surrogates uuidHex elapsedMs now source request logs).2 =
      logs ++ [row]) : Loggable py surrogates uuidHex elapsedMs source request := by
  have hunchanged : logs ≠ logs ++ [row] := by
    intro h
    exact absurd (List.self_eq_append_right.mp h) (List.cons_ne_nil row [])
  unfold handleInboundWebhook at hlogs
  cases hpayload : payloadOf py request.body with
  | none =>
    rw [hpayload] at hlogs
    exact absurd hlogs hunchanged
  | some payload =>
    simp only [hpayload] at hlogs
    split at hlogs
    · exact absurd hlogs hunchanged
    · next processed hprocessed =>
      obtain ⟨items, name, rfl, hprintable, rfl⟩ := process_eq_ok_iff.mp hprocessed
      cases hpath : request.urlPath with
      | none =>
        rw [hpath] at hlogs
        exact absurd hlogs hunchanged
      | some path =>
        simp only [hpath] at hlogs
        split at hlogs
        · exact absurd hlogs hunchanged
        · next log hlog =>
          obtain ⟨text, items', htext, hitems, hbounded, rfl⟩ :=
            (LogArguments.validate_eq_some_iff ..).mp hlog
          cases hitems
          split at hlogs
          · exact absurd hlogs hunchanged
          · next stored hstored =>
            obtain ⟨haccepted, hdumps, hheaders⟩ := (createLog_iff hbounded).mp ⟨stored, hstored⟩
            obtain ⟨hsource, hevent, hurl, hms, hip⟩ := (accepted_iff hbounded).mp haccepted
            obtain ⟨hlength, heventLength, hipLength, hkeys⟩ := bounded_iff.mp hbounded
            exact ⟨⟨path, hpath, hurl⟩, ⟨hlength, hsource⟩, fun ip h => ⟨hipLength ip h, hip ip h⟩,
              hms, hheaders, items, hpayload, hkeys, hdumps, name, text, hprintable, htext,
              heventLength, hevent⟩

theorem Loggable.handled (h : Loggable py surrogates uuidHex elapsedMs source request) (now : ℕ)
    (logs : List WebhookLogData) :
    ∃ row response, handleInboundWebhook py surrogates uuidHex elapsedMs now source request logs =
        (.ok response, logs ++ [row]) ∧
      row.direction = WebhookDirection.inbound.value ∧ row.status = WebhookStatus.success.value := by
  obtain ⟨path, hpath, hurl⟩ := h.path
  obtain ⟨items, hpayload, hkeys, hdumps, name, text, hprintable, htext, hlength, hevent⟩ := h.payload
  have hprocess : processInboundAdapter (WebhookAdapterFactory.getAdapter py uuidHex source) source
      request (.dict items) = .ok (received name) :=
    process_eq_ok_iff.mpr ⟨items, name, rfl, hprintable, rfl⟩
  have hbounded : (logArguments py elapsedMs source request path (.dict items)
      (received name)).Bounded surrogates text items :=
    bounded_iff.mpr ⟨h.source.1, hlength, fun ip hip => (h.client ip hip).1, hkeys⟩
  have hvalid := (LogArguments.validate_eq_some_iff ..).mpr ⟨text, items, htext, rfl, hbounded, rfl⟩
  have haccepted := (accepted_iff hbounded).mpr
    ⟨h.source.2, hevent, hurl, h.elapsed, fun ip hip => (h.client ip hip).2⟩
  have hstored : ∃ row, hbounded.log.createLog py (fun _ => false) logs.length now = .ok row :=
    (createLog_iff hbounded).mpr ⟨haccepted, hdumps, h.headers⟩
  obtain ⟨row, hrow⟩ := hstored
  obtain ⟨hdirection, hstatus, -⟩ := WebhookLogCreate.createLog_row hrow
  refine ⟨row, (received name).responseData, ?_, hdirection, hstatus⟩
  unfold handleInboundWebhook
  simp only [hpayload, hprocess, hpath, hvalid, hrow]
  rfl

end handler

/-- Exactly the requests that meet `Loggable` are logged once, with the status of the answer. -/
theorem handleInboundWebhook_logged_iff (py : Python) (surrogates : Bool) (uuidHex : String)
    (elapsedMs now : ℕ) (source : String) (request : Request) (logs : List WebhookLogData) :
    LoggedOnce logs
        (handleInboundWebhook py surrogates uuidHex elapsedMs now source request logs) ↔
      Loggable py surrogates uuidHex elapsedMs source request := by
  constructor
  · rintro ⟨row, hlogs, -⟩
    exact .of_row hlogs
  · intro h
    obtain ⟨row, response, hhandled, hdirection, hstatus⟩ := h.handled now logs
    rw [hhandled]
    exact ⟨row, rfl, hdirection, hstatus⟩

def emptyArray : Request := ⟨[91, 93], [], some "/inbound/stripe", none⟩

theorem handleInboundWebhook_emptyArray :
    ¬ LoggedOnce []
      (handleInboundWebhook Python.plain false "0" 0 0 "stripe" emptyArray []) := by
  have hloads : Python.plain.loads [91, 93] = .ok (.list []) := by
    rfl
  have hpayload : payloadOf Python.plain emptyArray.body = some (.list []) := by
    simp only [payloadOf, emptyArray, hloads]
  have hprocess : processInboundAdapter (WebhookAdapterFactory.getAdapter Python.plain "0" "stripe")
      "stripe" emptyArray (.list []) = .error (.attributeError "get") := by
    rw [WebhookAdapterFactory.getAdapter_eq]
    rfl
  have hhandled : handleInboundWebhook Python.plain false "0" 0 0 "stripe" emptyArray [] =
      (.error (.adapter (.attributeError "get")), []) := by
    unfold handleInboundWebhook
    simp only [hpayload, hprocess]
  rintro ⟨row, hrow, -⟩
  rw [hhandled] at hrow
  exact List.cons_ne_nil row [] hrow.symm

end FastapiTemplate.Webhooks
