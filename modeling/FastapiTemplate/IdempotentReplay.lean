import FastapiTemplate.HandledOnce

/-!
# Faithful replay

A response is stored as a JSON object and rebuilt by the constructor of `Response`.
It comes back as it was if its content is text in one piece, no header name is repeated
and the constructor has nothing to add; a stored response is then what every later
request with the key is answered with.
-/

namespace FastapiTemplate.Idempotency

def Content.Kept : Content → Prop
  | .body bytes => bytes.IsValidUTF8
  | .stream chunks => (Content.stream chunks).bytes = .empty

instance : DecidablePred Content.Kept
  | .body bytes => inferInstanceAs (Decidable bytes.IsValidUTF8)
  | .stream chunks => inferInstanceAs (Decidable ((Content.stream chunks).bytes = .empty))

theorem Content.Kept.decode {content : Content} (h : content.Kept) :
    ∃ text, IdempotencyManager.decodeContent content = some text ∧
      text.toUTF8 = content.bytes := by
  cases content with
  | body bytes => exact ⟨String.fromUTF8 bytes h, dif_pos h, rfl⟩
  | stream chunks => exact ⟨"", rfl, h.symm⟩

theorem headerDict_of_nodup {headers : List (String × String)} (h : (headers.map (·.1)).Nodup) :
    IdempotencyManager.headerDict headers = headers := by
  induction headers with
  | nil => rfl
  | cons header headers ih =>
    rw [List.map_cons, List.nodup_cons] at h
    have hkeep : headers.filter (·.1 ≠ header.1) = headers := by
      apply List.filter_eq_self.mpr
      intro other hother
      have hne : other.1 ≠ header.1 := fun he =>
        h.1 (List.mem_map.mpr ⟨other, hother, he⟩)
      exact decide_eq_true hne
    rw [IdempotencyManager.headerDict, ih h.2, hkeep]

section rebuild
variable [Starlette]

structure Replayable (r : HttpResponse) : Prop where
  content : r.content.Kept
  names : (r.headers.map (·.1)).Nodup
  populated : Starlette.populate r.statusCode r.mediaType r.content.bytes r.headers = []

theorem Replayable.rebuild_sent {r : HttpResponse} (h : Replayable r) :
    ∃ data, IdempotencyManager.cachedData r = some data ∧
      (IdempotencyManager.rebuild data).sent = r.sent := by
  obtain ⟨text, hdecode, hbytes⟩ := h.content.decode
  refine ⟨⟨r.statusCode, r.headers, text, r.mediaType⟩, ?_, ?_⟩
  · rw [IdempotencyManager.cachedData, hdecode, headerDict_of_nodup h.names]
    rfl
  · change Sent.mk r.statusCode (r.headers ++ Starlette.populate r.statusCode r.mediaType
      text.toUTF8 r.headers) text.toUTF8 = r.sent
    rw [hbytes, h.populated, List.append_nil]
    rfl

end rebuild

/-! ## The ledger of one request -/

section ledger
variable [Starlette] {key : String} {i : ℕ} {r : HttpResponse} {data : CachedResponse}
  {p : RoutePool}

def Stands (key : String) (r : HttpResponse) (data : CachedResponse) (s : Store)
    (x : RouteThread) : Prop :=
  At key x (.storing r data) ∨ s.response key = some data ∧
    (At key x (.releasing (.ok r) (some data)) ∨ At key x (.finished (.ok r) (some data)))

/-- From the end of its handler on, request `i` is the only one that writes to the cache. -/
structure ReplayLedger (key : String) (i : ℕ) (r : HttpResponse) (data : CachedResponse)
    (p : RoutePool) : Prop where
  lock : LockLedger key p
  others : ∀ j x, j ≠ i → p.threads[j]? = some x → ¬ AtWork key x
  own : ∃ x, p.threads[i]? = some x ∧ Stands key r data p.state x

/-- While the request stands there, the lock is live or its response is. -/
theorem ReplayLedger.guarded (h : ReplayLedger key i r data p) (hfree : ¬ p.state.locked key) :
    p.state.response key = some data := by
  obtain ⟨x, hx, hstoring | ⟨hdata, -⟩⟩ := h.own
  · exact absurd (hstoring.atWork_iff.mpr rfl) (h.lock.idle hfree x (List.mem_of_getElem? hx))
  · exact hdata

/-- The request itself takes its next step. -/
theorem Stands.answered {x : RouteThread} {s : Store} (h : Stands key r data s x) {c : Call}
    {next : c.Answer → RouteProgram HttpResponse} (hrest : x.rest = .call c next) :
    Stands key r data (handler c s).2 (x.answered c (handler c s).1 next) := by
  rcases h with hstoring | ⟨hdata, hreleasing | hfinished⟩
  · obtain ⟨ph', hnext, hat'⟩ := hstoring.answered hrest (handler c s).1
    cases hnext with
    | stored => exact .inr ⟨response_setResponse s key data, .inl hat'⟩
  · obtain ⟨ph', hnext, hat'⟩ := hreleasing.answered hrest (handler c s).1
    cases hnext with
    | released => exact .inr ⟨hdata, .inr hat'⟩
  · cases hfinished.rest.symm.trans hrest

/-- Another request makes a call: the response is kept, and it does not get to work. -/
theorem ReplayLedger.other_call (h : ReplayLedger key i r data p) {j : ℕ} (hji : j ≠ i)
    {th : RouteThread} {c : Call} {next : c.Answer → RouteProgram HttpResponse}
    (hth : p.threads[j]? = some th) (hrest : th.rest = .call c next)
    (hcareful : RoutePool.Careful key p th) :
    (handler c p.state).2.response key = p.state.response key ∧
      ¬ AtWork key (th.answered c (handler c p.state).1 next) := by
  have hidle := h.others j th hji hth
  rcases (h.lock.tracked th (List.mem_of_getElem? hth)).call_cases hrest (handler c p.state).1 with
    ⟨htag, hkey⟩ | ⟨ph, ph', hat, hnext, hat'⟩
  · exact ⟨(handler_other c p.state hkey).2, fun hw => htag hw.1⟩
  · generalize hr : (handler c p.state).1 = answer at hnext hat' ⊢
    cases hnext with
    | hit data' => exact ⟨rfl, fun hw => by cases hat'.atWork_iff.mp hw⟩
    | miss => exact ⟨rfl, fun hw => by cases hat'.atWork_iff.mp hw⟩
    | refused =>
      rw [setLockNx_refused hr]
      exact ⟨rfl, fun hw => by cases hat'.atWork_iff.mp hw⟩
    | acquired =>
      -- the lock is free only when the response is live, and then it is not taken
      have hlive := h.guarded (setLockNx_acquired hr).1
      rw [hcareful (Thread.nextCall_of_rest hrest)] at hlive
      cases hlive
    | handled => exact absurd (hat.atWork_iff.mpr rfl) hidle
    | stored r' data' => exact absurd (hat.atWork_iff.mpr rfl) hidle
    | released ending stored => exact absurd (hat.atWork_iff.mpr rfl) hidle

omit [Starlette] in
/-- A stored response that is kept in a move stays what it was. -/
theorem Stands.congr [Starlette] {x : RouteThread} {s s' : Store} (h : Stands key r data s x)
    (hresponse : s.response key = some data → s'.response key = some data) :
    Stands key r data s' x := by
  rcases h with hstoring | ⟨hdata, hplace⟩
  · exact .inl hstoring
  · exact .inr ⟨hresponse hdata, hplace⟩

theorem ReplayLedger.step (h : ReplayLedger key i r data p) {m : RouteMove}
    (hwithin : RoutePool.WithinTtl key p m) (hexclusive : RoutePool.Exclusive key p m) :
    ReplayLedger key i r data (routes.step p m) := by
  have hlock := h.lock.step hexclusive.1
  obtain ⟨x, hx, hstands⟩ := h.own
  have hlt : i < p.threads.length := (List.getElem?_eq_some_iff.mp hx).1
  have hcase := routes.step_cases p m
  generalize routes.step p m = q at hcase hlock ⊢
  cases hcase with
  | idle j => exact h
  | environment d =>
    refine ⟨hlock, h.others, x, hx, hstands.congr (fun hdata => ?_)⟩
    have hne : p.state.response key ≠ none := by rw [hdata]; exact nofun
    exact (hwithin hne).trans hdata
  | spawn a =>
    refine ⟨hlock, fun j y hji hy => ?_, x, (List.getElem?_append_left hlt).trans hx, hstands⟩
    by_cases hj : j < p.threads.length
    · rw [List.getElem?_append_left hj] at hy
      exact h.others j y hji hy
    · have hmem := List.mem_of_getElem? (List.getElem?_append_right (Nat.le_of_not_lt hj) ▸ hy)
      rw [List.mem_singleton.mp hmem]
      exact fresh_not_atWork a
  | @call j th c next hth hrest =>
    by_cases hji : j = i
    · subst hji
      rw [hx] at hth
      cases hth
      refine ⟨hlock, fun k y hkj hy => ?_, _, List.getElem?_set_self hlt, hstands.answered hrest⟩
      rw [List.getElem?_set_ne (Ne.symm hkj)] at hy
      exact h.others k y hkj hy
    · obtain ⟨hresponse, hidle⟩ := h.other_call hji hth hrest (hexclusive.2 th hth)
      refine ⟨hlock, fun k y hki hy => ?_, x, (List.getElem?_set_ne hji).trans hx,
        hstands.congr (fun hdata => hresponse.trans hdata)⟩
      rcases set_thread hy with ⟨-, rfl⟩ | ⟨-, hold⟩
      · exact hidle
      · exact h.others k y hki hold

end ledger

/-! ## Later requests -/

/-- The thread is answered from the cache with this response, without a run of the handler. -/
structure Replays (sent : Sent) (th : RouteThread) : Prop where
  unhandled : ∀ o, ⟨.handle o, ()⟩ ∉ th.trace
  answer : th.trace ≠ [] → ending th = some (.ok sent)

section later
variable [Starlette] {key : String} {i n : ℕ} {r : HttpResponse} {data : CachedResponse}
  {p : RoutePool}

/-- A request looks the live response up and returns it. -/
theorem Replays.answered {sent : Sent} {th : RouteThread} {s : Store} (h : Replays sent th)
    (htracked : Tracked th) (hkey : th.tag.key = some key) (hlive : s.response key = some data)
    (hsent : (IdempotencyManager.rebuild data).sent = sent) {c : Call}
    {next : c.Answer → RouteProgram HttpResponse} (hrest : th.rest = .call c next) :
    Replays sent (th.answered c (handler c s).1 next) := by
  have hempty : th.trace = [] := by
    by_contra hne
    have hended := h.answer hne
    rw [ending, hrest] at hended
    cases hended
  rcases htracked with ⟨key', ph, hat⟩ | ⟨hnone, -⟩
  · have heq := hat.key_eq hkey
    subst heq
    have htrace := hat.trace.symm.trans hempty
    cases ph with
    | lookup =>
      have hcall := hat.rest.symm.trans hrest
      rw [Phase.rest, customRouteHandler, hkey] at hcall
      cases hcall
      have hanswer : (handler (.getResponse key') s).1 = some data := hlive
      rw [hanswer]
      constructor
      · intro o ho
        rw [Thread.answered, hempty] at ho
        simp at ho
      · exact fun _ => congrArg (fun x => some (Except.ok x)) hsent
    | releasing ending stored => cases stored <;> cases htrace
    | finished ending stored => cases stored <;> cases htrace
    | _ => cases htrace
  · rw [hnone] at hkey
    cases hkey

/-- The first request has ended, and those started later are answered with its response. -/
structure LaterLedger (key : String) (i n : ℕ) (r : HttpResponse) (data : CachedResponse)
    (x : RouteThread) (p : RoutePool) : Prop where
  ledger : ReplayLedger key i r data p
  ended : p.threads[i]? = some x ∧ x.nextCall = none
  later : ∀ j y, n ≤ j → p.threads[j]? = some y → y.tag.key = some key → Replays r.sent y

variable {x : RouteThread}

theorem ReplayLedger.of_ended (h : ReplayLedger key i r data p) (hx : p.threads[i]? = some x)
    (hended : x.nextCall = none) :
    p.state.response key = some data ∧ ending x = some (.ok r.sent) := by
  obtain ⟨x', hx', hstands⟩ := h.own
  rw [hx] at hx'
  cases hx'
  rcases hstands with hstoring | ⟨hdata, hreleasing | hfinished⟩
  · rw [Thread.nextCall_of_rest hstoring.rest] at hended
    cases hended
  · rw [Thread.nextCall_of_rest hreleasing.rest] at hended
    cases hended
  · refine ⟨hdata, ?_⟩
    rw [ending, hfinished.rest]
    rfl

theorem LaterLedger.step (h : LaterLedger key i n r data x p)
    (hsent : (IdempotencyManager.rebuild data).sent = r.sent) {m : RouteMove}
    (hwithin : RoutePool.WithinTtl key p m) (hexclusive : RoutePool.Exclusive key p m) :
    LaterLedger key i n r data x (routes.step p m) := by
  obtain ⟨hlive, -⟩ := h.ledger.of_ended h.ended.1 h.ended.2
  refine ⟨h.ledger.step hwithin hexclusive, ?_, fun j y hj hy hkey => ?_⟩
  · obtain ⟨x', hx', rfl | ⟨c, next, hrest, -⟩⟩ := routes.step_getElem? h.ended.1 m
    · exact ⟨hx', h.ended.2⟩
    · have hnone := h.ended.2
      rw [Thread.nextCall_of_rest hrest] at hnone
      cases hnone
  · rcases routes.step_thread hy with hold | ⟨a, -, -, rfl⟩ | ⟨th, c, next, -, hth, hrest, rfl⟩
    · exact h.later j y hj hold hkey
    · exact ⟨fun o => List.not_mem_nil, fun hne => absurd rfl hne⟩
    · have htracked := h.ledger.lock.tracked th (List.mem_of_getElem? hth)
      exact (h.later j th hj hth hkey).answered htracked hkey hlive hsent hrest

end later

namespace RoutePool

variable [Starlette]

/-- The end of the handler with a replayable response starts the ledger of the request. -/
theorem replayLedger_of_handle {key : String} {p : RoutePool} (h : LockLedger key p) {i : ℕ}
    {x : RouteThread} {r : HttpResponse} {data : CachedResponse} (hx : p.threads[i]? = some x)
    (hkey : x.tag.key = some key) (hends : x.nextCall = some (.handle (.response r)))
    (hstatus : 200 ≤ r.statusCode ∧ r.statusCode < 500)
    (hdata : IdempotencyManager.cachedData r = some data) :
    ReplayLedger key i r data (routes.step p (.advance i)) := by
  obtain ⟨next, hrest⟩ := Thread.rest_of_nextCall hends
  have hlt : i < p.threads.length := (List.getElem?_eq_some_iff.mp hx).1
  have hlock := h.step (m := .advance i) trivial
  rw [routes.step_advance hx hrest] at hlock ⊢
  rcases (h.tracked x (List.mem_of_getElem? hx)).call_cases hrest () with
    ⟨htag, -⟩ | ⟨ph, ph', hat, hnext, hat'⟩
  · exact absurd hkey htag
  · obtain ⟨houtcome, rfl, rfl⟩ := hnext.of_handle
    have hstores : Stores x.tag r data := ⟨houtcome.symm, hstatus, hdata⟩
    have hafter := hstores.afterHandle
    rw [← houtcome] at hafter
    rw [hafter] at hat'
    refine ⟨hlock, fun j y hji hy => ?_, _, List.getElem?_set_self hlt, .inl hat'⟩
    rw [List.getElem?_set_ne (Ne.symm hji)] at hy
    exact h.others_idle hx (hat.atWork_iff.mpr rfl) hji hy

/-- When the handler of a request has ended with a replayable response, then in every run within the
lifetime of the stored response in which no lock is lost to its expiry and no lookup is outdated,
the request and all that are started after it get this response, and these without a run of the
handler. -/
theorem replay_faithful {key : String} {s : Store} {p₀ p q : RoutePool} {i : ℕ}
    {x₀ x : RouteThread} {r : HttpResponse}
    (hstart : RunsWhere routes.step (Exclusive key) (start s) p₀) (hx₀ : p₀.threads[i]? = some x₀)
    (hkey : x₀.tag.key = some key) (hends : x₀.nextCall = some (.handle (.response r)))
    (hstatus : 200 ≤ r.statusCode ∧ r.statusCode < 500) (hreplayable : Replayable r)
    (hrun : RunsWhere routes.step (fun p m => WithinTtl key p m ∧ Exclusive key p m)
      (routes.step p₀ (.advance i)) p)
    (hx : p.threads[i]? = some x) (hended : x.nextCall = none)
    (hlater : RunsWhere routes.step (fun p m => WithinTtl key p m ∧ Exclusive key p m) p q) :
    ending x = some (.ok r.sent) ∧ ∀ j y, p.threads.length ≤ j → q.threads[j]? = some y →
      y.tag.key = some key → Replays r.sent y := by
  obtain ⟨data, hdata, hsent⟩ := hreplayable.rebuild_sent
  have hlock : LockLedger key p₀ := hstart.invariant (.start s) (fun _ _ hok hp => hp.step hok.1)
  have hledger : ReplayLedger key i r data p :=
    hrun.invariant (replayLedger_of_handle hlock hx₀ hkey hends hstatus hdata)
      (fun _ _ hok hp => hp.step hok.1 hok.2)
  refine ⟨(hledger.of_ended hx hended).2, ?_⟩
  have hfirst : LaterLedger key i p.threads.length r data x p := by
    refine ⟨hledger, ⟨hx, hended⟩, fun j y hj hy _ => ?_⟩
    rw [List.getElem?_eq_none hj] at hy
    cases hy
  have hlast := hlater.invariant (I := LaterLedger key i p.threads.length r data x) hfirst
    (fun _ _ hok hp => hp.step hsent hok.1 hok.2)
  exact hlast.later

/-! ### Requests made twice -/

def dlqRequest (path : String) (outcome : Outcome) : RouteMove :=
  .spawn ⟨⟨"GET", "/api/v0/common/dlq/" ++ path, [("idempotency-key", "k")]⟩, outcome⟩

def dlqKey (path : String) : String := "GET:/api/v0/common/dlq/" ++ path ++ ":k"

def twice (m : RouteMove) : List RouteMove := m :: proceed 0 5 ++ m :: proceed 1 5

omit [Starlette] in
/-- The run in three parts: until the handler ends, until the first request has ended, the rest. -/
theorem run_twice (step : RoutePool → RouteMove → RoutePool) (p : RoutePool) (m : RouteMove) :
    run step p (twice m) = run step (run step (step (run step p (m :: proceed 0 2)) (.advance 0))
      (proceed 0 2)) (m :: proceed 1 5) := rfl

def exportResponse : HttpResponse where
  statusCode := 200
  headers := [("content-disposition", "attachment; filename=dlq_export.csv"),
    ("content-type", "text/csv; charset=utf-8")]
  content := .stream ["ID,Celery Task ID,Task Name,Queue,Exception Type,Exception Message,".toUTF8,
    "Retry Count,Failed At\r\n".toUTF8]
  mediaType := some "text/csv"

def taskNotFound : Outcome := .httpException 404 "Dead letter task with ID '0' not found."

omit [Starlette] in
theorem replay_faithful_stats :
    letI := Starlette.plain
    ∃ y, (run routes.step (start emptyStore)
      (twice (dlqRequest "stats" (.response jsonResponse)))).threads[1]? = some y ∧
      Replays jsonResponse.sent y := by
  let _ := Starlette.plain
  rw [run_twice]
  generalize hrequest : dlqRequest "stats" (.response jsonResponse) = request
  generalize hhandling : run routes.step (start emptyStore) (request :: proceed 0 2) = handling
  generalize hended : run routes.step (routes.step handling (.advance 0)) (proceed 0 2) = ended
  generalize hlast : run routes.step ended (request :: proceed 1 5) = last
  have hstart : RunsWhere routes.step (Exclusive (dlqKey "stats")) (start emptyStore) handling := by
    subst hrequest hhandling
    apply EveryStep.runsWhere
    decide +kernel
  have hrun : RunsWhere routes.step (fun p m => WithinTtl (dlqKey "stats") p m ∧
      Exclusive (dlqKey "stats") p m) (routes.step handling (.advance 0)) ended := by
    subst hrequest hhandling hended
    apply EveryStep.runsWhere
    decide +kernel
  have hlater : RunsWhere routes.step (fun p m => WithinTtl (dlqKey "stats") p m ∧
      Exclusive (dlqKey "stats") p m) ended last := by
    subst hrequest hhandling hended hlast
    apply EveryStep.runsWhere
    decide +kernel
  have hfirst : ∃ x₀ ∈ handling.threads[0]?, x₀.tag.key = some (dlqKey "stats") ∧
      x₀.nextCall = some (.handle (.response jsonResponse)) := by
    subst hrequest hhandling
    decide +kernel
  have hdone : ended.threads.length = 1 ∧ ∃ x ∈ ended.threads[0]?, x.nextCall = none := by
    subst hrequest hhandling hended
    decide +kernel
  have hsecond : ∃ y ∈ last.threads[1]?, y.tag.key = some (dlqKey "stats") := by
    subst hrequest hhandling hended hlast
    decide +kernel
  obtain ⟨x₀, hx₀, hkey, hends⟩ := hfirst
  obtain ⟨hlength, x, hx, hnone⟩ := hdone
  obtain ⟨y, hy, hykey⟩ := hsecond
  have hfaithful := replay_faithful hstart hx₀ hkey hends (by decide)
    ⟨by decide +kernel, by decide +kernel, by decide +kernel⟩ hrun hx hnone hlater
  exact ⟨y, hy, hfaithful.2 1 y (by omega) hy hykey⟩

omit [Starlette] in
/-- An export comes back without its content, and after a 404 the handler runs again. -/
theorem not_replay_faithful :
    letI := Starlette.plain
    (EveryStep routes.step (fun p m => WithinTtl (dlqKey "export") p m ∧
        Exclusive (dlqKey "export") p m) (start emptyStore)
        (twice (dlqRequest "export" (.response exportResponse))) ∧
      (run routes.step (start emptyStore)
        (twice (dlqRequest "export" (.response exportResponse)))).threads.map ending =
        [some (.ok exportResponse.sent),
          some (.ok ⟨200, exportResponse.headers ++ [("content-length", "0")], .empty⟩)] ∧
      exportResponse.sent.bytes ≠ .empty) ∧
    EveryStep routes.step (fun p m => WithinTtl (dlqKey "0") p m ∧ Exclusive (dlqKey "0") p m)
      (start emptyStore) (twice (dlqRequest "0" taskNotFound)) ∧
    ∀ i ∈ [0, 1], ∃ th ∈ (run routes.step (start emptyStore)
      (twice (dlqRequest "0" taskNotFound))).threads[i]?, ⟨.handle taskNotFound, ()⟩ ∈ th.trace := by
  let _ := Starlette.plain
  decide +kernel

end RoutePool
end FastapiTemplate.Idempotency
