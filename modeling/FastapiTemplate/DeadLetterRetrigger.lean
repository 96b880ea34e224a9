import FastapiTemplate.DeadLetterTasks

/-!
# Retriggering dead letter tasks

`retrigger_tasks` removes the selected rows in one statement and then sends the tasks one by
one. A send may be refused, or reach the broker and raise all the same, and the process may
stop after any call.
-/

namespace FastapiTemplate.DeadLetter

open PyValue

structure TaskMessage where
  taskName : String
  args : PyValue
  kwargs : PyValue
  queue : String

/-- With the id of the dead letter task, which is not part of the call. -/
inductive DlqCall
  | fetchAndDelete (taskIds : Option (List ℕ)) (taskName : Option String)
  | sendTask (dlqId : ℕ) (message : TaskMessage)

inductive DlqError
  | jsonDecode
  | send
  | notFound (detail : String)
  deriving DecidableEq, Repr

@[reducible] def DlqCall.Answer : DlqCall → Type
  | .fetchAndDelete .. => Except DlqError (List DLQTaskResponse)
  | .sendTask .. => Except DlqError Unit

abbrev DlqProgram (α : Type) := Program DlqCall DlqCall.Answer DlqError α

structure DLQRetriggerRequest where
  taskIds : Option (List ℕ)
  taskName : Option String

structure DLQActionResponse where
  message : String
  affectedCount : ℕ

/-- The loop over the tasks, which an exception of `send_task` leaves. -/
def sendTasks : List DLQTaskResponse → DlqProgram ℕ
  | [] => pure 0
  | t :: ts => do
    Program.ofExcept (← Program.perform (.sendTask t.id ⟨t.taskName, t.args, t.kwargs, t.queue⟩))
    let count ← sendTasks ts
    pure (count + 1)

def targetIds (request : Option DLQRetriggerRequest) (taskId : Option ℕ) : Option (List ℕ) :=
  match taskId with
  | some id => some [id]
  | none => request.bind (·.taskIds)

def sendRemoved (taskId : Option ℕ) (tasks : List DLQTaskResponse) : DlqProgram DLQActionResponse :=
  if tasks.isEmpty then
    match taskId with
    | some id => Program.raise (.notFound ("Dead letter task with ID '" ++ toString id ++
        "' not found or already deleted."))
    | none => pure ⟨"No matching tasks found to retrigger", 0⟩
  else do
    let count ← sendTasks tasks
    pure ⟨"Successfully retriggered " ++ toString count ++ " task(s).", count⟩

def retriggerTasks (request : Option DLQRetriggerRequest) (taskId : Option ℕ) :
    DlqProgram DLQActionResponse := do
  let tasks ← Program.ofExcept (← Program.perform
    (.fetchAndDelete (targetIds request taskId) (request.bind (·.taskName))))
  sendRemoved taskId tasks

/-! ## The table and the broker -/

inductive SendOutcome
  | sent
  | refused
  | sentAndRaised
  deriving DecidableEq, Repr

def SendOutcome.handsOver : SendOutcome → Bool
  | .refused => false
  | _ => true

def SendOutcome.answer : SendOutcome → Except DlqError Unit
  | .sent => .ok ()
  | _ => .error .send

structure Send where
  dlqId : ℕ
  message : TaskMessage
  outcome : SendOutcome

structure Server where
  table : DeadLetterTable
  sends : List Send

/-- The outcome of each send is given by its position. -/
def Server.handler (outcome : ℕ → SendOutcome) : (c : DlqCall) → Server → c.Answer × Server
  | .fetchAndDelete taskIds taskName, s =>
    let (deleted, kept) := fetchAndDeleteTasks taskIds taskName s.table
    (match deleted.mapM DLQTaskResponse.ofRow with
      | some tasks => .ok tasks
      | none => .error .jsonDecode,
      { s with table := kept })
  | .sendTask dlqId message, s =>
    ((outcome s.sends.length).answer,
      { s with sends := s.sends ++ [⟨dlqId, message, outcome s.sends.length⟩] })

def Server.HandedOver (s : Server) (dlqId : ℕ) : Prop :=
  ∃ send ∈ s.sends, send.dlqId = dlqId ∧ send.outcome.handsOver = true

/-! ## What is read from a row -/

theorem mapM_ofRow (rows : List DeadLetterRow) :
    rows.mapM DLQTaskResponse.ofRow = some (rows.map responseOf) := by
  induction rows with
  | nil => rfl
  | cons row rows ih =>
    rw [List.mapM_cons, ofRow_eq, ih]
    rfl

theorem handler_fetchAndDelete (outcome : ℕ → SendOutcome) (taskIds : Option (List ℕ))
    (taskName : Option String) (s : Server) :
    Server.handler outcome (.fetchAndDelete taskIds taskName) s =
      (.ok ((s.table.rows.filter (selects taskIds taskName)).map responseOf),
        { s with table := s.table.filter (fun row => !selects taskIds taskName row) }) := by
  simp only [Server.handler, fetchAndDeleteTasks, mapM_ofRow]

def selectedRows (request : Option DLQRetriggerRequest) (taskId : Option ℕ)
    (table : DeadLetterTable) : List DeadLetterRow :=
  table.rows.filter (selects (targetIds request taskId) (request.bind (·.taskName)))

/-! ## Stopping between the sends -/

theorem handedOver_append {s : Server} {send : Send} {id : ℕ} :
    Server.HandedOver { s with sends := s.sends ++ [send] } id ↔
      s.HandedOver id ∨ send.dlqId = id ∧ send.outcome.handsOver = true := by
  simp only [Server.HandedOver, List.mem_append, List.mem_singleton]
  constructor
  · rintro ⟨x, hx | rfl, hsend⟩
    · exact .inl ⟨x, hx, hsend⟩
    · exact .inr hsend
  · rintro (⟨x, hx, hsend⟩ | hsend)
    · exact ⟨x, .inl hx, hsend⟩
    · exact ⟨send, .inr rfl, hsend⟩

/-- `count` sends from `start` on all hand their task over, and only the last may raise. -/
def SendsGoThrough (outcome : ℕ → SendOutcome) (start count : ℕ) : Prop :=
  ∀ i < count, (outcome (start + i)).handsOver = true ∧
    (i + 1 < count → outcome (start + i) = .sent)

theorem sendsGoThrough_succ {outcome : ℕ → SendOutcome} {start count : ℕ}
    (hsent : outcome start = .sent) :
    SendsGoThrough outcome start (count + 1) ↔ SendsGoThrough outcome (start + 1) count := by
  constructor
  · intro h i hi
    have hnext := h (i + 1) (by omega)
    rw [show start + (i + 1) = start + 1 + i by omega] at hnext
    exact ⟨hnext.1, fun hlt => hnext.2 (by omega)⟩
  · intro h i hi
    cases i with
    | zero =>
      rw [Nat.add_zero, hsent]
      exact ⟨rfl, fun _ => rfl⟩
    | succ i =>
      have hprev := h i (by omega)
      rw [show start + 1 + i = start + (i + 1) by omega] at hprev
      exact ⟨hprev.1, fun hlt => hprev.2 (by omega)⟩

theorem not_sendsGoThrough {outcome : ℕ → SendOutcome} {start count : ℕ}
    (hrefused : outcome start = .refused) : ¬ SendsGoThrough outcome start (count + 1) := by
  intro h
  have hfirst := (h 0 (Nat.zero_lt_succ _)).1
  rw [Nat.add_zero, hrefused] at hfirst
  cases hfirst

/-- A send that raises has to be the last one. -/
theorem sendsGoThrough_raised {outcome : ℕ → SendOutcome} {start count : ℕ}
    (hraised : outcome start = .sentAndRaised) :
    SendsGoThrough outcome start (count + 1) ↔ count = 0 := by
  constructor
  · intro h
    by_contra hne
    have hfirst := (h 0 (Nat.zero_lt_succ _)).2 (by omega)
    rw [Nat.add_zero, hraised] at hfirst
    cases hfirst
  · rintro rfl i hi
    have hzero : i = 0 := Nat.lt_one_iff.mp hi
    rw [hzero, Nat.add_zero, hraised]
    exact ⟨rfl, fun hlt => absurd hlt (Nat.lt_irrefl 1)⟩

section sends
variable (outcome : ℕ → SendOutcome)

def Server.afterSend (s : Server) (t : DLQTaskResponse) : Server :=
  { s with sends := s.sends ++ [⟨t.id, ⟨t.taskName, t.args, t.kwargs, t.queue⟩,
    outcome s.sends.length⟩] }

theorem executeFor_sendTasks (n : ℕ) (t : DLQTaskResponse) (ts : List DLQTaskResponse) (s : Server) :
    Program.executeFor (Server.handler outcome) (n + 1) (sendTasks (t :: ts)) s =
      if outcome s.sends.length = .sent then
        Program.executeFor (Server.handler outcome) n (sendTasks ts) (s.afterSend outcome t)
      else s.afterSend outcome t := by
  change Program.executeFor (Server.handler outcome) n
    (Program.ofExcept (outcome s.sends.length).answer >>= fun _ =>
      sendTasks ts >>= fun count => pure (count + 1)) (s.afterSend outcome t) = _
  cases outcome s.sends.length with
  | sent => exact Program.executeFor_bind_pure _ _ _ _ _
  | refused => exact Program.executeFor_raise _ _ _ _
  | sentAndRaised => exact Program.executeFor_raise _ _ _ _

theorem sends_table (ts : List DLQTaskResponse) (n : ℕ) (s : Server) :
    (Program.executeFor (Server.handler outcome) n (sendTasks ts) s).table = s.table := by
  induction ts generalizing n s with
  | nil => cases n <;> rfl
  | cons t ts ih =>
    cases n with
    | zero => rfl
    | succ n =>
      rw [executeFor_sendTasks]
      split_ifs
      · exact ih n _
      · rfl

/-- What has been handed over stays so. -/
theorem HandedOver.sends {s : Server} {id : ℕ} (h : s.HandedOver id) (ts : List DLQTaskResponse)
    (n : ℕ) : (Program.executeFor (Server.handler outcome) n (sendTasks ts) s).HandedOver id := by
  induction ts generalizing n s with
  | nil => cases n <;> exact h
  | cons t ts ih =>
    cases n with
    | zero => exact h
    | succ n =>
      have hnext : (s.afterSend outcome t).HandedOver id := handedOver_append.mpr (.inl h)
      rw [executeFor_sendTasks]
      split_ifs
      · exact ih hnext n
      · exact hnext

theorem allHandedOver_iff (ts : List DLQTaskResponse) (n : ℕ) (s : Server)
    (hids : (ts.map (·.id)).Nodup) (hnew : ∀ t ∈ ts, ¬ s.HandedOver t.id) :
    (∀ t ∈ ts, (Program.executeFor (Server.handler outcome) n (sendTasks ts) s).HandedOver t.id) ↔
      ts.length ≤ n ∧ SendsGoThrough outcome s.sends.length ts.length := by
  induction ts generalizing n s with
  | nil =>
    constructor
    · exact fun _ => ⟨Nat.zero_le n, fun i hi => absurd hi (Nat.not_lt_zero i)⟩
    · exact fun _ t ht => absurd ht List.not_mem_nil
  | cons t ts ih =>
    have ht := hnew t List.mem_cons_self
    rw [List.map_cons, List.nodup_cons] at hids
    have hother {u : DLQTaskResponse} (hu : u ∈ ts) : t.id ≠ u.id := by
      intro heq
      exact hids.1 (List.mem_map.mpr ⟨u, hu, heq.symm⟩)
    have hnext {u : DLQTaskResponse} (hu : u ∈ ts) : ¬ (s.afterSend outcome t).HandedOver u.id := by
      intro h
      rcases handedOver_append.mp h with h | h
      · exact hnew u (List.mem_cons_of_mem t hu) h
      · exact hother hu h.1
    cases n with
    | zero =>
      constructor
      · intro h
        exact absurd (h t List.mem_cons_self) ht
      · intro h
        exact absurd h.1 (Nat.not_succ_le_zero _)
    | succ n =>
      rw [executeFor_sendTasks]
      cases hout : outcome s.sends.length with
      | sent =>
        have hsent : (s.afterSend outcome t).HandedOver t.id :=
          handedOver_append.mpr (.inr ⟨rfl, by rw [hout]; rfl⟩)
        have hlength : (s.afterSend outcome t).sends.length = s.sends.length + 1 := by
          simp [Server.afterSend]
        have hrest := ih n (s.afterSend outcome t) hids.2 (fun u hu => hnext hu)
        rw [if_pos rfl, List.forall_mem_cons, hrest, hlength, List.length_cons,
          sendsGoThrough_succ hout]
        constructor
        · rintro ⟨_, hn, hgo⟩
          exact ⟨by omega, hgo⟩
        · rintro ⟨hn, hgo⟩
          exact ⟨HandedOver.sends outcome hsent ts n, by omega, hgo⟩
      | refused =>
        rw [if_neg (by decide)]
        refine iff_of_false (fun h => ?_) (fun h => not_sendsGoThrough hout h.2)
        rcases handedOver_append.mp (h t List.mem_cons_self) with h | h
        · exact ht h
        · rw [hout] at h
          cases h.2
      | sentAndRaised =>
        have hsent : (s.afterSend outcome t).HandedOver t.id :=
          handedOver_append.mpr (.inr ⟨rfl, by rw [hout]; rfl⟩)
        rw [if_neg (by decide), List.forall_mem_cons, List.length_cons, sendsGoThrough_raised hout]
        constructor
        · rintro ⟨-, hall⟩
          cases ts with
          | nil => exact ⟨Nat.succ_le_succ (Nat.zero_le n), rfl⟩
          | cons u us => exact absurd (hall u List.mem_cons_self) (hnext List.mem_cons_self)
        · rintro ⟨-, hempty⟩
          rw [List.length_eq_zero_iff.mp hempty]
          exact ⟨hsent, fun u hu => absurd hu List.not_mem_nil⟩

/-- Every send passes on one of the tasks. -/
theorem mem_sends (ts : List DLQTaskResponse) (n : ℕ) (s : Server) {send : Send}
    (h : send ∈ (Program.executeFor (Server.handler outcome) n (sendTasks ts) s).sends) :
    send ∈ s.sends ∨ ∃ t ∈ ts, send.dlqId = t.id ∧
      send.message = ⟨t.taskName, t.args, t.kwargs, t.queue⟩ := by
  induction ts generalizing n s with
  | nil => cases n <;> exact .inl h
  | cons t ts ih =>
    cases n with
    | zero => exact .inl h
    | succ n =>
      have hfirst : send ∈ (s.afterSend outcome t).sends → send ∈ s.sends ∨ ∃ u ∈ t :: ts,
          send.dlqId = u.id ∧ send.message = ⟨u.taskName, u.args, u.kwargs, u.queue⟩ := by
        intro hsend
        rcases List.mem_append.mp hsend with hsend | hsend
        · exact .inl hsend
        · cases List.mem_singleton.mp hsend
          exact .inr ⟨t, List.mem_cons_self, rfl, rfl⟩
      rw [executeFor_sendTasks] at h
      split_ifs at h
      · rcases ih n _ h with hsend | ⟨u, hu, hsend⟩
        · exact hfirst hsend
        · exact .inr ⟨u, List.mem_cons_of_mem t hu, hsend⟩
      · exact hfirst h

end sends

/-! ## Whole requests -/

section requests
variable (outcome : ℕ → SendOutcome) (request : Option DLQRetriggerRequest) (taskId : Option ℕ)

def Server.afterDelete (s : Server) : Server :=
  let keep := fun row => !selects (targetIds request taskId) (request.bind (·.taskName)) row
  { s with table := s.table.filter keep }

theorem executeFor_retriggerTasks (n : ℕ) (s : Server) :
    Program.executeFor (Server.handler outcome) (n + 1) (retriggerTasks request taskId) s =
      Program.executeFor (Server.handler outcome) n
        (sendTasks ((selectedRows request taskId s.table).map responseOf))
        (s.afterDelete request taskId) := by
  have hcall : Server.handler outcome
      (.fetchAndDelete (targetIds request taskId) (request.bind (·.taskName))) s =
      (.ok ((selectedRows request taskId s.table).map responseOf),
        s.afterDelete request taskId) := handler_fetchAndDelete outcome _ _ s
  have hprogram : retriggerTasks request taskId = Program.call
      (.fetchAndDelete (targetIds request taskId) (request.bind (·.taskName)))
      (fun answer => Program.ofExcept answer >>= sendRemoved taskId) := rfl
  rw [hprogram, Program.executeFor, hcall]
  cases hrows : (selectedRows request taskId s.table).map responseOf with
  | nil =>
    cases n with
    | zero => rfl
    | succ n => cases taskId <;> rfl
  | cons t ts => exact Program.executeFor_bind_pure _ n _ _ _

theorem afterDelete_rows {s : Server} {row : DeadLetterRow}
    (h : row ∈ selectedRows request taskId s.table) :
    row ∉ (s.afterDelete request taskId).table.rows := by
  intro hkept
  have hselected := (List.mem_filter.mp h).2
  have hnot := (List.mem_filter.mp hkept).2
  rw [hselected] at hnot
  cases hnot

theorem selectedRows_idsApart (table : DeadLetterTable) :
    (((selectedRows request taskId table).map responseOf).map (·.id)).Nodup := by
  rw [List.map_map]
  exact table.idsApart.sublist (List.filter_sublist.map _)

/-- After the first call the selected rows are no longer in the table. -/
theorem selected_removed (n : ℕ) {table : DeadLetterTable} {row : DeadLetterRow}
    (hrow : row ∈ selectedRows request taskId table) :
    row ∉ (Program.executeFor (Server.handler outcome) (n + 1) (retriggerTasks request taskId)
      ⟨table, []⟩).table.rows := by
  rw [executeFor_retriggerTasks, sends_table]
  exact afterDelete_rows request taskId hrow

theorem selected_handedOver_iff (n : ℕ) (table : DeadLetterTable) :
    (∀ row ∈ selectedRows request taskId table, (Program.executeFor (Server.handler outcome) (n + 1)
      (retriggerTasks request taskId) ⟨table, []⟩).HandedOver row.id) ↔
      (selectedRows request taskId table).length ≤ n ∧
        SendsGoThrough outcome 0 (selectedRows request taskId table).length := by
  let tasks := (selectedRows request taskId table).map responseOf
  let start : Server := Server.afterDelete request taskId ⟨table, []⟩
  have hnew : ∀ t ∈ tasks, ¬ start.HandedOver t.id := by
    rintro t - ⟨send, hsend, -⟩
    exact absurd hsend List.not_mem_nil
  have hhanded := allHandedOver_iff outcome tasks n start
    (selectedRows_idsApart request taskId table) hnew
  rw [List.forall_mem_map, List.length_map] at hhanded
  rw [executeFor_retriggerTasks]
  exact hhanded

/-- Whatever is sent for a row of the table is what the row says. -/
theorem send_of_row (n : ℕ) {table : DeadLetterTable} {row : DeadLetterRow} (hrow : row ∈ table.rows)
    {send : Send} (hsend : send ∈ (Program.executeFor (Server.handler outcome) n
      (retriggerTasks request taskId) ⟨table, []⟩).sends) (hid : send.dlqId = row.id) :
    send.message = ⟨row.taskName, (responseOf row).args, (responseOf row).kwargs, row.queue⟩ := by
  cases n with
  | zero => exact absurd hsend List.not_mem_nil
  | succ n =>
    rw [executeFor_retriggerTasks] at hsend
    rcases mem_sends outcome _ n _ hsend with h | ⟨t, ht, hsame, hmessage⟩
    · exact absurd h List.not_mem_nil
    · obtain ⟨other, hother, rfl⟩ := List.mem_map.mp ht
      have hmem : other ∈ table.rows := (List.mem_filter.mp hother).1
      have heq : other = row :=
        List.inj_on_of_nodup_map table.idsApart hmem hrow (hsame.symm.trans hid)
      rw [hmessage, heq]
      rfl

end requests

/-! ## From the failure to the broker -/

/-- A task that the hook has recorded is sent with its name, its arguments and the recorded queue
by every request that selects it; if all the sends go through, it is sent. -/
theorem sent_as_it_failed (outcome : ℕ → SendOutcome) (request : Option DLQRetriggerRequest)
    (taskId : Option ℕ) (n : ℕ) {dbInstance : Bool} {f : TaskFailure} {sender : Sender}
    {args : List PyValue} {kwargs : List (String × PyValue)} {id now : ℕ}
    {before table : DeadLetterTable} {row : DeadLetterRow} (hsender : f.sender = some sender)
    (hargs : f.args = some args) (hkwargs : f.kwargs = some kwargs)
    (hjsonArgs : (PyValue.list args).IsJson) (hjsonKwargs : (PyValue.dict kwargs).IsJson)
    (hsaved : row ∈ (handleTaskFailure dbInstance f id now before).rows) (hnew : row ∉ before.rows)
    (hrow : row ∈ selectedRows request taskId table) :
    let server := Program.executeFor (Server.handler outcome) n (retriggerTasks request taskId)
      ⟨table, []⟩
    (∀ send ∈ server.sends, send.dlqId = row.id →
      send.message = ⟨sender.name, .list args, .dict kwargs, row.queue⟩) ∧
    ((selectedRows request taskId table).length < n →
      SendsGoThrough outcome 0 (selectedRows request taskId table).length →
      row ∉ server.table.rows ∧
        ∃ send ∈ server.sends, send.dlqId = row.id ∧ send.outcome.handsOver = true) := by
  obtain ⟨payload, hpayload, hrowOf⟩ := mem_handleTaskFailure hsaved hnew
  obtain ⟨sender', hsender', hname, hpargs, hpkwargs⟩ := failurePayload_spec hpayload
  rw [hsender] at hsender'
  cases hsender'
  rw [hargs, Option.getD_some] at hpargs
  rw [hkwargs, Option.getD_some] at hpkwargs
  obtain ⟨hrowName, hrowArgs, hrowKwargs⟩ :=
    rowOf_response hrowOf (hpargs.symm ▸ hjsonArgs) (hpkwargs.symm ▸ hjsonKwargs)
  intro server
  constructor
  · intro send hsend hid
    rw [send_of_row outcome request taskId n (List.mem_filter.mp hrow).1 hsend hid, hrowName, hname,
      hrowArgs, hpargs, hrowKwargs, hpkwargs]
  · intro hlt hgo
    cases n with
    | zero => exact absurd hlt (Nat.not_lt_zero _)
    | succ n =>
      have hall := (selected_handedOver_iff outcome request taskId n table).mpr
        ⟨Nat.le_of_lt_succ hlt, hgo⟩
      exact ⟨selected_removed outcome request taskId n hrow, hall row hrow⟩

def syncFailure : TaskFailure where
  sender := some ⟨"jobs.sync", none, none, 3⟩
  taskId := some "af31"
  exception := some ⟨"OSError", "connection refused", ""⟩
  args := some [.str "[1, 2]", .list [.int 7, .null]]
  kwargs := some [("region", .dict [("name", .str "eu")])]
  traceback := none
  einfo := none

def syncPayload (taskId : String) : FailurePayload :=
  ⟨taskId, "jobs.sync", "default", [.str "[1, 2]", .list [.int 7, .null]],
    [("region", .dict [("name", .str "eu")])], [], "OSError", "connection refused", "", 3⟩

theorem exists_syncRow {taskId : String} (hfits : (syncPayload taskId).fits = true) (id now : ℕ) :
    ∃ row, rowOf (syncPayload taskId) id now = some row ∧ row.id = id := by
  have hargs : (PyValue.list [.str "[1, 2]", .list [.int 7, .null]]).IsJson := by decide
  have hkwargs : (PyValue.dict [("region", .dict [("name", .str "eu")])]).IsJson := by decide
  exact exists_rowOf hargs hkwargs ⟨rfl, rfl⟩ hfits id now

theorem syncFailure_sent : ∃ row, row ∈ (handleTaskFailure true syncFailure 1 0 .empty).rows ∧
    let server := Program.executeFor (Server.handler fun _ => .sent) 2 (retriggerTasks none (some 1))
      ⟨handleTaskFailure true syncFailure 1 0 .empty, []⟩
    ∃ send ∈ server.sends, send.message = ⟨"jobs.sync", .list [.str "[1, 2]", .list [.int 7, .null]],
      .dict [("region", .dict [("name", .str "eu")])], row.queue⟩ := by
  have hargs : (PyValue.list (syncPayload "af31").args).IsJson := by decide
  have hkwargs : (PyValue.dict (syncPayload "af31").kwargs).IsJson := by decide
  have hpayload : failurePayload syncFailure = some (syncPayload "af31") := rfl
  obtain ⟨row, hrow, hid⟩ := @exists_syncRow "af31" (by decide) 1 0
  have htable : (handleTaskFailure true syncFailure 1 0 .empty).rows = [row] := by
    simp only [handleTaskFailure, hpayload, if_pos, saveDeadLetterTask, hrow]
    rfl
  have hmem : row ∈ (handleTaskFailure true syncFailure 1 0 .empty).rows := by
    rw [htable]
    exact List.mem_singleton.mpr rfl
  have hselects : selects (targetIds none (some 1)) none row = true := by
    simp [selects, targetIds, hid]
  have hselected : selectedRows none (some 1) (handleTaskFailure true syncFailure 1 0 .empty) =
      [row] := by
    unfold selectedRows
    rw [htable]
    exact List.filter_eq_self.mpr (by simpa using hselects)
  have hall : SendsGoThrough (fun _ => .sent) 0 1 := fun _ _ => ⟨rfl, fun _ => rfl⟩
  have hsent := sent_as_it_failed (fun _ => .sent) none (some 1) 2 rfl rfl rfl hargs hkwargs hmem
    List.not_mem_nil (hselected ▸ List.mem_singleton.mpr rfl)
  rw [hselected] at hsent
  obtain ⟨-, send, hsend, hsame, -⟩ := hsent.2 (Nat.lt_succ_self 1) hall
  exact ⟨row, hmem, send, hsend, hsent.1 send hsend hsame⟩

/-! ## Tasks that are lost -/

/-- Every selected task is in the table or with the broker, whenever the process stops, exactly if
it stops before the rows are removed, or all the sends are made and go through. -/
theorem kept_or_handedOver_iff (outcome : ℕ → SendOutcome) (request : Option DLQRetriggerRequest)
    (taskId : Option ℕ) (n : ℕ) (table : DeadLetterTable) :
    let s := Program.executeFor (Server.handler outcome) n (retriggerTasks request taskId) ⟨table, []⟩
    (∀ row ∈ selectedRows request taskId table, row ∈ s.table.rows ∨ s.HandedOver row.id) ↔
      n = 0 ∨ (selectedRows request taskId table).length < n ∧
        SendsGoThrough outcome 0 (selectedRows request taskId table).length := by
  cases n with
  | zero =>
    constructor
    · exact fun _ => .inl rfl
    · exact fun _ row hrow => .inl (List.mem_filter.mp hrow).1
  | succ n =>
    have hhanded := selected_handedOver_iff outcome request taskId n table
    intro s
    constructor
    · intro h
      have hall := hhanded.mp (fun row hrow =>
        (h row hrow).resolve_left (selected_removed outcome request taskId n hrow))
      exact .inr ⟨Nat.lt_succ_of_le hall.1, hall.2⟩
    · rintro (hzero | ⟨hlt, hgo⟩) row hrow
      · cases hzero
      · exact .inr (hhanded.mpr ⟨Nat.le_of_lt_succ hlt, hgo⟩ row hrow)

def plainRow (id : ℕ) (args kwargs : String) : DeadLetterRow :=
  ⟨id, "af31", "send_welcome_email", "default", .ofStr args, .ofStr kwargs, .ofStr "{}",
    "OSError", "connection refused", "", 3, 0, 0, 0⟩

/-- The broker refuses the only send: the task is neither in the table nor with the broker. -/
theorem refused_task_lost : ¬ ∀ (outcome : ℕ → SendOutcome) (request : Option DLQRetriggerRequest)
    (taskId : Option ℕ) (n : ℕ) (table : DeadLetterTable),
    let s := Program.executeFor (Server.handler outcome) n (retriggerTasks request taskId) ⟨table, []⟩
    ∀ row ∈ selectedRows request taskId table, row ∈ s.table.rows ∨ s.HandedOver row.id := by
  intro h
  let table : DeadLetterTable := ⟨[plainRow 1 "[]" "{}"], List.nodup_singleton 1⟩
  have hrow : plainRow 1 "[]" "{}" ∈ selectedRows none (some 1) table := List.mem_singleton.mpr rfl
  rcases h (fun _ => .refused) none (some 1) 2 table _ hrow with hkept | hhanded
  · exact selected_removed _ none (some 1) 1 hrow hkept
  · have hall := (selected_handedOver_iff (fun _ => .refused) none (some 1) 1 table).mp (by
      intro other hother
      rw [List.mem_singleton.mp (List.mem_filter.mp hother).1]
      exact hhanded)
    have hfirst := (hall.2 0 Nat.zero_lt_one).1
    cases hfirst

end FastapiTemplate.DeadLetter
