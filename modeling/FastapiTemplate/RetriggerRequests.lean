import FastapiTemplate.DeadLetterLedger
import FastapiTemplate.ProgramProtocol

/-!
# Requests to retrigger at the same time

A request removes rows in one statement and then sends their tasks one by one, while failures are
recorded, rows are edited and deleted, and other requests do the same. A request may stop anywhere,
and a send may be refused, or reach the broker and raise all the same.
-/

namespace FastapiTemplate.DeadLetter

open DlqStatement


def retriggers (outcome : ℕ → SendOutcome) : PoolSystem DlqCall DlqCall.Answer DlqError
    DLQActionResponse (Option DLQRetriggerRequest × Option ℕ) DlqStatement Server where
  handler := Server.handler outcome
  environment l s := { s with table := execute s.table l }
  program target := retriggerTasks target.1 target.2

abbrev RetriggerPool := Pool DlqCall DlqCall.Answer DlqError DLQActionResponse
  (Option DLQRetriggerRequest × Option ℕ) Server

abbrev RetriggerMove := PoolMove (Option DLQRetriggerRequest × Option ℕ) DlqStatement

abbrev RetriggerThread := Thread DlqCall DlqCall.Answer DlqError DLQActionResponse
  (Option DLQRetriggerRequest × Option ℕ)

def idle : RetriggerPool := ⟨⟨.empty, []⟩, []⟩

def messageOf (t : DLQTaskResponse) : TaskMessage := ⟨t.taskName, t.args, t.kwargs, t.queue⟩

/-- A request holds the tasks that it has removed and not sent. -/
inductive RetriggerPhase
  | start
  | sending (left : List DLQTaskResponse)
  | ended

def RetriggerPhase.held : RetriggerPhase → List DLQTaskResponse
  | .sending left => left
  | _ => []

def retriggerProtocol : Protocol DlqCall DlqCall.Answer RetriggerPhase where
  permits phase c := match phase, c with
    | .start, .fetchAndDelete .. => True
    | .sending (t :: _), .sendTask dlqId message => dlqId = t.id ∧ message = messageOf t
    | _, _ => False
  after
    | .start, .fetchAndDelete .., .ok tasks => .sending tasks
    | .sending (_ :: ts), .sendTask .., .ok () => .sending ts
    | _, _, _ => .ended
  possible _ _ := True

def phaseOf (th : RetriggerThread) : RetriggerPhase :=
  th.trace.foldl (fun phase call => retriggerProtocol.after phase call.1 call.2) .start

theorem phaseOf_answered (th : RetriggerThread) (c : DlqCall) (r : c.Answer)
    (next : c.Answer → DlqProgram DLQActionResponse) :
    phaseOf (th.answered c r next) = retriggerProtocol.after (phaseOf th) c r := by
  rw [phaseOf, Thread.answered, List.foldl_append]
  rfl

abbrev Follows {α : Type} (phase : RetriggerPhase) (p : DlqProgram α) : Prop :=
  retriggerProtocol.Follows (fun _ _ => True) (fun _ _ => True) phase p

theorem follows_sendTasks (tasks : List DLQTaskResponse) :
    Follows (.sending tasks) (sendTasks tasks) := by
  induction tasks with
  | nil => trivial
  | cons t ts ih =>
    refine .perform_bind ⟨rfl, rfl⟩ (fun r _ => ?_)
    cases r with
    | error e => trivial
    | ok u =>
      change Follows (.sending ts) (sendTasks ts >>= fun count => pure (count + 1))
      exact .bind (fun _ _ => True) ih (fun _ _ _ => trivial)

theorem follows_retriggerTasks (request : Option DLQRetriggerRequest) (taskId : Option ℕ) :
    Follows .start (retriggerTasks request taskId) := by
  refine .perform_bind trivial (fun r _ => ?_)
  cases r with
  | error e => trivial
  | ok tasks =>
    change Follows (.sending tasks) (sendRemoved taskId tasks)
    unfold sendRemoved
    split_ifs
    · cases taskId <;> trivial
    · exact .bind (fun _ _ => True) (follows_sendTasks tasks) (fun _ _ _ => trivial)

def statements (p : RetriggerPool) : RetriggerMove → List DlqStatement
  | .environment l => [l]
  | .advance i =>
    match p.threads[i]?.bind (·.nextCall) with
    | some (.fetchAndDelete taskIds taskName) => [.fetchAndDeleteTasks taskIds taskName]
    | _ => []
  | .spawn _ => []

def tableLog (outcome : ℕ → SendOutcome) : RetriggerPool → List RetriggerMove → List DlqStatement
  | _, [] => []
  | p, m :: ms => statements p m ++ tableLog outcome ((retriggers outcome).step p m) ms

section pool
variable (outcome : ℕ → SendOutcome)

/-- The task that a message passes on was removed by a request, as the row stood then. -/
def RemovedFor (ls : List DlqStatement) (id : ℕ) (message : TaskMessage) : Prop :=
  ∃ before taskIds taskName after row,
    ls = before ++ .fetchAndDeleteTasks taskIds taskName :: after ∧
    actions.Left before row ∧ selects taskIds taskName row = true ∧ row.id = id ∧
      message = messageOf (responseOf row)

theorem RemovedFor.append {ls : List DlqStatement} {id : ℕ} {message : TaskMessage}
    (h : RemovedFor ls id message) (ms : List DlqStatement) : RemovedFor (ls ++ ms) id message := by
  obtain ⟨before, taskIds, taskName, after, row, rfl, h⟩ := h
  exact ⟨before, taskIds, taskName, after ++ ms, row, by simp, h⟩

structure Accounted (ls : List DlqStatement) (p : RetriggerPool) : Prop where
  table : p.state.table = run execute .empty ls
  follows : ∀ th ∈ p.threads, Follows (phaseOf th) th.rest
  sent : ∀ send ∈ p.state.sends, RemovedFor ls send.dlqId send.message
  held : ∀ th ∈ p.threads, ∀ t ∈ (phaseOf th).held, RemovedFor ls t.id (messageOf t)

inductive CallCase (th : RetriggerThread) : DlqCall → Prop
  | fetchAndDelete {taskIds : Option (List ℕ)} {taskName : Option String}
      (hphase : phaseOf th = .start) : CallCase th (.fetchAndDelete taskIds taskName)
  | sendTask {t : DLQTaskResponse} {ts : List DLQTaskResponse}
      (hphase : phaseOf th = .sending (t :: ts)) : CallCase th (.sendTask t.id (messageOf t))

theorem call_cases {th : RetriggerThread} {c : DlqCall}
    (h : retriggerProtocol.permits (phaseOf th) c) : CallCase th c := by
  cases hphase : phaseOf th with
  | start =>
    rw [hphase] at h
    cases c with
    | fetchAndDelete taskIds taskName => exact .fetchAndDelete hphase
    | sendTask dlqId message => exact h.elim
  | sending left =>
    rw [hphase] at h
    cases left with
    | nil => exact h.elim
    | cons t ts =>
      cases c with
      | fetchAndDelete taskIds taskName => exact h.elim
      | sendTask dlqId message =>
        obtain ⟨rfl, rfl⟩ := h
        exact .sendTask hphase
  | ended =>
    rw [hphase] at h
    exact h.elim

theorem step_advance_idle {p : RetriggerPool} {i : ℕ}
    (h : p.threads[i]?.bind (·.nextCall) = none) :
    (retriggers outcome).step p (.advance i) = p := by
  cases hth : p.threads[i]? with
  | none => simp only [PoolSystem.step, hth]
  | some th =>
    rw [hth, Option.bind_some, Thread.nextCall] at h
    simp only [PoolSystem.step, hth]
    cases hrest : th.rest with
    | call c next =>
      rw [hrest] at h
      cases h
    | _ => rfl

inductive MoveCase (p : RetriggerPool) : RetriggerMove → List DlqStatement → RetriggerPool → Prop
  | spawn (target : Option DLQRetriggerRequest × Option ℕ) :
      MoveCase p (.spawn target) []
        { p with threads := p.threads ++ [(retriggers outcome).fresh target] }
  | environment (l : DlqStatement) :
      MoveCase p (.environment l) [l] ⟨{ p.state with table := execute p.state.table l }, p.threads⟩
  | idle (i : ℕ) : MoveCase p (.advance i) [] p
  | remove {i : ℕ} {th th' : RetriggerThread} {taskIds : Option (List ℕ)} {taskName : Option String}
      (hth : p.threads[i]? = some th) (hphase : phaseOf th = .start)
      (hheld : (phaseOf th').held =
        (p.state.table.rows.filter (selects taskIds taskName)).map responseOf)
      (hfollows : Follows (phaseOf th') th'.rest) :
      MoveCase p (.advance i) [.fetchAndDeleteTasks taskIds taskName]
        ⟨{ p.state with table := execute p.state.table (.fetchAndDeleteTasks taskIds taskName) },
          p.threads.set i th'⟩
  | send {i : ℕ} {th th' : RetriggerThread} {t : DLQTaskResponse} {ts : List DLQTaskResponse}
      (hth : p.threads[i]? = some th) (hphase : phaseOf th = .sending (t :: ts))
      (hheld : (phaseOf th').held <:+ ts) (hfollows : Follows (phaseOf th') th'.rest) :
      MoveCase p (.advance i) []
        ⟨{ p.state with sends := p.state.sends ++
            [⟨t.id, messageOf t, outcome p.state.sends.length⟩] }, p.threads.set i th'⟩

theorem move_cases {p : RetriggerPool} (h : ∀ th ∈ p.threads, Follows (phaseOf th) th.rest)
    (m : RetriggerMove) :
    MoveCase outcome p m (statements p m) ((retriggers outcome).step p m) := by
  cases m with
  | spawn target => exact .spawn target
  | environment l => exact .environment l
  | advance i =>
    cases hcall : p.threads[i]?.bind (·.nextCall) with
    | none =>
      rw [statements, hcall, step_advance_idle outcome hcall]
      exact .idle i
    | some c =>
      obtain ⟨th, hth, hnext⟩ := Option.bind_eq_some_iff.mp hcall
      obtain ⟨next, hrest⟩ := Thread.rest_of_nextCall hnext
      have hfollows := h th (List.mem_of_getElem? hth)
      obtain ⟨hpermits, hanswered⟩ :=
        hfollows.answered hrest (r := ((retriggers outcome).handler c p.state).1) trivial
      rw [statements, hcall, (retriggers outcome).step_advance hth hrest]
      rw [← phaseOf_answered th c _ next] at hanswered
      cases call_cases hpermits with
      | @fetchAndDelete taskIds taskName hphase =>
        refine .remove hth hphase ?_ hanswered
        have hanswer :
            (retriggers outcome).handler (.fetchAndDelete taskIds taskName) p.state = _ :=
          handler_fetchAndDelete outcome taskIds taskName p.state
        rw [phaseOf_answered, hphase, hanswer]
        rfl
      | @sendTask t ts hphase =>
        refine .send hth hphase ?_ hanswered
        rw [phaseOf_answered, hphase]
        change (retriggerProtocol.after (.sending (t :: ts)) (.sendTask t.id (messageOf t))
          (outcome p.state.sends.length).answer).held <:+ ts
        cases outcome p.state.sends.length with
        | sent => exact List.suffix_refl ts
        | refused => exact List.nil_suffix
        | sentAndRaised => exact List.nil_suffix

theorem phaseOf_fresh (target : Option DLQRetriggerRequest × Option ℕ) :
    phaseOf ((retriggers outcome).fresh target) = .start := rfl

theorem Accounted.step {ls : List DlqStatement} {p : RetriggerPool} (h : Accounted ls p)
    (hids : (drawnIds ls).Nodup) (m : RetriggerMove) :
    Accounted (ls ++ statements p m) ((retriggers outcome).step p m) := by
  have hcase := move_cases outcome h.follows m
  generalize statements p m = ms at hcase
  generalize (retriggers outcome).step p m = q at hcase
  cases hcase with
  | spawn target =>
    rw [List.append_nil]
    refine ⟨h.table, ?_, h.sent, ?_⟩
    · exact List.forall_mem_append.mpr ⟨h.follows, List.forall_mem_singleton.mpr
        (follows_retriggerTasks target.1 target.2)⟩
    · refine List.forall_mem_append.mpr ⟨h.held, List.forall_mem_singleton.mpr ?_⟩
      rw [phaseOf_fresh]
      exact fun t ht => absurd ht List.not_mem_nil
  | environment l =>
    refine ⟨?_, h.follows, fun send hsend => (h.sent send hsend).append [l],
      fun th hth t ht => (h.held th hth t ht).append [l]⟩
    rw [run_append, ← h.table]
    rfl
  | idle i =>
    rw [List.append_nil]
    exact h
  | @remove i th th' taskIds taskName hth hphase hheld hfollows =>
    refine ⟨?_, ?_, fun send hsend => (h.sent send hsend).append _, ?_⟩
    · rw [run_append, ← h.table]
      rfl
    · intro x hx
      rcases List.mem_or_eq_of_mem_set hx with hx | rfl
      · exact h.follows x hx
      · exact hfollows
    · intro x hx t ht
      rcases List.mem_or_eq_of_mem_set hx with hx | rfl
      · exact (h.held x hx t ht).append _
      · rw [hheld] at ht
        obtain ⟨row, hrow, rfl⟩ := List.mem_map.mp ht
        obtain ⟨hrow, hselected⟩ := List.mem_filter.mp hrow
        rw [h.table, mem_table_iff hids] at hrow
        exact ⟨ls, taskIds, taskName, [], row, rfl, hrow, hselected, rfl, rfl⟩
  | @send i th th' t ts hth hphase hheld hfollows =>
    have hmem : ∀ u ∈ t :: ts, RemovedFor ls u.id (messageOf u) := fun u hu =>
      h.held th (List.mem_of_getElem? hth) u (by rwa [hphase])
    rw [List.append_nil]
    refine ⟨h.table, ?_, ?_, ?_⟩
    · intro x hx
      rcases List.mem_or_eq_of_mem_set hx with hx | rfl
      · exact h.follows x hx
      · exact hfollows
    · exact List.forall_mem_append.mpr ⟨h.sent, List.forall_mem_singleton.mpr
        (hmem t List.mem_cons_self)⟩
    · intro x hx u hu
      rcases List.mem_or_eq_of_mem_set hx with hx | rfl
      · exact h.held x hx u hu
      · exact hmem u (List.mem_cons_of_mem t (hheld.subset hu))

/-- Where tasks are: sent, held by a request, or in the table. -/
def places (p : RetriggerPool) : List ℕ :=
  p.state.sends.map (·.dlqId) ++ p.threads.flatMap (fun th => (phaseOf th).held.map (·.id)) ++
    p.state.table.rows.map (·.id)

theorem count_places (p : RetriggerPool) (id : ℕ) : (places p).count id =
    (p.state.sends.map (·.dlqId)).count id +
      (p.threads.flatMap (fun th => (phaseOf th).held.map (·.id))).count id +
      (p.state.table.rows.map (·.id)).count id := by
  rw [places, List.count_append, List.count_append]

/-- One thread of a pool and the others. -/
theorem count_flatMap_set {threads : List RetriggerThread} {i : ℕ} {th : RetriggerThread}
    (hth : threads[i]? = some th) (th' : RetriggerThread) (f : RetriggerThread → List ℕ) (id : ℕ) :
    ((threads.set i th').flatMap f).count id + (f th).count id =
      (threads.flatMap f).count id + (f th').count id := by
  obtain ⟨hlt, rfl⟩ := List.getElem?_eq_some_iff.mp hth
  obtain ⟨left, right, hsplit, -, hset⟩ := @List.exists_of_set _ _ th' _ hlt
  rw [hset]
  conv_rhs => rw [hsplit]
  simp only [List.flatMap_append, List.flatMap_cons, List.count_append]
  omega

theorem count_execute (table : DeadLetterTable) (l : DlqStatement) (id : ℕ) :
    ((execute table l).rows.map (·.id)).count id ≤
      (table.rows.map (·.id)).count id + (drawnIds [l]).count id := by
  cases hdrawn : l.drawnId with
  | none =>
    have hmakes : l.makes = none := by
      cases hmakes : l.makes with
      | none => rfl
      | some row => rw [drawnId_of_makes hmakes] at hdrawn; cases hdrawn
    have hnew : ∀ id, l.drawnId = some id → id ∉ table.rows.map (·.id) := by
      rw [hdrawn]
      rintro id ⟨⟩
    have hids : (actions.step table.rows l).map (·.id) =
        (table.rows.filter (fun row => !l.removes row)).map (·.id) := by
      change ((table.rows.filter (fun row => !l.removes row)).map l.edits ++
        l.makes.toList).map _ = _
      rw [hmakes, Option.toList_none, List.append_nil, List.map_map]
      exact List.map_congr_left (fun row _ => edits_id l row)
    rw [execute_rows hnew, hids]
    exact Nat.le_add_right_of_le ((List.filter_sublist.map _).count_le id)
  | some drawn =>
    cases l with
    | handleTaskFailure dbInstance f drawn now =>
      rw [execute, handleTaskFailure_eq]
      cases hmakes : makes (.handleTaskFailure dbInstance f drawn now) with
      | none => exact Nat.le_add_right _ _
      | some row =>
        have hid : row.id = drawn := (Option.some.inj (drawnId_of_makes hmakes)).symm
        rw [Option.map_some, Option.getD_some, DeadLetterTable.insert]
        split_ifs
        · exact Nat.le_add_right _ _
        · rw [List.map_append, List.count_append, List.map_singleton, hid]
          exact Nat.le_refl _
    | _ => cases hdrawn

/-- A statement that removes rows parts the ids. -/
theorem count_parted (rows : List DeadLetterRow) (p : DeadLetterRow → Bool) (id : ℕ) :
    ((rows.filter p).map (·.id)).count id +
        ((rows.filter (fun row => !p row)).map (·.id)).count id = (rows.map (·.id)).count id := by
  rw [← List.count_append, ← List.map_append]
  exact ((List.filter_append_perm p rows).map _).count_eq id

theorem count_step {ls : List DlqStatement} {p : RetriggerPool} (h : Accounted ls p)
    (m : RetriggerMove) (id : ℕ) : (places ((retriggers outcome).step p m)).count id ≤
      (places p).count id + (drawnIds (statements p m)).count id := by
  have hcase := move_cases outcome h.follows m
  generalize statements p m = ms at hcase
  generalize (retriggers outcome).step p m = q at hcase
  rw [count_places, count_places]
  cases hcase with
  | spawn target =>
    simp [phaseOf_fresh, RetriggerPhase.held]
  | environment l =>
    have hrows := count_execute p.state.table l id
    dsimp only
    omega
  | idle i => exact Nat.le_add_right _ _
  | @remove i th th' taskIds taskName hth hphase hheld hfollows =>
    have hset := count_flatMap_set hth th' (fun th => (phaseOf th).held.map (·.id)) id
    have hparted := count_parted p.state.table.rows (selects taskIds taskName) id
    have hkept : (execute p.state.table (.fetchAndDeleteTasks taskIds taskName)).rows =
        p.state.table.rows.filter (fun row => !selects taskIds taskName row) := rfl
    have hremoved : (phaseOf th').held.map (·.id) =
        (p.state.table.rows.filter (selects taskIds taskName)).map (·.id) := by
      rw [hheld, List.map_map]
      rfl
    have hnone : (phaseOf th).held.map (·.id) = [] := by
      rw [hphase]
      rfl
    rw [hremoved, hnone, List.count_nil] at hset
    rw [hkept]
    dsimp only
    omega
  | @send i th th' t ts hth hphase hheld hfollows =>
    have hset := count_flatMap_set hth th' (fun th => (phaseOf th).held.map (·.id)) id
    have hfirst : (phaseOf th).held.map (·.id) = t.id :: ts.map (·.id) := by
      rw [hphase]
      rfl
    have hrest : ((phaseOf th').held.map (·.id)).count id ≤ (ts.map (·.id)).count id :=
      (hheld.sublist.map _).count_le id
    rw [hfirst, List.count_cons] at hset
    dsimp only
    rw [List.map_append, List.count_append, List.map_singleton, List.count_singleton]
    dsimp only
    omega

def drawnIn (ms : List RetriggerMove) : List ℕ :=
  ms.filterMap (fun m => match m with
    | .environment l => l.drawnId
    | _ => none)

theorem drawnIds_append (ls ms : List DlqStatement) :
    drawnIds (ls ++ ms) = drawnIds ls ++ drawnIds ms :=
  List.filterMap_append

theorem drawnIn_eq (p : RetriggerPool) (ms : List RetriggerMove) :
    drawnIn ms = drawnIds (tableLog outcome p ms) := by
  induction ms generalizing p with
  | nil => rfl
  | cons m ms ih =>
    rw [tableLog, drawnIds_append, ← ih]
    cases m with
    | spawn target => rfl
    | environment l => cases l <;> rfl
    | advance i =>
      have hnone : drawnIds (statements p (.advance i)) = [] := by
        simp only [statements]
        split <;> rfl
      rw [hnone]
      rfl

theorem accounted_idle : Accounted [] idle :=
  ⟨rfl, fun _ h => absurd h List.not_mem_nil, fun _ h => absurd h List.not_mem_nil,
    fun _ h => absurd h List.not_mem_nil⟩

/-- Over a whole run the accounts hold, and a task is in as many places as ids were drawn for it. -/
theorem run_accounted {ls : List DlqStatement} {p : RetriggerPool} (h : Accounted ls p)
    (ms : List RetriggerMove) (hids : (drawnIds ls ++ drawnIn ms).Nodup) :
    Accounted (ls ++ tableLog outcome p ms) (run (retriggers outcome).step p ms) ∧
      ∀ id, (places (run (retriggers outcome).step p ms)).count id ≤
        (places p).count id + (drawnIn ms).count id := by
  induction ms generalizing p ls with
  | nil =>
    rw [tableLog, List.append_nil]
    exact ⟨h, fun id => Nat.le_add_right _ _⟩
  | cons m ms ih =>
    have hsplit : drawnIn (m :: ms) = drawnIds (statements p m) ++ drawnIn ms := by
      rw [drawnIn_eq outcome p, tableLog, drawnIds_append, ← drawnIn_eq]
    rw [hsplit, ← List.append_assoc, ← drawnIds_append] at hids
    have hprefix : (drawnIds ls).Nodup := by
      rw [drawnIds_append] at hids
      exact hids.of_append_left.of_append_left
    obtain ⟨haccounted, hcount⟩ := ih (h.step outcome hprefix m) hids
    rw [tableLog, ← List.append_assoc, run_cons]
    refine ⟨haccounted, fun id => ?_⟩
    have hfirst := count_step outcome h m id
    have hrest := hcount id
    rw [hsplit, List.count_append]
    omega

end pool

/-- Whatever requests are under way, however far each has come and however its sends have ended: a
task that the hook has recorded is sent once, or held by one request, or in the table, and never in
two of these places. What is sent is what a statement of a request has removed: the recorded row,
spared until then, with the updates until then. -/
theorem retriggers_sendOnce (outcome : ℕ → SendOutcome) (ms : List RetriggerMove)
    (hids : (drawnIn ms).Nodup) :
    let p := run (retriggers outcome).step idle ms
    (places p).Nodup ∧ p.state.table = run execute .empty (tableLog outcome idle ms) ∧
      ∀ send ∈ p.state.sends, RemovedFor (tableLog outcome idle ms) send.dlqId send.message := by
  obtain ⟨haccounted, hcount⟩ := run_accounted outcome accounted_idle ms hids
  refine ⟨List.nodup_iff_count_le_one.mpr (fun id => ?_), haccounted.table, haccounted.sent⟩
  exact (hcount id).trans (by
    have hdrawn := List.nodup_iff_count_le_one.mp hids id
    simpa [places, idle, DeadLetterTable.empty] using hdrawn)

/-- Two requests for every task, the second of which starts before the first has sent anything. -/
def twoRequests : List RetriggerMove :=
  [.environment (.handleTaskFailure true syncFailure 1 0), .spawn (none, none), .spawn (none, none),
    .advance 0, .environment (.handleTaskFailure true syncFailure 2 5), .advance 1, .advance 0]

theorem retriggers_sendOnce_twoRequests :
    let p := run (retriggers fun _ => .sentAndRaised).step idle twoRequests
    (places p).Nodup ∧
      p.state.table = run execute .empty (tableLog (fun _ => .sentAndRaised) idle twoRequests) ∧
      ∀ send ∈ p.state.sends, RemovedFor (tableLog (fun _ => .sentAndRaised) idle twoRequests)
        send.dlqId send.message :=
  retriggers_sendOnce (fun _ => .sentAndRaised) twoRequests (by decide)

end FastapiTemplate.DeadLetter
