import FastapiTemplate.ScheduleChanges

/-!
# Which changes are announced

An operation that changes a row has announced it when, after its last change, it has cleared the
cached schedule and increased the version. Every operation of the service does so, and no
operation of the admin view that finds something to change.
-/

namespace FastapiTemplate.Periodic

def changesRow (x : (c : ScheduleCall) × c.Answer) : Bool :=
  match x with
  | ⟨.insertTask _, .ok _⟩ => true
  | ⟨.updateTask .., .ok (some _)⟩ => true
  | ⟨.deleteTasks _, .ok ids⟩ => !ids.isEmpty
  | _ => false

def isAnnouncement (x : (c : ScheduleCall) × c.Answer) : Bool :=
  match x with
  | ⟨.deleteDataIncrVersion, .ok _⟩ => true
  | _ => false

/-- Every change of a row is followed by an announcement. -/
def announced : List ((c : ScheduleCall) × c.Answer) → Bool
  | [] => true
  | x :: trace => (!changesRow x || trace.any isAnnouncement) && announced trace

/-- An operation of the service, with a body that has been validated, or of the admin view. -/
inductive Operation
  | createTask (t : PeriodicTaskCreate)
  | updateTask (id : ℕ) (t : PeriodicTaskUpdate)
  | deleteTask (id : ℕ)
  | triggerTaskManually (task : String) (args : List PyValue) (kwargs : List (String × PyValue))
  | adminCreate (data : PeriodicTaskAdminView.FormData)
  | adminEdit (pk : String) (data : PeriodicTaskAdminView.FormData)
  | adminDelete (pks : List String)
  | adminTriggerNow (pk : String)
  | adminToggleEnabled (pk : String)
  | adminEnableSelected (pks : List String)
  | adminDisableSelected (pks : List String)

structure Surroundings where
  registered : String → Bool
  validCrontab : CronFields → Bool
  crontabDue : CronFields → ℕ → ℕ → Bool
  parseUuid : String → Option ℕ

namespace Operation

def ofView : Operation → Bool
  | .createTask _ => false
  | .updateTask .. => false
  | .deleteTask _ => false
  | .triggerTaskManually .. => false
  | _ => true

section run
variable (env : Surroundings)

def program : Operation → ScheduleProgram Unit
  | .createTask t => do
    let _ ← PeriodicTaskService.createTask env.registered t
    pure ()
  | .updateTask id t => do
    let _ ← PeriodicTaskService.updateTask env.registered id t
    pure ()
  | .deleteTask id => do
    let _ ← PeriodicTaskService.deleteTask id
    pure ()
  | .triggerTaskManually task args kwargs =>
    PeriodicTaskService.triggerTaskManually env.registered task args kwargs
  | .adminCreate data => do
    let _ ← PeriodicTaskAdminView.create env.validCrontab data
    pure ()
  | .adminEdit pk data => do
    let _ ← PeriodicTaskAdminView.edit env.validCrontab env.parseUuid pk data
    pure ()
  | .adminDelete pks => do
    let _ ← PeriodicTaskAdminView.delete env.parseUuid pks
    pure ()
  | .adminTriggerNow pk => PeriodicTaskAdminView.triggerNowAction env.parseUuid pk
  | .adminToggleEnabled pk => PeriodicTaskAdminView.toggleEnabledAction env.parseUuid pk
  | .adminEnableSelected pks => do
    let _ ← PeriodicTaskAdminView.enableSelectedAction env.parseUuid pks
    pure ()
  | .adminDisableSelected pks => do
    let _ ← PeriodicTaskAdminView.disableSelectedAction env.parseUuid pks
    pure ()

def step (s : ScheduleStore) (op : Operation) : ScheduleStore :=
  ((op.program env).execute (ScheduleStore.handler env.crontabDue) s).2

/-- If the operation returns and has changed a row, it has announced this. -/
def Announces (s : ScheduleStore) (op : Operation) : Prop :=
  let trace := (op.program env).traceOf (ScheduleStore.handler env.crontabDue) s
  ((op.program env).execute (ScheduleStore.handler env.crontabDue) s).1 = .ok () →
    trace.any changesRow = true → announced trace = true ∧ (op.step env s).data = none ∧
      s.version.getD 0 < (op.step env s).version.getD 0

def changes (s : ScheduleStore) : Operation → Bool
  | .adminCreate data =>
    match PeriodicTaskAdminView.formCreate env.validCrontab data with
    | some t => (Periodic.createTask t s.nextId s.now s.table).isSome
    | none => false
  | .adminEdit pk data =>
    match env.parseUuid pk, PeriodicTaskAdminView.formUpdate env.validCrontab data with
    | some id, some t =>
      match Periodic.updateTask id t s.now s.table with
      | some (_, some _) => true
      | _ => false
    | _, _ => false
  | .adminDelete pks => finds s.table (pks.mapM env.parseUuid)
  | .adminToggleEnabled pk => finds s.table ((env.parseUuid pk).map ([·]))
  | .adminEnableSelected pks => finds s.table (pks.mapM env.parseUuid)
  | .adminDisableSelected pks => finds s.table (pks.mapM env.parseUuid)
  | _ => false
where
  /-- All the keys are UUIDs, and one of them is that of a row. -/
  finds (table : PeriodicTaskTable) (ids : Option (List ℕ)) : Bool :=
    match ids with
    | some ids => table.rows.any (·.id ∈ ids)
    | none => false

end run
end Operation

/-! ## Programs that announce their changes -/

/-- A call that caches nothing and, if it changes a row, is directly followed by the
announcement. -/
def NotifiesAfter {α : Type} (c : ScheduleCall) (next : c.Answer → ScheduleProgram α) : Prop :=
  (∀ text, c ≠ .setData text) ∧ ∀ r, changesRow ⟨c, r⟩ = true → ∃ rest, next r =
    Program.call .deleteDataIncrVersion rest

def NotifiesNext {α : Type} : ScheduleProgram α → Prop
  | .pure _ => True
  | .raise _ => True
  | .call c next => NotifiesAfter c next ∧ ∀ r, NotifiesNext (next r)

section notifies
variable {α β : Type} (crontabDue : CronFields → ℕ → ℕ → Bool)

theorem NotifiesNext.bind_pure {p : ScheduleProgram α} (hp : NotifiesNext p) (f : α → β) :
    NotifiesNext (p >>= fun a => pure (f a)) := by
  induction p with
  | pure a => trivial
  | raise e => trivial
  | call c next ih =>
    refine ⟨⟨hp.1.1, fun r hr => ?_⟩, fun r => ih r (hp.2 r)⟩
    obtain ⟨rest, hrest⟩ := hp.1.2 r hr
    exact ⟨fun u => rest u >>= fun a => pure (f a), by
      dsimp only
      rw [hrest]
      rfl⟩

theorem NotifiesNext.announced {p : ScheduleProgram α} (hp : NotifiesNext p) (s : ScheduleStore) :
    announced (p.traceOf (ScheduleStore.handler crontabDue) s) = true := by
  induction p generalizing s with
  | pure a => rfl
  | raise e => rfl
  | call c next ih =>
    rw [Program.traceOf, Periodic.announced, ih _ (hp.2 _), Bool.and_true]
    cases hchanges : changesRow ⟨c, (ScheduleStore.handler crontabDue c s).1⟩ with
    | false => rfl
    | true =>
      obtain ⟨rest, hrest⟩ := hp.1.2 _ hchanges
      rw [hrest]
      rfl

/-- What calls other than `setData` do to the cache and the version. -/
def Frame (s t : ScheduleStore) : Prop :=
  (s.data = none → t.data = none) ∧ s.version.getD 0 ≤ t.version.getD 0

theorem frame_call {c : ScheduleCall} (hc : ∀ text, c ≠ .setData text) (s : ScheduleStore) :
    Frame s (ScheduleStore.handler crontabDue c s).2 := by
  cases c with
  | setData text => exact absurd rfl (hc text)
  | deleteDataIncrVersion => exact ⟨fun _ => rfl, Nat.le_succ _⟩
  | insertTask t =>
    simp only [ScheduleStore.handler]
    split <;> exact ⟨fun h => h, le_rfl⟩
  | updateTask id t =>
    simp only [ScheduleStore.handler]
    split <;> exact ⟨fun h => h, le_rfl⟩
  | runDue name =>
    cases name with
    | none => exact ⟨fun h => h, le_rfl⟩
    | some name =>
      simp only [ScheduleStore.handler, ScheduleStore.runDue]
      split
      · split <;> exact ⟨fun h => h, le_rfl⟩
      · exact ⟨fun h => h, le_rfl⟩
  | _ => exact ⟨fun h => h, le_rfl⟩

theorem Frame.trans {s t u : ScheduleStore} (hst : Frame s t) (htu : Frame t u) : Frame s u :=
  ⟨fun h => htu.1 (hst.1 h), hst.2.trans htu.2⟩

theorem NotifiesNext.frame {p : ScheduleProgram α} (hp : NotifiesNext p) (s : ScheduleStore) :
    Frame s (p.execute (ScheduleStore.handler crontabDue) s).2 := by
  induction p generalizing s with
  | pure a => exact ⟨fun h => h, le_rfl⟩
  | raise e => exact ⟨fun h => h, le_rfl⟩
  | call c next ih => exact (frame_call crontabDue hp.1.1 s).trans (ih _ (hp.2 _) _)

/-- A program that announces its changes leaves no cached schedule and a higher version. -/
theorem NotifiesNext.execute {p : ScheduleProgram α} (hp : NotifiesNext p) (s : ScheduleStore)
    (hchanged : (p.traceOf (ScheduleStore.handler crontabDue) s).any changesRow = true) :
    (p.execute (ScheduleStore.handler crontabDue) s).2.data = none ∧
      s.version.getD 0 < (p.execute (ScheduleStore.handler crontabDue) s).2.version.getD 0 := by
  induction p generalizing s with
  | pure a => cases hchanged
  | raise e => cases hchanged
  | call c next ih =>
    let t := (ScheduleStore.handler crontabDue c s).2
    have hframe : Frame s t := frame_call crontabDue hp.1.1 s
    rw [Program.traceOf, List.any_cons] at hchanged
    rw [Program.execute_call]
    cases hchanges : changesRow ⟨c, (ScheduleStore.handler crontabDue c s).1⟩ with
    | false =>
      rw [hchanges, Bool.false_or] at hchanged
      obtain ⟨hdata, hversion⟩ := ih _ (hp.2 _) t hchanged
      exact ⟨hdata, hframe.2.trans_lt hversion⟩
    | true =>
      obtain ⟨rest, hrest⟩ := hp.1.2 _ hchanges
      have hnext := hp.2 (ScheduleStore.handler crontabDue c s).1
      rw [hrest] at hnext ⊢
      -- the announcement, and then calls that leave both as they are
      let u := (ScheduleStore.handler crontabDue .deleteDataIncrVersion t).2
      have hafter : Frame u _ := (hnext.2 (.ok ())).frame crontabDue u
      have hversion : t.version.getD 0 < u.version.getD 0 := Nat.lt_succ_self _
      exact ⟨hafter.1 rfl, (hframe.2.trans_lt hversion).trans_le hafter.2⟩

end notifies

/-! ## The service announces -/

namespace PeriodicTaskService

variable {registered : String → Bool}

theorem quiet_bind {β : Type} {c : ScheduleCall} {f : c.Answer → ScheduleProgram β}
    (hdata : ∀ text, c ≠ .setData text) (hc : ∀ r, changesRow ⟨c, r⟩ = false)
    (hf : ∀ r, NotifiesNext (f r)) : NotifiesNext (ask c >>= f) := by
  refine ⟨⟨hdata, fun r hr => ?_⟩, hf⟩
  rw [hc r] at hr
  cases hr

theorem ofExcept_bind {α β : Type} {f : α → ScheduleProgram β} (hf : ∀ a, NotifiesNext (f a))
    (answer : Except ScheduleError α) : NotifiesNext (Program.ofExcept answer >>= f) := by
  cases answer with
  | error e => trivial
  | ok a => exact hf a

/-- What follows a change: the announcement and a result. -/
theorem notify_notifies {β : Type} (b : β) : NotifiesNext (do
    notifyScheduleChanged
    pure b : ScheduleProgram β) := by
  unfold notifyScheduleChanged
  refine quiet_bind nofun (fun _ => rfl) (fun answer => ?_)
  cases answer <;> trivial

theorem validateTaskExists_bind {β : Type} (task : String) {f : Unit → ScheduleProgram β}
    (hf : NotifiesNext (f ())) : NotifiesNext (validateTaskExists registered task >>= f) := by
  unfold validateTaskExists
  split
  · exact hf
  · trivial

theorem createTask_notifies (t : PeriodicTaskCreate) : NotifiesNext (createTask registered t) := by
  apply validateTaskExists_bind
  refine quiet_bind nofun (fun _ => rfl) (ofExcept_bind (fun existing => ?_))
  split
  · trivial
  · refine ⟨⟨nofun, fun answer hchanged => ?_⟩, ofExcept_bind (fun row => notify_notifies row)⟩
    cases answer with
    | error e => cases hchanged
    | ok row => exact ⟨_, rfl⟩

theorem updateTask_notifies (id : ℕ) (t : PeriodicTaskUpdate) :
    NotifiesNext (updateTask registered id t) := by
  have hrest : NotifiesNext (writeUpdate id t) := by
    refine ⟨⟨nofun, fun answer hchanged => ?_⟩, ofExcept_bind (fun found => ?_)⟩
    · cases answer with
      | error e => cases hchanged
      | ok found =>
        cases found with
        | none => cases hchanged
        | some row => exact ⟨_, rfl⟩
    · cases found with
      | none => trivial
      | some row => exact notify_notifies row
  rw [updateTask_eq]
  cases t.task with
  | none => exact hrest
  | some task => exact validateTaskExists_bind task hrest

theorem deleteTask_notifies (id : ℕ) : NotifiesNext (deleteTask id) := by
  refine ⟨⟨nofun, fun answer hchanged => ?_⟩, ofExcept_bind (fun deleted => ?_)⟩
  · cases answer with
    | error e => cases hchanged
    | ok deleted =>
      have hsome : deleted.isEmpty = false := by simpa [changesRow] using hchanged
      refine ⟨fun answer => Program.ofExcept answer >>= fun _ => pure true, ?_⟩
      change (if deleted.isEmpty then _ else _) = _
      rw [hsome]
      rfl
  · split
    · trivial
    · exact notify_notifies true

theorem triggerTaskManually_notifies (task : String) (args : List PyValue)
    (kwargs : List (String × PyValue)) :
    NotifiesNext (triggerTaskManually registered task args kwargs) := by
  apply validateTaskExists_bind
  refine quiet_bind nofun (fun _ => rfl) (fun answer => ?_)
  cases answer <;> trivial

end PeriodicTaskService

/-! ## The admin view does not announce -/

/-- Where nothing is announced, every change is missing its announcement. -/
theorem announced_of_silent {trace : List ((c : ScheduleCall) × c.Answer)}
    (h : trace.any isAnnouncement = false) : announced trace = !trace.any changesRow := by
  induction trace with
  | nil => rfl
  | cons x trace ih =>
    rw [List.any_cons, Bool.or_eq_false_iff] at h
    rw [announced, ih h.2, h.2, Bool.or_false, List.any_cons, Bool.not_or]

theorem traceOf_any_eq_false {α : Type} (crontabDue : CronFields → ℕ → ℕ → Bool)
    {f : (c : ScheduleCall) × c.Answer → Bool} {p : ScheduleProgram α}
    (hp : p.Makes (fun c => ∀ r, f ⟨c, r⟩ = false)) (s : ScheduleStore) :
    (p.traceOf (ScheduleStore.handler crontabDue) s).any f = false := by
  induction p generalizing s with
  | pure a => rfl
  | raise e => rfl
  | call c next ih =>
    rw [Program.traceOf, List.any_cons, hp.1, Bool.false_or]
    exact ih _ (hp.2 _) _

theorem silent_of_makes {α : Type} (crontabDue : CronFields → ℕ → ℕ → Bool) {p : ScheduleProgram α}
    (hp : p.Makes (· ≠ .deleteDataIncrVersion)) (s : ScheduleStore) :
    (p.traceOf (ScheduleStore.handler crontabDue) s).any isAnnouncement = false := by
  refine traceOf_any_eq_false crontabDue (hp.mono (fun c hc r => ?_)) s
  cases c with
  | deleteDataIncrVersion => exact absurd rfl hc
  | _ => rfl

namespace PeriodicTaskAdminView

variable {validCrontab : CronFields → Bool} {parseUuid : String → Option ℕ}

theorem makes_orRaise {α : Type} {P : ScheduleCall → Prop} (e : ScheduleError) (a : Option α) :
    (orRaise e a).Makes P := by
  cases a <;> trivial

theorem makes_ofExcept {α : Type} {P : ScheduleCall → Prop} (a : Except ScheduleError α) :
    (Program.ofExcept a : ScheduleProgram α).Makes P := by
  cases a <;> trivial

theorem setEnabled_silent (id : ℕ) (enabled : Bool) :
    (setEnabled id enabled).Makes (· ≠ .deleteDataIncrVersion) :=
  ⟨nofun, fun answer => (makes_ofExcept answer).bind (fun _ => trivial)⟩

theorem findTask_silent (id : ℕ) : (findTask id).Makes (· ≠ .deleteDataIncrVersion) :=
  ⟨nofun, fun answer => (makes_ofExcept answer).bind (fun _ => makes_orRaise _ _)⟩

theorem create_silent (data : FormData) :
    (create validCrontab data).Makes (· ≠ .deleteDataIncrVersion) :=
  (makes_orRaise _ _).bind (fun _ => ⟨nofun, fun answer => makes_ofExcept answer⟩)

theorem edit_silent (pk : String) (data : FormData) :
    (edit validCrontab parseUuid pk data).Makes (· ≠ .deleteDataIncrVersion) :=
  (makes_orRaise _ _).bind (fun _ => (makes_orRaise _ _).bind (fun _ =>
    ⟨nofun, fun answer => (makes_ofExcept answer).bind (fun _ => makes_orRaise _ _)⟩))

theorem delete_silent (pks : List String) :
    (delete parseUuid pks).Makes (· ≠ .deleteDataIncrVersion) := by
  unfold delete
  split
  · trivial
  · exact (makes_orRaise _ _).bind (fun _ =>
      ⟨nofun, fun answer => (makes_ofExcept answer).bind (fun _ => trivial)⟩)

theorem triggerNowAction_silent (pk : String) :
    (triggerNowAction parseUuid pk).Makes (· ≠ .deleteDataIncrVersion) :=
  (makes_orRaise _ _).bind (fun id => (findTask_silent id).bind (fun _ =>
    (makes_orRaise _ _).bind (fun _ => (makes_orRaise _ _).bind (fun _ =>
      ⟨nofun, fun answer => makes_ofExcept answer⟩))))

theorem triggerNowAction_quiet (pk : String) :
    (triggerNowAction parseUuid pk).Makes (fun c => ∀ r, changesRow ⟨c, r⟩ = false) :=
  (makes_orRaise _ _).bind (fun _ => Program.Makes.bind
    ⟨fun _ => rfl, fun answer => (makes_ofExcept answer).bind (fun _ => makes_orRaise _ _)⟩
    (fun _ => (makes_orRaise _ _).bind (fun _ => (makes_orRaise _ _).bind (fun _ =>
      ⟨fun _ => rfl, fun answer => makes_ofExcept answer⟩))))

theorem toggleEnabledAction_silent (pk : String) :
    (toggleEnabledAction parseUuid pk).Makes (· ≠ .deleteDataIncrVersion) :=
  (makes_orRaise _ _).bind (fun id => (findTask_silent id).bind (fun _ => setEnabled_silent id _))

theorem setEnabledSelected_silent (enabled : Bool) (pks : List String) :
    (setEnabledSelected parseUuid enabled pks).Makes (· ≠ .deleteDataIncrVersion) := by
  induction pks with
  | nil => trivial
  | cons pk pks ih =>
    exact (makes_orRaise _ _).bind
      (fun id => (setEnabled_silent id enabled).bind (fun _ => ih.bind (fun _ => trivial)))

end PeriodicTaskAdminView

/-! ## When the admin view changes a row -/

section returns
variable {α β : Type} (crontabDue : CronFields → ℕ → ℕ → Bool)

def ReturnsChanged (p : ScheduleProgram α) (s : ScheduleStore) : Prop :=
  (∃ a, (p.execute (ScheduleStore.handler crontabDue) s).1 = .ok a) ∧
    (p.traceOf (ScheduleStore.handler crontabDue) s).any changesRow = true

/-- What is done with a result changes nothing about returns and calls. -/
theorem returnsChanged_parts (p : ScheduleProgram α) (f : α → β) (s : ScheduleStore) :
    ((∃ b, ((p >>= fun a => pure (f a)).execute (ScheduleStore.handler crontabDue) s).1 = .ok b) ↔
      ∃ a, (p.execute (ScheduleStore.handler crontabDue) s).1 = .ok a) ∧
    (p >>= fun a => pure (f a)).traceOf (ScheduleStore.handler crontabDue) s =
      p.traceOf (ScheduleStore.handler crontabDue) s := by
  rw [Program.execute_bind, Program.traceOf_bind]
  rcases p.execute (ScheduleStore.handler crontabDue) s with ⟨_ | a, t⟩
  · simp
  · simp [Program.traceOf, Pure.pure]

theorem returnsChanged_bind_pure (p : ScheduleProgram α) (f : α → β) (s : ScheduleStore) :
    ReturnsChanged crontabDue (p >>= fun a => pure (f a)) s ↔ ReturnsChanged crontabDue p s := by
  obtain ⟨hreturns, htrace⟩ := returnsChanged_parts crontabDue p f s
  rw [ReturnsChanged, ReturnsChanged, hreturns, htrace]

theorem returnsChanged_raise (e : ScheduleError) (s : ScheduleStore) :
    ¬ ReturnsChanged crontabDue (.raise e : ScheduleProgram α) s := by
  rintro ⟨⟨b, hb⟩, -⟩
  cases hb

theorem returnsChanged_insert (t : PeriodicTaskCreate) (s : ScheduleStore) :
    ReturnsChanged crontabDue (do Program.ofExcept (← ask (.insertTask t))) s ↔
      (Periodic.createTask t s.nextId s.now s.table).isSome = true := by
  unfold ReturnsChanged
  rw [Program.execute_perform_bind, Program.perform_bind, Program.traceOf]
  cases hcreate : Periodic.createTask t s.nextId s.now s.table with
  | none =>
    simp only [ScheduleStore.handler, hcreate]
    simp [Program.ofExcept]
  | some after =>
    simp only [ScheduleStore.handler, hcreate]
    simp [Program.ofExcept, changesRow]

theorem returnsChanged_update (id : ℕ) (t : PeriodicTaskUpdate) (e : ScheduleError)
    (s : ScheduleStore) : ReturnsChanged crontabDue (do
      let row ← Program.ofExcept (← ask (.updateTask id t))
      orRaise e row) s ↔
      ∃ table row, Periodic.updateTask id t s.now s.table = some (table, some row) := by
  unfold ReturnsChanged
  rw [Program.execute_perform_bind, Program.perform_bind, Program.traceOf]
  cases hupdate : Periodic.updateTask id t s.now s.table with
  | none =>
    simp only [ScheduleStore.handler, hupdate]
    simp [Program.ofExcept]
  | some after =>
    obtain ⟨table, row⟩ := after
    simp only [ScheduleStore.handler, hupdate]
    cases row with
    | none => simp [Program.ofExcept, orRaise, changesRow]
    | some row => simp [Program.ofExcept, orRaise, changesRow]

theorem returnsChanged_delete (ids : List ℕ) (s : ScheduleStore) :
    ReturnsChanged crontabDue (do
      let deleted ← Program.ofExcept (← ask (.deleteTasks ids))
      pure deleted.length) s ↔ s.table.rows.any (·.id ∈ ids) = true := by
  have hempty : (!(deleteTasks ids s.table).2.isEmpty) = s.table.rows.any (·.id ∈ ids) := by
    rw [deleteTasks, List.isEmpty_map, Bool.eq_iff_iff, Bool.not_eq_true', List.isEmpty_eq_false_iff,
      List.any_eq_true]
    constructor
    · intro hne
      obtain ⟨row, hrow⟩ := List.exists_mem_of_ne_nil _ hne
      exact ⟨row, (List.mem_filter.mp hrow).1, (List.mem_filter.mp hrow).2⟩
    · rintro ⟨row, hrow, hid⟩
      exact List.ne_nil_of_mem (List.mem_filter.mpr ⟨hrow, hid⟩)
  rw [← hempty]
  change (∃ a, (Except.ok (deleteTasks ids s.table).2.length : Except ScheduleError ℕ) = .ok a) ∧
    (!(deleteTasks ids s.table).2.isEmpty || false) = true ↔ _
  rw [Bool.or_false]
  exact ⟨fun h => h.2, fun h => ⟨⟨_, rfl⟩, h⟩⟩

/-- The update of the flag always succeeds, and keeps the ids of the rows. -/
theorem updateTask_ofEnabled (id : ℕ) (enabled : Bool) (now : ℕ) (table : PeriodicTaskTable) :
    ∃ after found, Periodic.updateTask id (.ofEnabled enabled) now table = some (after, found) ∧
      after.rows.map (·.id) = table.rows.map (·.id) ∧
      (found.isSome = true ↔ id ∈ table.rows.map (·.id)) := by
  unfold Periodic.updateTask
  cases hfind : table.rows.find? (·.id = id) with
  | none =>
    refine ⟨table, none, rfl, rfl, ?_⟩
    simpa using hfind
  | some row =>
    let change (r : PeriodicTaskRow) : PeriodicTaskRow :=
      if r.id = id then updatedRow (.ofEnabled enabled) none none now r else r
    have hids : (table.rows.map change).map (·.id) = table.rows.map (·.id) := by
      rw [List.map_map]
      apply List.map_congr_left
      intro r _
      by_cases hr : r.id = id <;> simp [change, hr, updatedRow]
    have hnames : (table.rows.map change).map (·.name) = table.rows.map (·.name) := by
      rw [List.map_map]
      apply List.map_congr_left
      intro r _
      by_cases hr : r.id = id <;> simp [change, hr, updatedRow, PeriodicTaskUpdate.ofEnabled]
    have hnodup : ((table.rows.map change).map (·.id)).Nodup ∧
        ((table.rows.map change).map (·.name)).Nodup := by
      rw [hids, hnames]
      exact ⟨table.idsApart, table.namesApart⟩
    have hafter : PeriodicTaskTable.ofRows (table.rows.map change) =
        some ⟨table.rows.map change, hnodup.1, hnodup.2⟩ := dif_pos hnodup
    refine ⟨⟨table.rows.map change, hnodup.1, hnodup.2⟩,
      some (updatedRow (.ofEnabled enabled) none none now row), ?_, hids, ?_⟩
    · change (PeriodicTaskTable.ofRows (table.rows.map change)).bind (fun after =>
        some (after, some (updatedRow (.ofEnabled enabled) none none now row))) = _
      rw [hafter]
      rfl
    · have hrow : row.id = id := by simpa using List.find?_some hfind
      have hmem := List.mem_of_find?_eq_some hfind
      exact ⟨fun _ => List.mem_map.mpr ⟨row, hmem, hrow⟩, fun _ => rfl⟩

/-- One step of the batch actions. -/
theorem setEnabled_execute (id : ℕ) (enabled : Bool) (s : ScheduleStore) :
    ∃ after found, after.rows.map (·.id) = s.table.rows.map (·.id) ∧
      (found.isSome = true ↔ id ∈ s.table.rows.map (·.id)) ∧
      (PeriodicTaskAdminView.setEnabled id enabled).execute (ScheduleStore.handler crontabDue) s =
        (.ok (), { s with table := after }) ∧
      (PeriodicTaskAdminView.setEnabled id enabled).traceOf (ScheduleStore.handler crontabDue) s =
        [⟨.updateTask id (.ofEnabled enabled), .ok found⟩] := by
  obtain ⟨after, found, hupdate, hids, hfound⟩ := updateTask_ofEnabled id enabled s.now s.table
  have hcall : ScheduleStore.handler crontabDue (.updateTask id (.ofEnabled enabled)) s =
      (.ok found, { s with table := after }) := by
    simp only [ScheduleStore.handler, hupdate]
  refine ⟨after, found, hids, hfound, ?_, ?_⟩
  · rw [PeriodicTaskAdminView.setEnabled, Program.execute_perform_bind, hcall]
    rfl
  · rw [PeriodicTaskAdminView.setEnabled, Program.perform_bind, Program.traceOf, hcall]
    rfl

theorem changesRow_updateTask (id : ℕ) (t : PeriodicTaskUpdate) (found : Option PeriodicTaskRow) :
    changesRow ⟨.updateTask id t, .ok found⟩ = found.isSome := by
  cases found <;> rfl

/-- The batch actions return if all keys are UUIDs, and have then changed the rows found. -/
theorem returnsChanged_setEnabledSelected (parseUuid : String → Option ℕ) (enabled : Bool)
    (pks : List String) (s : ScheduleStore) :
    ((∃ a, ((PeriodicTaskAdminView.setEnabledSelected parseUuid enabled pks).execute
      (ScheduleStore.handler crontabDue) s).1 = .ok a) ↔ (pks.mapM parseUuid).isSome = true) ∧
    ∀ ids, pks.mapM parseUuid = some ids →
      (((PeriodicTaskAdminView.setEnabledSelected parseUuid enabled pks).traceOf
        (ScheduleStore.handler crontabDue) s).any changesRow = true ↔
        ∃ id ∈ ids, id ∈ s.table.rows.map (·.id)) := by
  induction pks generalizing s with
  | nil =>
    refine ⟨⟨fun _ => rfl, fun _ => ⟨0, rfl⟩⟩, ?_⟩
    rintro ids hids
    cases hids
    simp [PeriodicTaskAdminView.setEnabledSelected, Program.traceOf, Pure.pure]
  | cons pk pks ih =>
    rw [List.mapM_cons, PeriodicTaskAdminView.setEnabledSelected, PeriodicTaskAdminView.uuidOf]
    cases hpk : parseUuid pk with
    | none =>
      refine ⟨⟨?_, fun h => by cases h⟩, fun ids h => by cases h⟩
      rintro ⟨a, ha⟩
      cases ha
    | some id =>
      obtain ⟨after, found, hids, hfound, hexecute, htrace⟩ :=
        setEnabled_execute crontabDue id enabled s
      obtain ⟨ihreturns, ihchanged⟩ := ih { s with table := after }
      let rest := PeriodicTaskAdminView.setEnabledSelected parseUuid enabled pks >>= fun count =>
        (pure (count + 1) : ScheduleProgram ℕ)
      have hrest := returnsChanged_parts crontabDue
        (PeriodicTaskAdminView.setEnabledSelected parseUuid enabled pks) (· + 1)
        { s with table := after }
      change ((∃ a, ((PeriodicTaskAdminView.setEnabled id enabled >>= fun _ => rest).execute
        (ScheduleStore.handler crontabDue) s).1 = .ok a) ↔ _) ∧ ∀ ids, _ →
        (((PeriodicTaskAdminView.setEnabled id enabled >>= fun _ => rest).traceOf
          (ScheduleStore.handler crontabDue) s).any changesRow = true ↔ _)
      rw [Program.execute_bind, Program.traceOf_bind, hexecute, htrace]
      dsimp only
      rw [hrest.1, hrest.2, ihreturns]
      refine ⟨by cases pks.mapM parseUuid <;> rfl, fun ids hall => ?_⟩
      rw [Option.bind_eq_bind, Option.bind_some] at hall
      obtain ⟨others, hothers, hall⟩ := Option.bind_eq_some_iff.mp hall
      cases hall
      rw [List.cons_append, List.nil_append, List.any_cons, changesRow_updateTask, Bool.or_eq_true,
        hfound, ihchanged others hothers, hids]
      simp only [List.mem_cons, exists_eq_or_imp]

end returns

/-! ## Operations of the service -/

namespace Operation

theorem service_notifies (env : Surroundings) {op : Operation} (hop : op.ofView = false) :
    NotifiesNext (op.program env) := by
  cases op with
  | createTask t => exact (PeriodicTaskService.createTask_notifies t).bind_pure _
  | updateTask id t => exact (PeriodicTaskService.updateTask_notifies id t).bind_pure _
  | deleteTask id => exact (PeriodicTaskService.deleteTask_notifies id).bind_pure _
  | triggerTaskManually task args kwargs =>
    exact PeriodicTaskService.triggerTaskManually_notifies task args kwargs
  | _ => cases hop

theorem view_silent (env : Surroundings) {op : Operation} (hop : op.ofView = true) :
    (op.program env).Makes (· ≠ .deleteDataIncrVersion) := by
  cases op with
  | adminCreate data =>
    exact (PeriodicTaskAdminView.create_silent data).bind (fun _ => trivial)
  | adminEdit pk data =>
    exact (PeriodicTaskAdminView.edit_silent pk data).bind (fun _ => trivial)
  | adminDelete pks => exact (PeriodicTaskAdminView.delete_silent pks).bind (fun _ => trivial)
  | adminTriggerNow pk => exact PeriodicTaskAdminView.triggerNowAction_silent pk
  | adminToggleEnabled pk => exact PeriodicTaskAdminView.toggleEnabledAction_silent pk
  | adminEnableSelected pks =>
    exact (PeriodicTaskAdminView.setEnabledSelected_silent true pks).bind (fun _ => trivial)
  | adminDisableSelected pks =>
    exact (PeriodicTaskAdminView.setEnabledSelected_silent false pks).bind (fun _ => trivial)
  | _ => cases hop

theorem finds_iff {table : PeriodicTaskTable} {ids : Option (List ℕ)} :
    changes.finds table ids = true ↔
      ∃ found, ids = some found ∧ ∃ id ∈ found, id ∈ table.rows.map (·.id) := by
  cases ids with
  | none => simp [changes.finds]
  | some found =>
    simp only [changes.finds, List.any_eq_true, decide_eq_true_eq, List.mem_map, Option.some.injEq,
      exists_eq_left']
    constructor
    · rintro ⟨row, hrow, hid⟩
      exact ⟨row.id, hid, row, hrow, rfl⟩
    · rintro ⟨id, hid, row, hrow, rfl⟩
      exact ⟨row, hrow, hid⟩

section view
variable (env : Surroundings) (s : ScheduleStore)

theorem adminCreate_changes_iff (data : PeriodicTaskAdminView.FormData) :
    ReturnsChanged env.crontabDue ((adminCreate data).program env) s ↔
      (adminCreate data).changes env s = true := by
  refine (returnsChanged_bind_pure _ _ _ s).trans ?_
  rw [PeriodicTaskAdminView.create, changes]
  cases PeriodicTaskAdminView.formCreate env.validCrontab data with
  | none => exact ⟨fun h => (returnsChanged_raise _ _ s h).elim, nofun⟩
  | some t => exact returnsChanged_insert env.crontabDue t s

theorem adminEdit_changes_iff (pk : String) (data : PeriodicTaskAdminView.FormData) :
    ReturnsChanged env.crontabDue ((adminEdit pk data).program env) s ↔
      (adminEdit pk data).changes env s = true := by
  refine (returnsChanged_bind_pure _ _ _ s).trans ?_
  rw [PeriodicTaskAdminView.edit, PeriodicTaskAdminView.uuidOf, changes]
  cases env.parseUuid pk with
  | none => exact ⟨fun h => (returnsChanged_raise _ _ s h).elim, nofun⟩
  | some id =>
    cases PeriodicTaskAdminView.formUpdate env.validCrontab data with
    | none => exact ⟨fun h => (returnsChanged_raise _ _ s h).elim, nofun⟩
    | some t =>
      refine (returnsChanged_update env.crontabDue id t _ s).trans ?_
      rcases hupdate : Periodic.updateTask id t s.now s.table with _ | ⟨table, _ | row⟩ <;>
        simp [hupdate]

theorem adminDelete_changes_iff (pks : List String) :
    ReturnsChanged env.crontabDue ((adminDelete pks).program env) s ↔
      (adminDelete pks).changes env s = true := by
  refine (returnsChanged_bind_pure _ _ _ s).trans ?_
  rw [changes]
  cases pks with
  | nil => simp [ReturnsChanged, PeriodicTaskAdminView.delete, Program.traceOf, Pure.pure,
      changes.finds]
  | cons pk pks =>
    rw [PeriodicTaskAdminView.delete, List.isEmpty_cons, if_neg Bool.false_ne_true]
    cases (pk :: pks).mapM env.parseUuid with
    | none => exact ⟨fun h => (returnsChanged_raise _ _ s h).elim, nofun⟩
    | some ids => exact returnsChanged_delete env.crontabDue ids s

theorem adminToggleEnabled_changes_iff (pk : String) :
    ReturnsChanged env.crontabDue ((adminToggleEnabled pk).program env) s ↔
      (adminToggleEnabled pk).changes env s = true := by
  change ReturnsChanged env.crontabDue
    (PeriodicTaskAdminView.toggleEnabledAction env.parseUuid pk) s ↔ _
  rw [PeriodicTaskAdminView.toggleEnabledAction, PeriodicTaskAdminView.uuidOf, changes, finds_iff]
  cases env.parseUuid pk with
  | none => exact ⟨fun h => (returnsChanged_raise _ _ s h).elim, by rintro ⟨_, h, _⟩; cases h⟩
  | some id =>
    have hfinds : (∃ found, (some id).map ([·]) = some found ∧
        ∃ i ∈ found, i ∈ s.table.rows.map (·.id)) ↔ id ∈ s.table.rows.map (·.id) := by
      constructor
      · rintro ⟨_, hfound, i, hi, hmem⟩
        cases hfound
        exact List.mem_singleton.mp hi ▸ hmem
      · exact fun hmem => ⟨[id], rfl, id, List.mem_singleton.mpr rfl, hmem⟩
    have hcall : ScheduleStore.handler env.crontabDue (.selectById id) s =
        (.ok (s.table.rows.find? (·.id = id)), s) := rfl
    change ReturnsChanged env.crontabDue (Program.call (.selectById id) (fun answer =>
      Program.ofExcept answer >>= orRaise (.valueError "Periodic task not found") >>= fun row =>
        PeriodicTaskAdminView.setEnabled id (!row.enabled.getD false))) s ↔ _
    rw [hfinds, ReturnsChanged, Program.execute_call, Program.traceOf, hcall]
    cases hfind : s.table.rows.find? (·.id = id) with
    | none =>
      constructor
      · rintro ⟨⟨b, hb⟩, -⟩
        cases hb
      · intro hmem
        obtain ⟨row, hrow, hid⟩ := List.mem_map.mp hmem
        exact absurd hid (by simpa using List.find?_eq_none.mp hfind row hrow)
    | some row =>
      obtain ⟨after, found, -, hfound, hexecute, htrace⟩ :=
        setEnabled_execute env.crontabDue id (!row.enabled.getD false) s
      change (∃ a, ((PeriodicTaskAdminView.setEnabled id (!row.enabled.getD false)).execute
        (ScheduleStore.handler env.crontabDue) s).1 = .ok a) ∧
        (⟨.selectById id, .ok (some row)⟩ ::
          (PeriodicTaskAdminView.setEnabled id (!row.enabled.getD false)).traceOf
            (ScheduleStore.handler env.crontabDue) s : List _).any changesRow = true ↔ _
      rw [hexecute, htrace, List.any_cons, List.any_cons, changesRow_updateTask, ← hfound]
      simp [changesRow]

theorem adminSetEnabled_changes_iff (enabled : Bool) (pks : List String) :
    ReturnsChanged env.crontabDue
      (PeriodicTaskAdminView.setEnabledSelected env.parseUuid enabled pks) s ↔
      changes.finds s.table (pks.mapM env.parseUuid) = true := by
  obtain ⟨hreturns, hchanged⟩ :=
    returnsChanged_setEnabledSelected env.crontabDue env.parseUuid enabled pks s
  rw [ReturnsChanged, hreturns, finds_iff, Option.isSome_iff_exists]
  constructor
  · rintro ⟨⟨ids, hids⟩, h⟩
    exact ⟨ids, hids, (hchanged ids hids).mp h⟩
  · rintro ⟨ids, hids, h⟩
    exact ⟨⟨ids, hids⟩, (hchanged ids hids).mpr h⟩

theorem view_changes_iff {op : Operation} (hop : op.ofView = true) :
    ReturnsChanged env.crontabDue (op.program env) s ↔ op.changes env s = true := by
  cases op with
  | adminCreate data => exact adminCreate_changes_iff env s data
  | adminEdit pk data => exact adminEdit_changes_iff env s pk data
  | adminDelete pks => exact adminDelete_changes_iff env s pks
  | adminTriggerNow pk =>
    have hprogram : (PeriodicTaskAdminView.triggerNowAction env.parseUuid pk).Makes
        (fun c => ∀ r, changesRow ⟨c, r⟩ = false) := PeriodicTaskAdminView.triggerNowAction_quiet pk
    have hquiet := traceOf_any_eq_false env.crontabDue hprogram s
    constructor
    · rintro ⟨-, h⟩
      exact absurd h (by rw [Bool.not_eq_true]; exact hquiet)
    · exact nofun
  | adminToggleEnabled pk => exact adminToggleEnabled_changes_iff env s pk
  | adminEnableSelected pks =>
    exact (returnsChanged_bind_pure _ _ _ s).trans (adminSetEnabled_changes_iff env s true pks)
  | adminDisableSelected pks =>
    exact (returnsChanged_bind_pure _ _ _ s).trans (adminSetEnabled_changes_iff env s false pks)
  | _ => cases hop

/-- An operation announces its changes exactly if it is one of the service, or changes nothing. -/
theorem announces_iff (op : Operation) :
    op.Announces env s ↔ op.ofView = false ∨ op.changes env s = false := by
  cases hop : op.ofView with
  | false =>
    have hnotifies := service_notifies env hop
    refine ⟨fun _ => .inl rfl, fun _ _ hchanged => ⟨?_, ?_⟩⟩
    · exact hnotifies.announced env.crontabDue s
    · exact hnotifies.execute env.crontabDue s hchanged
  | true =>
    have hannounced := announced_of_silent
      (silent_of_makes env.crontabDue (view_silent env hop) s)
    have hchanges := view_changes_iff env s hop
    rw [← Bool.not_eq_true (op.changes env s), ← hchanges]
    constructor
    · intro h
      refine .inr (fun hboth => ?_)
      have htrue := (h hboth.1.choose_spec hboth.2).1
      rw [hannounced, hboth.2] at htrue
      cases htrue
    · rintro (h | h) hreturns hchanged
      · cases h
      · exact absurd ⟨⟨(), hreturns⟩, hchanged⟩ h

end view

/-- In a run every change is announced exactly if no operation of the view finds something to
change. -/
theorem run_announces_iff (env : Surroundings) (s : ScheduleStore) (ops : List Operation) :
    EveryStep (step env) (Announces env) s ops ↔
      EveryStep (step env) (fun s op => op.ofView = false ∨ op.changes env s = false) s ops :=
  EveryStep.iff (fun s op => announces_iff env s op)

/-- The flag of the row that the migration inserts is toggled, and the version stays as it is. -/
theorem toggle_not_announced : ¬ ∀ (env : Surroundings) (s : ScheduleStore) (ops : List Operation),
    EveryStep (step env) (Announces env) s ops := by
  intro h
  let pk := "8a6e0804-2bd0-4672-b79d-d97027f9071a"
  let env : Surroundings := ⟨fun _ => true, fun _ => true, fun _ _ _ => false,
    fun text => if text = pk then some 1 else none⟩
  have hstep := (h env newScheduler [.adminToggleEnabled pk]).1
  exact absurd (hstep rfl rfl).2.2 (by decide)

end Operation

end FastapiTemplate.Periodic
