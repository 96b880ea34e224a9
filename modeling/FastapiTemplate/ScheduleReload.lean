import FastapiTemplate.BeatScheduler

/-!
# Reloading the schedule

What `reload_schedule` does when every call succeeds, and when calls to Redis and to the
database fail at any point. Rows have no JSON text, so the cache is never filled, and a fetch
that fails counts as an empty one.
-/

namespace FastapiTemplate.Periodic

open PyValue

/-! ## Fetching -/

/-- Whether the fetch has failed so far that began with the last `connect`. -/
def fetchStep (failed : Bool) (x : (c : ScheduleCall) × c.Answer) : Bool :=
  match x with
  | ⟨.connect, answer⟩ => !answer.isOk
  | ⟨.selectEnabled, answer⟩ => failed || !answer.isOk
  | ⟨.close, answer⟩ => failed || !answer.isOk
  | _ => failed

def FetchFails (trace : List ((c : ScheduleCall) × c.Answer)) : Prop :=
  trace.foldl fetchStep false = true

def fetched (rows : Except ScheduleError (List PeriodicTaskRow)) (closed : Except ScheduleError Unit) :
    List PyValue :=
  match rows, closed with
  | .ok rows, .ok _ => (taskInfos rows).getD []
  | _, _ => []

theorem fetchTasksFromDb_eq : fetchTasksFromDb = Program.call .connect (fun connected =>
    match connected with
    | .ok _ => Program.call .selectEnabled (fun rows =>
        Program.call .close (fun closed => pure (fetched rows closed)))
    | .error _ => pure []) := by
  apply congrArg (Program.call ScheduleCall.connect)
  funext connected
  cases connected with
  | error e => rfl
  | ok u =>
    apply congrArg (Program.call ScheduleCall.selectEnabled)
    funext rows
    cases rows with
    | error e =>
      apply congrArg (Program.call ScheduleCall.close)
      funext closed
      cases closed <;> rfl
    | ok rows =>
      obtain ⟨infos, hinfos, -⟩ := taskInfos_eq (fun _ => true) rows
      change Program.handle (Program.tryFinally (orRaise .jsonDecode (taskInfos rows))
        (do Program.ofExcept (← ask .close))) (fun _ => pure []) = _
      have hfetched : fetched (.ok rows) (.ok ()) = infos := by
        rw [fetched, hinfos]
        rfl
      rw [hinfos]
      apply congrArg (Program.call ScheduleCall.close)
      funext closed
      cases closed with
      | error e => rfl
      | ok u =>
        rw [hfetched]
        rfl

section anyHandler
variable {σ : Type} (handler : (c : ScheduleCall) → σ → c.Answer × σ)

/-- A fetch always returns, and returns nothing when it fails. -/
theorem fetchTasksFromDb_returns (s : σ) :
    ∃ tasks t, fetchTasksFromDb.execute handler s = (.ok tasks, t) ∧
      ∀ failed, (fetchTasksFromDb.traceOf handler s).foldl fetchStep failed = true → tasks = [] := by
  rw [fetchTasksFromDb_eq]
  cases hconnected : (handler .connect s).1 with
  | error e =>
    refine ⟨[], (handler .connect s).2, ?_, fun _ _ => rfl⟩
    rw [Program.execute_call, hconnected]
    rfl
  | ok u =>
    let s₁ := (handler .connect s).2
    let s₂ := (handler .selectEnabled s₁).2
    refine ⟨fetched (handler .selectEnabled s₁).1 (handler .close s₂).1, (handler .close s₂).2, ?_, ?_⟩
    · rw [Program.execute_call, hconnected]
      rfl
    · intro failed
      rw [Program.traceOf, hconnected]
      change (false || !(handler .selectEnabled s₁).1.isOk || !(handler .close s₂).1.isOk) = true → _
      cases (handler .selectEnabled s₁).1 with
      | error e => exact fun _ => rfl
      | ok rows =>
        cases (handler .close s₂).1 with
        | error e => exact fun _ => rfl
        | ok u => exact fun h => by cases h

def NoFetch (c : ScheduleCall) : Prop := ∀ failed answer, fetchStep failed ⟨c, answer⟩ = failed

theorem noFetch_fold {α : Type} {p : ScheduleProgram α} (hp : p.Makes NoFetch) (s : σ)
    (failed : Bool) : (p.traceOf handler s).foldl fetchStep failed = failed := by
  induction p generalizing s with
  | pure a => rfl
  | raise e => rfl
  | call c next ih =>
    rw [Program.traceOf, List.foldl_cons, hp.1]
    exact ih _ (hp.2 _) _

theorem recordVersion_noFetch (tasks : List PyValue) : (recordVersion tasks).Makes NoFetch := by
  refine ⟨fun _ _ => rfl, fun version => ?_⟩
  cases version with
  | error e => trivial
  | ok version => exact ⟨fun _ _ => rfl, fun _ => trivial⟩

theorem recordVersion_ok {s t : σ} {tasks result : List PyValue}
    (h : (recordVersion tasks).execute handler s = (.ok result, t)) : result = tasks := by
  unfold recordVersion at h
  rw [Program.execute_perform_bind] at h
  cases hversion : (handler .getVersion s).1 with
  | error e =>
    rw [hversion] at h
    cases h
  | ok version =>
    rw [hversion] at h
    cases h
    rfl

theorem fetchAndCache_ok {s t : σ} {tasks : List PyValue}
    (h : fetchAndCache.execute handler s = (.ok tasks, t))
    (hfails : FetchFails (fetchAndCache.traceOf handler s)) : tasks = [] := by
  obtain ⟨read, u, hfetch, hnone⟩ := fetchTasksFromDb_returns handler s
  unfold fetchAndCache at h hfails
  unfold FetchFails at hfails
  rw [Program.execute_bind, hfetch] at h
  rw [Program.traceOf_bind, hfetch, List.foldl_append] at hfails
  cases read with
  | nil =>
    cases h
    rfl
  | cons v vs =>
    -- the calls after the fetch are not part of it, so the fetch itself has failed
    have hrest : (do
        let text ← orRaise .typeError (PyValue.list (v :: vs)).dumps
        Program.ofExcept (← ask (.setData text))
        pure (v :: vs) : ScheduleProgram (List PyValue)).Makes NoFetch := by
      cases (PyValue.list (v :: vs)).dumps with
      | none => trivial
      | some text =>
        refine ⟨fun _ _ => rfl, fun answer => ?_⟩
        cases answer <;> trivial
    have hkeeps := noFetch_fold handler hrest u
      ((fetchTasksFromDb.traceOf handler s).foldl fetchStep false)
    exact absurd (hnone false (hkeeps.symm.trans hfails)) (List.cons_ne_nil v vs)

/-- Tasks that have been read are none if the last fetch has failed. -/
theorem readTasks_ok {s t : σ} {tasks : List PyValue}
    (h : readTasks.execute handler s = (.ok tasks, t))
    (hfails : FetchFails (readTasks.traceOf handler s)) : tasks = [] := by
  rw [readTasks_eq] at h hfails
  rw [Program.execute_perform_bind] at h
  rw [Program.perform_bind, Program.traceOf, FetchFails, List.foldl_cons] at hfails
  cases hdata : (handler .getData s).1 with
  | error e =>
    rw [hdata] at h
    cases h
  | ok cached =>
    rw [hdata] at h hfails
    change Program.execute handler ((cached.filter (· ≠ "")).elim fetchAndCache cachedTasks) _ = _
      at h
    change (Program.traceOf handler ((cached.filter (· ≠ "")).elim fetchAndCache cachedTasks)
      _).foldl fetchStep false = true at hfails
    cases hcached : cached.filter (· ≠ "") with
    | none =>
      rw [hcached] at h hfails
      exact fetchAndCache_ok handler h hfails
    | some text =>
      rw [hcached, Option.elim_some] at hfails
      have hnoCall : (cachedTasks text).Makes NoFetch := by
        unfold cachedTasks
        split <;> trivial
      rw [noFetch_fold handler hnoCall] at hfails
      cases hfails

/-- Loading always returns, and returns nothing if the last fetch has failed. -/
theorem loadTasks_returns (s : σ) : ∃ tasks t, loadTasks.execute handler s = (.ok tasks, t) ∧
    (FetchFails (loadTasks.traceOf handler s) → tasks = []) := by
  unfold loadTasks FetchFails
  rw [Program.execute_handle, Program.traceOf_handle]
  cases hbody : (readTasks >>= recordVersion).execute handler s with
  | mk result t =>
    cases result with
    | error e =>
      obtain ⟨tasks, u, hfetch, hfails⟩ := fetchTasksFromDb_returns handler t
      refine ⟨tasks, u, hfetch, ?_⟩
      rw [List.foldl_append]
      exact hfails _
    | ok tasks =>
      refine ⟨tasks, t, rfl, ?_⟩
      rw [List.append_nil]
      intro hfails
      obtain ⟨read, u, hread, hrecord⟩ := (Program.execute_bind_ok handler).mp hbody
      rw [Program.traceOf_bind, hread, List.foldl_append,
        noFetch_fold handler (recordVersion_noFetch read)] at hfails
      rw [recordVersion_ok handler hrecord]
      exact readTasks_ok handler hread hfails

end anyHandler

/-! ## Failing calls -/

/-- The answer of a call that fails. The fields of the scheduler are always there. -/
def ScheduleCall.failure : (c : ScheduleCall) → Option c.Answer
  | .getData => some (.error .redis)
  | .setData _ => some (.error .redis)
  | .getVersion => some (.error .redis)
  | .deleteDataIncrVersion => some (.error .redis)
  | .connect => some (.error .database)
  | .selectEnabled => some (.error .database)
  | .close => some (.error .database)
  | .selectById _ => some (.error .database)
  | .selectByName _ => some (.error .database)
  | .insertTask _ => some (.error .database)
  | .updateTask .. => some (.error .database)
  | .deleteTasks _ => some (.error .database)
  | .sendTask _ => some (.error .redis)
  | .getLastVersion => none
  | .setLastVersion _ => none
  | .installEntries _ => none
  | .setSchedule _ => none
  | .runDue _ => none

section reload
variable (validCrontab : CronFields → Bool) (crontabDue : CronFields → ℕ → ℕ → Bool)

/-- Calls fail as the list says; when it ends they succeed. -/
def faulty (c : ScheduleCall) (s : List Bool × ScheduleStore) :
    c.Answer × (List Bool × ScheduleStore) :=
  match c.failure, s.1 with
  | some answer, true :: faults => (answer, faults, s.2)
  | some _, false :: faults =>
    ((ScheduleStore.handler crontabDue c s.2).1, faults, (ScheduleStore.handler crontabDue c s.2).2)
  | _, faults =>
    ((ScheduleStore.handler crontabDue c s.2).1, faults, (ScheduleStore.handler crontabDue c s.2).2)

instance (trace : List ((c : ScheduleCall) × c.Answer)) : Decidable (FetchFails trace) :=
  inferInstanceAs (Decidable (_ = true))

/-- A reload whose last fetch has failed clears the schedule. -/
theorem reload_of_fetchFails {faults : List Bool} {s : ScheduleStore}
    (hfails : FetchFails ((reloadSchedule validCrontab).traceOf (faulty crontabDue) (faults, s))) :
    ((reloadSchedule validCrontab).execute (faulty crontabDue) (faults, s)).2.2.schedule =
      fun _ => none := by
  obtain ⟨tasks, t, hload, hnone⟩ := loadTasks_returns (faulty crontabDue) (faults, s)
  have hrest (tasks : List PyValue) : (do
      let specs ← orRaise .keyError (newSchedule validCrontab tasks)
      ask (.setSchedule specs) : ScheduleProgram Unit).Makes NoFetch := by
    cases newSchedule validCrontab tasks with
    | none => trivial
    | some specs => exact ⟨fun _ _ => rfl, fun _ => trivial⟩
  unfold reloadSchedule at hfails ⊢
  rw [FetchFails, Program.traceOf_bind, hload, List.foldl_append,
    noFetch_fold (faulty crontabDue) (hrest tasks)] at hfails
  rw [Program.execute_bind, hload, hnone hfails]
  rfl

/-- A reload that could not fetch the tasks keeps the schedule exactly if that was empty. -/
theorem failedReload_keeps_iff {faults : List Bool} {s : ScheduleStore}
    (hfails : FetchFails ((reloadSchedule validCrontab).traceOf (faulty crontabDue) (faults, s))) :
    ((reloadSchedule validCrontab).execute (faulty crontabDue) (faults, s)).2.2.schedule =
      s.schedule ↔ ∀ name, s.schedule name = none := by
  rw [reload_of_fetchFails validCrontab crontabDue hfails]
  exact ⟨fun h name => (congrFun h name).symm, fun h => funext (fun name => (h name).symm)⟩

end reload

/-- The first failing call is the connection to the database: nothing was there to keep. -/
theorem failedReload_keeps_newScheduler :
    ((reloadSchedule fun _ => true).execute (faulty fun _ _ _ => false)
      ([false, true], newScheduler)).2.2.schedule = newScheduler.schedule ↔
      ∀ name, newScheduler.schedule name = none :=
  failedReload_keeps_iff (fun _ => true) (fun _ _ _ => false) (by decide)

/-- The connection to the database fails, and the entry that had been loaded is gone. -/
theorem failedReload_clears : ¬ ∀ (validCrontab : CronFields → Bool)
    (crontabDue : CronFields → ℕ → ℕ → Bool) (faults : List Bool) (s : ScheduleStore),
    FetchFails ((reloadSchedule validCrontab).traceOf (faulty crontabDue) (faults, s)) →
    ((reloadSchedule validCrontab).execute (faulty crontabDue) (faults, s)).2.2.schedule =
      s.schedule := by
  intro h
  let entry : ScheduleEntry := ⟨⟨"delete-old-logs", "api.tasks.delete_old_logs.delete_old_logs",
    .crontab ⟨"0", "0", "*", "*", "*"⟩, .list [], .dict []⟩, 0, 0⟩
  let schedule (name : String) := if name = "delete-old-logs" then some entry else none
  let loaded : ScheduleStore := { newScheduler with schedule := schedule }
  have hfails : FetchFails ((reloadSchedule fun _ => true).traceOf (faulty fun _ _ _ => false)
      ([false, true], loaded)) := by decide
  have hkept := h (fun _ => true) (fun _ _ _ => false) [false, true] loaded hfails
  rw [reload_of_fetchFails _ _ hfails] at hkept
  have hentry : none = schedule "delete-old-logs" := congrFun hkept "delete-old-logs"
  rw [show schedule "delete-old-logs" = some entry from if_pos rfl] at hentry
  cases hentry

/-! ## Reloading without failures -/

section reload
variable (validCrontab : CronFields → Bool) (crontabDue : CronFields → ℕ → ℕ → Bool)

def ScheduleStore.cached (s : ScheduleStore) : Option String :=
  (s.data.filter (fun d => s.now < d.2)).map (·.1)

def ScheduleStore.ReadsDatabase (s : ScheduleStore) : Prop := s.cached.filter (· ≠ "") = none

def builtSchedule (rows : List PeriodicTaskRow) (now : ℕ) (name : String) : Option ScheduleEntry :=
  (specAt (rowSpecs validCrontab rows) name).map (freshEntry now)

def reloaded (s : ScheduleStore) : ScheduleStore :=
  { s with
    lastVersion := if s.table.enabledRows.isEmpty then s.version else s.lastVersion
    schedule := builtSchedule validCrontab s.table.enabledRows s.now }

theorem fetchTasksFromDb_execute {s : ScheduleStore} {infos : List PyValue}
    (hinfos : taskInfos s.table.enabledRows = some infos) :
    fetchTasksFromDb.execute (ScheduleStore.handler crontabDue) s = (.ok infos, s) := by
  rw [fetchTasksFromDb_eq]
  change ((.ok ((taskInfos s.table.enabledRows).getD []), s) :
    Except ScheduleError (List PyValue) × ScheduleStore) = _
  rw [hinfos]
  rfl

theorem loadTasks_execute {s : ScheduleStore} (hdb : s.ReadsDatabase) {infos : List PyValue}
    (hinfos : taskInfos s.table.enabledRows = some infos) :
    loadTasks.execute (ScheduleStore.handler crontabDue) s = (.ok infos, { s with
      lastVersion := if s.table.enabledRows.isEmpty then s.version else s.lastVersion }) := by
  have hfetch := fetchTasksFromDb_execute crontabDue hinfos
  have hread : readTasks.execute (ScheduleStore.handler crontabDue) s =
      fetchAndCache.execute (ScheduleStore.handler crontabDue) s := by
    rw [readTasks_eq]
    change Program.execute (ScheduleStore.handler crontabDue)
      ((s.cached.filter (· ≠ "")).elim fetchAndCache cachedTasks) s = _
    rw [hdb, Option.elim_none]
  unfold loadTasks
  rw [Program.execute_handle, Program.execute_bind, hread]
  unfold fetchAndCache
  rw [Program.execute_bind, hfetch]
  cases hrows : s.table.enabledRows with
  | nil =>
    rw [hrows] at hinfos
    cases hinfos
    rfl
  | cons row rows =>
    have hdumps := dumps_taskInfos (by rw [hrows]; exact List.cons_ne_nil row rows) hinfos
    obtain ⟨infos', hinfos', hlength, -⟩ := taskInfos_eq (fun _ => true) s.table.enabledRows
    rw [hinfos] at hinfos'
    cases hinfos'
    cases infos with
    | nil =>
      rw [hrows] at hlength
      cases hlength
    | cons v vs =>
      simp only [List.isEmpty_cons, Bool.false_eq_true, if_false, hdumps]
      exact hfetch

/-- What a reload does when no call fails and no text is cached. -/
theorem reload_execute {s : ScheduleStore} (hdb : s.ReadsDatabase) :
    (reloadSchedule validCrontab).execute (ScheduleStore.handler crontabDue) s =
      (.ok (), reloaded validCrontab s) := by
  obtain ⟨infos, hinfos, -, hschedule⟩ := taskInfos_eq validCrontab s.table.enabledRows
  unfold reloadSchedule
  rw [Program.execute_bind, loadTasks_execute crontabDue hdb hinfos]
  dsimp only
  rw [hschedule]
  rfl

theorem readsDatabase_reloaded {s : ScheduleStore} (hdb : s.ReadsDatabase) :
    (reloaded validCrontab s).ReadsDatabase := hdb

def reloadOnce (s : ScheduleStore) : ScheduleStore :=
  ((reloadSchedule validCrontab).execute (ScheduleStore.handler crontabDue) s).2

/-- The reload records the version and fills the cache, and the next reload, which reads the cache,
builds the same entries. -/
def CacheAgrees (s : ScheduleStore) : Prop :=
  let first := reloadOnce validCrontab crontabDue s
  let second := reloadOnce validCrontab crontabDue first
  first.lastVersion = first.version ∧ ¬ first.ReadsDatabase ∧
    ∀ name, (second.schedule name).map (·.spec) = (first.schedule name).map (·.spec)

/-- No reload from the database fills the cache, and one that finds an enabled row does not record
the version either. -/
theorem cache_never_agrees {s : ScheduleStore} (hdb : s.ReadsDatabase) :
    ¬ CacheAgrees validCrontab crontabDue s ∧ (s.table.enabledRows ≠ [] →
      (reloadOnce validCrontab crontabDue s).lastVersion = s.lastVersion) := by
  have hfirst : reloadOnce validCrontab crontabDue s = reloaded validCrontab s := by
    rw [reloadOnce, reload_execute validCrontab crontabDue hdb]
  constructor
  · rintro ⟨-, hcached, -⟩
    rw [hfirst] at hcached
    exact hcached (readsDatabase_reloaded validCrontab hdb)
  · intro hrows
    rw [hfirst]
    change (if s.table.enabledRows.isEmpty then s.version else s.lastVersion) = s.lastVersion
    rw [if_neg (by simpa using hrows)]

end reload

theorem cache_disagrees_newScheduler :
    ¬ CacheAgrees (fun _ => true) (fun _ _ _ => false) newScheduler ∧
      (newScheduler.table.enabledRows ≠ [] →
        (reloadOnce (fun _ => true) (fun _ _ _ => false) newScheduler).lastVersion = none) :=
  cache_never_agrees (fun _ => true) (fun _ _ _ => false) (s := newScheduler) rfl

/-- One enabled row: the reload does not record the version. -/
theorem cache_not_agrees : ¬ ∀ (validCrontab : CronFields → Bool)
    (crontabDue : CronFields → ℕ → ℕ → Bool) (s : ScheduleStore), s.ReadsDatabase →
    CacheAgrees validCrontab crontabDue s := by
  intro h
  have hdb : newScheduler.ReadsDatabase := rfl
  obtain ⟨hversion, -⟩ := h (fun _ => true) (fun _ _ _ => false) newScheduler hdb
  rw [reloadOnce, reload_execute _ _ hdb] at hversion
  cases hversion

end FastapiTemplate.Periodic
