import FastapiTemplate.ScheduleReload
import FastapiTemplate.TransitionRuns

/-!
# Runs of the beat scheduler

Ticks and reloads in any order, while the table, the version and the time change and calls
fail. A reload builds every entry anew, so that it has just been made and has never run.
-/

namespace FastapiTemplate.Periodic

/-! ## What a reload reads when calls may fail -/

section faulty
variable (validCrontab : CronFields → Bool) (crontabDue : CronFields → ℕ → ℕ → Bool)

/-- A call fails, which changes nothing, or it is answered. -/
theorem faulty_cases {c : ScheduleCall} {answer : c.Answer} (hc : c.failure = some answer)
    (faults : List Bool) (s : ScheduleStore) : ∃ rest,
      faulty crontabDue c (faults, s) = (answer, (rest, s)) ∨
      faulty crontabDue c (faults, s) = ((ScheduleStore.handler crontabDue c s).1,
        (rest, (ScheduleStore.handler crontabDue c s).2)) := by
  unfold faulty
  rw [hc]
  cases faults with
  | nil => exact ⟨[], .inr rfl⟩
  | cons fails rest =>
    refine ⟨rest, ?_⟩
    cases fails with
    | false => exact .inr rfl
    | true => exact .inl rfl

/-- The result, the state and the failures that are left, and whether the last fetch has failed. -/
def Outcome {α : Type} (p : ScheduleProgram α) (x : List Bool × ScheduleStore) (failed : Bool)
    (result : Except ScheduleError α) (y : List Bool × ScheduleStore) (fails : Bool) : Prop :=
  p.execute (faulty crontabDue) x = (result, y) ∧
    (p.traceOf (faulty crontabDue) x).foldl fetchStep failed = fails

variable {crontabDue} in
theorem Outcome.call {α : Type} {c : ScheduleCall} {next : c.Answer → ScheduleProgram α}
    {x x' y : List Bool × ScheduleStore} {answer : c.Answer} {failed fails : Bool}
    {result : Except ScheduleError α} (hc : faulty crontabDue c x = (answer, x'))
    (h : Outcome crontabDue (next answer) x' (fetchStep failed ⟨c, answer⟩) result y fails) :
    Outcome crontabDue (.call c next) x failed result y fails := by
  unfold Outcome at h ⊢
  rw [Program.execute_call, Program.traceOf, hc, List.foldl_cons]
  exact h

section rules
variable {crontabDue} {α β : Type} {p : ScheduleProgram α} {x y z : List Bool × ScheduleStore}
  {failed fails fails' : Bool}

theorem Outcome.bind_ok {f : α → ScheduleProgram β} {a : α} {result : Except ScheduleError β}
    (hp : Outcome crontabDue p x failed (.ok a) y fails)
    (hf : Outcome crontabDue (f a) y fails result z fails') :
    Outcome crontabDue (p >>= f) x failed result z fails' := by
  constructor
  · rw [Program.execute_bind, hp.1]
    exact hf.1
  · rw [Program.traceOf_bind, hp.1, List.foldl_append, hp.2]
    exact hf.2

theorem Outcome.bind_error {f : α → ScheduleProgram β} {e : ScheduleError}
    (hp : Outcome crontabDue p x failed (.error e) y fails) :
    Outcome crontabDue (p >>= f) x failed (.error e) y fails := by
  constructor
  · rw [Program.execute_bind, hp.1]
  · rw [Program.traceOf_bind, hp.1, List.append_nil]
    exact hp.2

theorem Outcome.handle_ok {f : ScheduleError → ScheduleProgram α} {a : α}
    (hp : Outcome crontabDue p x failed (.ok a) y fails) :
    Outcome crontabDue (p.handle f) x failed (.ok a) y fails := by
  constructor
  · rw [Program.execute_handle, hp.1]
  · rw [Program.traceOf_handle, hp.1, List.append_nil]
    exact hp.2

theorem Outcome.handle_error {f : ScheduleError → ScheduleProgram α} {e : ScheduleError}
    {result : Except ScheduleError α} (hp : Outcome crontabDue p x failed (.error e) y fails)
    (hf : Outcome crontabDue (f e) y fails result z fails') :
    Outcome crontabDue (p.handle f) x failed result z fails' := by
  constructor
  · rw [Program.execute_handle, hp.1]
    exact hf.1
  · rw [Program.traceOf_handle, hp.1, List.foldl_append, hp.2]
    exact hf.2

end rules

/-- A fetch returns the enabled rows, or nothing if it fails. -/
theorem fetch_outcome {s : ScheduleStore} {infos : List PyValue}
    (hinfos : taskInfos s.table.enabledRows = some infos) (faults : List Bool) (failed : Bool) :
    ∃ rest fails, Outcome crontabDue fetchTasksFromDb (faults, s) failed
      (.ok (if fails then [] else infos)) (rest, s) fails := by
  rw [fetchTasksFromDb_eq]
  obtain ⟨faults₁, h₁ | h₁⟩ := faulty_cases crontabDue (c := .connect) rfl faults s
  · exact ⟨faults₁, true, .call h₁ ⟨rfl, rfl⟩⟩
  obtain ⟨faults₂, h₂ | h₂⟩ := faulty_cases crontabDue (c := .selectEnabled) rfl faults₁ s
  · obtain ⟨faults₃, h₃ | h₃⟩ := faulty_cases crontabDue (c := .close) rfl faults₂ s
    · exact ⟨faults₃, true, .call h₁ (.call h₂ (.call h₃ ⟨rfl, rfl⟩))⟩
    · exact ⟨faults₃, true, .call h₁ (.call h₂ (.call h₃ ⟨rfl, rfl⟩))⟩
  · obtain ⟨faults₃, h₃ | h₃⟩ := faulty_cases crontabDue (c := .close) rfl faults₂ s
    · exact ⟨faults₃, true, .call h₁ (.call h₂ (.call h₃ ⟨rfl, rfl⟩))⟩
    · have hfetched : fetched (.ok s.table.enabledRows) (.ok ()) = infos := by
        rw [fetched, hinfos]
        rfl
      refine ⟨faults₃, false, .call h₁ (.call h₂ (.call h₃ ⟨?_, rfl⟩))⟩
      rw [if_neg Bool.false_ne_true, ← hfetched]
      rfl

/-- Reading and recording either ends with the rows, or raises and leaves the store as it was. -/
theorem readAndRecord_outcome {s : ScheduleStore} (hdb : s.ReadsDatabase) {infos : List PyValue}
    (hinfos : taskInfos s.table.enabledRows = some infos) (faults : List Bool) :
    (∃ rest e fails, Outcome crontabDue (readTasks >>= recordVersion) (faults, s) false
      (.error e) (rest, s) fails) ∨
    ∃ rest last fails, Outcome crontabDue (readTasks >>= recordVersion) (faults, s) false
      (.ok (if fails then [] else infos)) (rest, { s with lastVersion := last }) fails := by
  obtain ⟨faults₁, h₁ | h₁⟩ := faulty_cases crontabDue (c := .getData) rfl faults s
  · exact .inl ⟨faults₁, _, false, Outcome.bind_error (Outcome.call h₁ ⟨rfl, rfl⟩)⟩
  obtain ⟨faults₂, fails, h₂⟩ := fetch_outcome crontabDue hinfos faults₁ false
  have hread {result : Except ScheduleError (List PyValue)} {y : List Bool × ScheduleStore}
      {fails : Bool} (h : Outcome crontabDue fetchAndCache (faults₁, s) false result y fails) :
      Outcome crontabDue readTasks (faults, s) false result y fails := by
    rw [readTasks_eq]
    refine Outcome.call h₁ ?_
    change Outcome crontabDue ((s.cached.filter (· ≠ "")).elim fetchAndCache cachedTasks)
      (faults₁, s) false result y fails
    rw [hdb]
    exact h
  cases htasks : (if fails then [] else infos) with
  | nil =>
    rw [htasks] at h₂
    have hfetched : Outcome crontabDue fetchAndCache (faults₁, s) false (.ok []) (faults₂, s) fails :=
      h₂.bind_ok ⟨rfl, rfl⟩
    obtain ⟨faults₃, h₃ | h₃⟩ := faulty_cases crontabDue (c := .getVersion) rfl faults₂ s
    · exact .inl ⟨faults₃, _, fails, (hread hfetched).bind_ok (Outcome.call h₃ ⟨rfl, rfl⟩)⟩
    · refine .inr ⟨faults₃, s.version, fails, ?_⟩
      rw [htasks]
      exact (hread hfetched).bind_ok (Outcome.call h₃ (Outcome.call rfl ⟨rfl, rfl⟩))
  | cons v vs =>
    rw [htasks] at h₂
    cases fails with
    | true => cases htasks
    | false =>
      have hrows : s.table.enabledRows ≠ [] := by
        intro hnil
        rw [hnil] at hinfos
        cases hinfos
        cases htasks
      have hdumps := dumps_taskInfos hrows hinfos
      rw [if_neg Bool.false_ne_true] at htasks
      have hraises : Outcome crontabDue fetchAndCache (faults₁, s) false (.error .typeError)
          (faults₂, s) false := by
        refine h₂.bind_ok ?_
        rw [htasks] at hdumps
        simp only [List.isEmpty_cons, Bool.false_eq_true, if_false, hdumps]
        exact ⟨rfl, rfl⟩
      exact .inl ⟨faults₂, _, false, (hread hraises).bind_error⟩

/-- A reload builds all entries anew, from the enabled rows or, if the last fetch fails, from
none. -/
theorem reload_outcome {s : ScheduleStore} (hdb : s.ReadsDatabase) (faults : List Bool) :
    ∃ rest last fails, Outcome crontabDue (reloadSchedule validCrontab) (faults, s) false (.ok ())
      (rest, { s with
        lastVersion := last
        schedule := builtSchedule validCrontab (if fails then [] else s.table.enabledRows) s.now })
      fails := by
  obtain ⟨infos, hinfos, -, hschedule⟩ := taskInfos_eq validCrontab s.table.enabledRows
  have hload : ∃ rest last fails, Outcome crontabDue loadTasks (faults, s) false
      (.ok (if fails then [] else infos)) (rest, { s with lastVersion := last }) fails := by
    rcases readAndRecord_outcome crontabDue hdb hinfos faults with
      ⟨rest, e, fails, h⟩ | ⟨rest, last, fails, h⟩
    · obtain ⟨rest', fails', h'⟩ := fetch_outcome crontabDue hinfos rest fails
      exact ⟨rest', s.lastVersion, fails', h.handle_error h'⟩
    · exact ⟨rest, last, fails, h.handle_ok⟩
  obtain ⟨rest, last, fails, h⟩ := hload
  refine ⟨rest, last, fails, h.bind_ok ?_⟩
  cases fails with
  | true => exact ⟨rfl, rfl⟩
  | false =>
    rw [if_neg Bool.false_ne_true, hschedule]
    exact ⟨rfl, rfl⟩

def reloadFails (faults : List Bool) (s : ScheduleStore) : Bool :=
  ((reloadSchedule validCrontab).traceOf (faulty crontabDue) (faults, s)).foldl fetchStep false

def readRows (faults : List Bool) (s : ScheduleStore) : List PeriodicTaskRow :=
  if reloadFails validCrontab crontabDue faults s then [] else s.table.enabledRows

theorem readsDatabase_of_data {s : ScheduleStore} (h : s.data = none) : s.ReadsDatabase := by
  rw [ScheduleStore.ReadsDatabase, ScheduleStore.cached, h]
  rfl

/-- What a reload leaves when no text is cached. -/
theorem reload_faulty {s : ScheduleStore} (h : s.data = none) (faults : List Bool) : ∃ last,
    ((reloadSchedule validCrontab).execute (faulty crontabDue) (faults, s)).2.2 = { s with
      lastVersion := last
      schedule := builtSchedule validCrontab (readRows validCrontab crontabDue faults s) s.now } := by
  obtain ⟨rest, last, fails, hexecute, htrace⟩ :=
    reload_outcome validCrontab crontabDue (readsDatabase_of_data h) faults
  refine ⟨last, ?_⟩
  rw [hexecute, readRows, reloadFails, htrace]

end faulty

/-! ## Runs -/

/-- The scheduler, the rows that its last reload has read, the default entries that have been
installed, and when each task ran last or, if it has not run yet, was first scheduled. -/
structure BeatRun where
  store : ScheduleStore
  noData : store.data = none
  loaded : List PeriodicTaskRow
  defaults : List EntrySpec
  ran : String → ℕ

/-- The parts of `setup_schedule` and of `tick`, and what happens in between. -/
inductive BeatMove
  | install (defaults : List EntrySpec)
  | reload (faults : List Bool)
  | runDue (name : Option String)
  | wait (seconds : ℕ)
  | change (table : PeriodicTaskTable) (version : Option ℕ)

namespace BeatRun

def start (now : ℕ) (table : PeriodicTaskTable) (version : Option ℕ) : BeatRun where
  store := {
    now := now
    table := table
    nextId := 1
    data := none
    version := version
    lastVersion := none
    schedule := fun _ => none
    sent := [] }
  noData := rfl
  loaded := []
  defaults := []
  ran := fun _ => now

def Unchanged (b : BeatRun) (row : PeriodicTaskRow) : Prop :=
  row ∈ b.loaded ∧ row ∈ b.store.table.enabledRows

section run
variable (validCrontab : CronFields → Bool) (crontabDue : CronFields → ℕ → ℕ → Bool)

def Due (b : BeatRun) (name : String) : Prop :=
  ∃ e, b.store.schedule name = some e ∧
    isDue crontabDue e.spec.schedule e.lastRunAt b.store.now = true

theorem reload_noData (b : BeatRun) (faults : List Bool) : (((reloadSchedule validCrontab).execute
    (faulty crontabDue) (faults, b.store)).2.2).data = none := by
  obtain ⟨last, hreload⟩ := reload_faulty validCrontab crontabDue b.noData faults
  rw [hreload]
  exact b.noData

theorem runDue_data (s : ScheduleStore) (name : Option String) :
    (ScheduleStore.handler crontabDue (.runDue name) s).2.data = s.data := by
  cases name with
  | none => rfl
  | some name =>
    simp only [ScheduleStore.handler, ScheduleStore.runDue]
    split
    · split <;> rfl
    · rfl

open Classical in
noncomputable def step (b : BeatRun) : BeatMove → BeatRun
  | .install defaults => { b with
      store := (ScheduleStore.handler crontabDue (.installEntries defaults) b.store).2
      noData := b.noData
      defaults := b.defaults ++ defaults
      ran := fun name => if (specAt defaults name).isSome then b.store.now else b.ran name }
  | .reload faults => { b with
      store := ((reloadSchedule validCrontab).execute (faulty crontabDue) (faults, b.store)).2.2
      noData := reload_noData validCrontab crontabDue b faults
      loaded := readRows validCrontab crontabDue faults b.store
      ran := fun name =>
        if ∃ row, b.Unchanged row ∧ row.name = name then b.ran name else b.store.now }
  | .runDue name => { b with
      store := (ScheduleStore.handler crontabDue (.runDue name) b.store).2
      noData := (runDue_data crontabDue b.store name).trans b.noData
      ran := fun n => if name = some n ∧ b.Due crontabDue n then b.store.now else b.ran n }
  | .wait seconds => { b with
      store := { b.store with now := b.store.now + seconds }
      noData := b.noData }
  | .change table version => { b with
      store := { b.store with table := table, version := version }
      noData := b.noData }

/-- `setup_schedule` installs and reloads. -/
theorem setup_moves (b : BeatRun) (defaults : List EntrySpec) (faults : List Bool) :
    ((setupSchedule validCrontab defaults).execute (faulty crontabDue) (faults, b.store)).2.2 =
      (run (step validCrontab crontabDue) b [.install defaults, .reload faults]).store := rfl

/-- A tick is a reload, or none, and then the run of a task that is due. -/
theorem tick_moves (b : BeatRun) (name : Option String) (faults : List Bool) : ∃ reloads,
    (reloads = [] ∨ ∃ rest, reloads = [.reload rest]) ∧
    ((tick validCrontab name).execute (faulty crontabDue) (faults, b.store)).2.2 =
      (run (step validCrontab crontabDue) b (reloads ++ [.runDue name])).store := by
  let check : ScheduleProgram Unit := do
    let version ← Program.ofExcept (← ask .getVersion)
    let last ← ask .getLastVersion
    if version = last then pure () else reloadSchedule validCrontab
  -- the entry that is run is the one that the check leaves
  have hlast {rest : List Bool} {s : ScheduleStore} {fails : Bool}
      (h : Outcome crontabDue (check.handle (fun _ => pure ())) (faults, b.store) false (.ok ())
        (rest, s) fails) :
      ((tick validCrontab name).execute (faulty crontabDue) (faults, b.store)).2.2 =
        (ScheduleStore.handler crontabDue (.runDue name) s).2 := by
    change (((check.handle (fun _ => pure ())) >>= fun _ => ask (.runDue name)).execute
      (faulty crontabDue) (faults, b.store)).2.2 = _
    rw [Program.execute_bind, h.1]
    rfl
  obtain ⟨rest, h | h⟩ := faulty_cases crontabDue (c := .getVersion) rfl faults b.store
  · have hcheck : Outcome crontabDue check (faults, b.store) false (.error .redis) (rest, b.store)
        false := .call h ⟨rfl, rfl⟩
    exact ⟨[], .inl rfl, hlast (hcheck.handle_error ⟨rfl, rfl⟩)⟩
  · have hcheck {y : List Bool × ScheduleStore} {fails : Bool}
        (h' : Outcome crontabDue (if b.store.version = b.store.lastVersion then pure ()
          else reloadSchedule validCrontab) (rest, b.store) false (.ok ()) y fails) :
        Outcome crontabDue check (faults, b.store) false (.ok ()) y fails :=
      .call h (.call rfl h')
    by_cases hsame : b.store.version = b.store.lastVersion
    · rw [if_pos hsame] at hcheck
      exact ⟨[], .inl rfl, hlast (hcheck ⟨rfl, rfl⟩).handle_ok⟩
    · rw [if_neg hsame] at hcheck
      obtain ⟨rest', last, fails, hreload⟩ :=
        reload_outcome validCrontab crontabDue (readsDatabase_of_data b.noData) rest
      refine ⟨[.reload rest], .inr ⟨rest, rfl⟩, ?_⟩
      rw [hlast (hcheck hreload).handle_ok]
      change _ = (ScheduleStore.handler crontabDue (.runDue name)
        ((reloadSchedule validCrontab).execute (faulty crontabDue) (rest, b.store)).2.2).2
      rw [hreload.1]

/-! ## What a reload keeps -/

/-- Entries of unchanged rows keep the state of their runs, and default entries are still there. -/
structure KeepsEntries (b after : BeatRun) : Prop where
  rows : ∀ row, b.Unchanged row → ∀ e, b.store.schedule row.name = some e →
    ∃ e', after.store.schedule row.name = some e' ∧ e'.lastRunAt = e.lastRunAt ∧
      e'.totalRunCount = e.totalRunCount
  defaults : ∀ spec ∈ b.defaults, ∀ e, b.store.schedule spec.name = some e → e.spec = spec →
    ∃ e', after.store.schedule spec.name = some e' ∧ e'.spec = spec

def Keeps (b : BeatRun) (m : BeatMove) : Prop :=
  match m with
  | .reload _ => KeepsEntries b (b.step validCrontab crontabDue m)
  | _ => True

/-- An interval task is due exactly when its interval has passed since it ran last. -/
def DueInTime (b : BeatRun) : Prop :=
  ∀ name e seconds, b.store.schedule name = some e → e.spec.schedule = .interval seconds →
    (b.Due crontabDue name ↔ (b.ran name : ℤ) + seconds ≤ b.store.now)

/-- Nothing is lost when the entries are built anew: those of unchanged rows have just been made
and have not run, and a row builds every default entry. -/
structure NothingToKeep (b : BeatRun) (faults : List Bool) : Prop where
  rows : ∀ row, b.Unchanged row → ∀ e, b.store.schedule row.name = some e →
    reloadFails validCrontab crontabDue faults b.store = false ∧
      (rowSpec validCrontab row).isSome ∧ e.lastRunAt = b.store.now ∧ e.totalRunCount = 0
  defaults : ∀ spec ∈ b.defaults, ∀ e, b.store.schedule spec.name = some e → e.spec = spec →
    reloadFails validCrontab crontabDue faults b.store = false ∧
      specAt (rowSpecs validCrontab b.store.table.enabledRows) spec.name = some spec

def Harmless (b : BeatRun) (m : BeatMove) : Prop :=
  match m with
  | .reload faults => b.NothingToKeep validCrontab crontabDue faults
  | _ => True

theorem reload_schedule (b : BeatRun) (faults : List Bool) :
    (b.step validCrontab crontabDue (.reload faults)).store.schedule =
      builtSchedule validCrontab (readRows validCrontab crontabDue faults b.store) b.store.now := by
  obtain ⟨last, hreload⟩ := reload_faulty validCrontab crontabDue b.noData faults
  change (((reloadSchedule validCrontab).execute (faulty crontabDue) (faults, b.store)).2.2).schedule
    = _
  rw [hreload]

theorem reload_frame (b : BeatRun) (faults : List Bool) :
    (b.step validCrontab crontabDue (.reload faults)).store.table = b.store.table ∧
      (b.step validCrontab crontabDue (.reload faults)).loaded =
        readRows validCrontab crontabDue faults b.store := by
  obtain ⟨last, hreload⟩ := reload_faulty validCrontab crontabDue b.noData faults
  change (((reloadSchedule validCrontab).execute (faulty crontabDue) (faults, b.store)).2.2).table = _ ∧
    readRows validCrontab crontabDue faults b.store = _
  rw [hreload]
  exact ⟨rfl, rfl⟩

end run
end BeatRun

/-! ## The entries of rows -/

theorem rowSpec_name {validCrontab : CronFields → Bool} {row : PeriodicTaskRow} {spec : EntrySpec}
    (h : rowSpec validCrontab row = some spec) : spec.name = row.name := by
  obtain ⟨info, -, h⟩ := Option.bind_eq_some_iff.mp h
  obtain ⟨schedule, -, h⟩ := Option.bind_eq_some_iff.mp h
  obtain ⟨task, -, h⟩ := Option.bind_eq_some_iff.mp h
  cases h
  rfl

/-- Among rows with different names, the entry of a name is that of the row with the name. -/
theorem specAt_rowSpecs {validCrontab : CronFields → Bool} {rows : List PeriodicTaskRow}
    (hnames : (rows.map (·.name)).Nodup) {row : PeriodicTaskRow} (hrow : row ∈ rows) :
    specAt (rowSpecs validCrontab rows) row.name = rowSpec validCrontab row := by
  cases hfind : specAt (rowSpecs validCrontab rows) row.name with
  | none =>
    cases hspec : rowSpec validCrontab row with
    | none => rfl
    | some spec =>
      have hmem : spec ∈ rowSpecs validCrontab rows := List.mem_filterMap.mpr ⟨row, hrow, hspec⟩
      have hname := List.find?_eq_none.mp hfind spec (List.mem_reverse.mpr hmem)
      exact absurd (decide_eq_true (rowSpec_name hspec)) hname
  | some spec =>
    have hmem : spec ∈ rowSpecs validCrontab rows :=
      List.mem_reverse.mp (List.mem_of_find?_eq_some hfind)
    obtain ⟨row', hrow', hspec⟩ := List.mem_filterMap.mp hmem
    have hname : spec.name = row.name := by simpa using List.find?_some hfind
    have hsame : row' = row :=
      List.inj_on_of_nodup_map hnames hrow' hrow ((rowSpec_name hspec).symm.trans hname)
    rw [← hsame, hspec]

theorem enabledRows_names (table : PeriodicTaskTable) :
    (table.enabledRows.map (·.name)).Nodup :=
  table.namesApart.sublist (List.filter_sublist.map _)

namespace BeatRun

section run
variable (validCrontab : CronFields → Bool) (crontabDue : CronFields → ℕ → ℕ → Bool)

/-- A reload keeps the entries exactly if there is nothing to keep in them. -/
theorem keeps_iff (b : BeatRun) (m : BeatMove) :
    b.Keeps validCrontab crontabDue m ↔ b.Harmless validCrontab crontabDue m := by
  cases m with
  | reload faults =>
    have hschedule := reload_schedule validCrontab crontabDue b faults
    constructor
    · intro h
      refine ⟨fun row hrow e he => ?_, fun spec hspec e he heq => ?_⟩
      · obtain ⟨e', he', hlast, hcount⟩ := h.rows row hrow e he
        rw [hschedule] at he'
        obtain ⟨spec, hspec, rfl⟩ := Option.map_eq_some_iff.mp he'
        cases hfails : reloadFails validCrontab crontabDue faults b.store with
        | true =>
          rw [readRows, hfails] at hspec
          cases hspec
        | false =>
          rw [readRows, hfails, if_neg Bool.false_ne_true,
            specAt_rowSpecs (enabledRows_names _) hrow.2] at hspec
          exact ⟨rfl, Option.isSome_of_eq_some hspec, hlast.symm, hcount.symm⟩
      · obtain ⟨e', he', hsame⟩ := h.defaults spec hspec e he heq
        rw [hschedule] at he'
        obtain ⟨spec', hspec', rfl⟩ := Option.map_eq_some_iff.mp he'
        cases hfails : reloadFails validCrontab crontabDue faults b.store with
        | true =>
          rw [readRows, hfails] at hspec'
          cases hspec'
        | false =>
          rw [readRows, hfails, if_neg Bool.false_ne_true] at hspec'
          exact ⟨rfl, hspec'.trans (congrArg some hsame)⟩
    · intro h
      refine ⟨fun row hrow e he => ?_, fun spec hspec e he heq => ?_⟩
      · obtain ⟨hfails, hsome, hlast, hcount⟩ := h.rows row hrow e he
        obtain ⟨spec, hspec⟩ := Option.isSome_iff_exists.mp hsome
        refine ⟨freshEntry b.store.now spec, ?_, hlast.symm, hcount.symm⟩
        rw [hschedule, readRows, hfails, if_neg Bool.false_ne_true, builtSchedule,
          specAt_rowSpecs (enabledRows_names _) hrow.2, hspec]
        rfl
      · obtain ⟨hfails, hbuilt⟩ := h.defaults spec hspec e he heq
        refine ⟨freshEntry b.store.now spec, ?_, rfl⟩
        rw [hschedule, readRows, hfails, if_neg Bool.false_ne_true, builtSchedule, hbuilt]
        rfl
  | _ => exact Iff.rfl

/-! ## When tasks are due -/

/-- The entries know when their tasks ran last, and every row that has been read has its entry. -/
structure Tracked (b : BeatRun) : Prop where
  lastRuns : ∀ name e, b.store.schedule name = some e → e.lastRunAt = b.ran name
  entries : ∀ row ∈ b.loaded, (rowSpec validCrontab row).isSome →
    (b.store.schedule row.name).isSome

theorem Tracked.dueInTime {b : BeatRun} (h : b.Tracked validCrontab) : b.DueInTime crontabDue := by
  intro name e seconds he hinterval
  rw [← h.lastRuns name e he]
  constructor
  · rintro ⟨e', he', hdue⟩
    cases he.symm.trans he'
    rw [hinterval] at hdue
    exact of_decide_eq_true hdue
  · intro hdue
    refine ⟨e, he, ?_⟩
    rw [hinterval]
    exact decide_eq_true hdue

theorem readRows_names (b : BeatRun) (faults : List Bool) :
    ((readRows validCrontab crontabDue faults b.store).map (·.name)).Nodup := by
  unfold readRows
  split
  · exact List.nodup_nil
  · exact enabledRows_names _

theorem ran_reload_of_unchanged (b : BeatRun) (faults : List Bool) {name : String}
    (h : ∃ row, b.Unchanged row ∧ row.name = name) :
    (b.step validCrontab crontabDue (.reload faults)).ran name = b.ran name := if_pos h

theorem ran_reload_of_changed (b : BeatRun) (faults : List Bool) {name : String}
    (h : ¬ ∃ row, b.Unchanged row ∧ row.name = name) :
    (b.step validCrontab crontabDue (.reload faults)).ran name = b.store.now := if_neg h

theorem Tracked.reload {b : BeatRun} (h : b.Tracked validCrontab) {faults : List Bool}
    (hok : b.NothingToKeep validCrontab crontabDue faults) :
    (b.step validCrontab crontabDue (.reload faults)).Tracked validCrontab := by
  have hschedule := reload_schedule validCrontab crontabDue b faults
  constructor
  · intro name e he
    rw [hschedule] at he
    obtain ⟨spec, hspec, rfl⟩ := Option.map_eq_some_iff.mp he
    by_cases hunchanged : ∃ row, b.Unchanged row ∧ row.name = name
    · rw [ran_reload_of_unchanged validCrontab crontabDue b faults hunchanged]
      obtain ⟨row, hrow, rfl⟩ := hunchanged
      -- the row had an entry before, which had just been made as well
      have hsome : (rowSpec validCrontab row).isSome := by
        unfold readRows at hspec
        split at hspec
        · cases hspec
        · rw [specAt_rowSpecs (enabledRows_names _) hrow.2] at hspec
          exact Option.isSome_of_eq_some hspec
      obtain ⟨e₀, he₀⟩ := Option.isSome_iff_exists.mp (h.entries row hrow.1 hsome)
      obtain ⟨-, -, hnow, -⟩ := hok.rows row hrow e₀ he₀
      exact hnow.symm.trans (h.lastRuns row.name e₀ he₀)
    · rw [ran_reload_of_changed validCrontab crontabDue b faults hunchanged]
      rfl
  · intro row hrow hsome
    rw [hschedule, builtSchedule,
      specAt_rowSpecs (readRows_names validCrontab crontabDue b faults) hrow, Option.isSome_map]
    exact hsome

theorem Tracked.install {b : BeatRun} (h : b.Tracked validCrontab) (defaults : List EntrySpec) :
    (b.step validCrontab crontabDue (.install defaults)).Tracked validCrontab := by
  have hschedule (name : String) :
      (b.step validCrontab crontabDue (.install defaults)).store.schedule name =
        ((specAt defaults name).map (freshEntry b.store.now)).or (b.store.schedule name) := rfl
  have hran (name : String) : (b.step validCrontab crontabDue (.install defaults)).ran name =
      if (specAt defaults name).isSome then b.store.now else b.ran name := rfl
  constructor
  · intro name e he
    rw [hschedule] at he
    rw [hran]
    cases hspec : specAt defaults name with
    | none =>
      rw [hspec] at he
      exact h.lastRuns name e he
    | some spec =>
      rw [hspec] at he
      cases he
      rfl
  · intro row hrow hsome
    rw [hschedule, Option.isSome_or, h.entries row hrow hsome, Bool.or_true]

theorem ran_runDue_of_due (b : BeatRun) {name : String} (h : b.Due crontabDue name) :
    (b.step validCrontab crontabDue (.runDue (some name))).ran name = b.store.now :=
  if_pos ⟨rfl, h⟩

theorem ran_runDue_of_not (b : BeatRun) {offered : Option String} {name : String}
    (h : ¬ (offered = some name ∧ b.Due crontabDue name)) :
    (b.step validCrontab crontabDue (.runDue offered)).ran name = b.ran name := if_neg h

/-- The entry that is offered is followed by its next one if it is due. -/
theorem runDue_cases (b : BeatRun) (offered : Option String) :
    (∃ name e, offered = some name ∧ b.Due crontabDue name ∧ b.store.schedule name = some e ∧
      (b.step validCrontab crontabDue (.runDue offered)).store.schedule =
        Function.update b.store.schedule name (some ⟨e.spec, b.store.now, e.totalRunCount + 1⟩)) ∨
    (∀ name, ¬ (offered = some name ∧ b.Due crontabDue name)) ∧
      (b.step validCrontab crontabDue (.runDue offered)).store.schedule = b.store.schedule := by
  cases offered with
  | none => exact .inr ⟨nofun, rfl⟩
  | some name =>
    change _ ∨ _ ∧ (b.store.runDue crontabDue name).schedule = _
    by_cases hdue : b.Due crontabDue name
    · obtain ⟨e, he, htime⟩ := hdue
      refine .inl ⟨name, e, rfl, ⟨e, he, htime⟩, he, ?_⟩
      change (b.store.runDue crontabDue name).schedule = _
      rw [ScheduleStore.runDue, he]
      dsimp only
      rw [if_pos htime]
    · refine .inr ⟨?_, ?_⟩
      · rintro n ⟨heq, h⟩
        cases heq
        exact hdue h
      · rw [ScheduleStore.runDue]
        cases he : b.store.schedule name with
        | none => rfl
        | some e =>
          dsimp only
          rw [if_neg (fun htime => hdue ⟨e, he, htime⟩)]

theorem Tracked.runDue {b : BeatRun} (h : b.Tracked validCrontab) (offered : Option String) :
    (b.step validCrontab crontabDue (.runDue offered)).Tracked validCrontab := by
  rcases runDue_cases validCrontab crontabDue b offered with
    ⟨name, e, rfl, hdue, he, hschedule⟩ | ⟨hnot, hschedule⟩
  · constructor
    · intro n e' he'
      rw [hschedule] at he'
      by_cases hn : n = name
      · subst hn
        rw [Function.update_self] at he'
        cases he'
        exact (ran_runDue_of_due validCrontab crontabDue b hdue).symm
      · rw [Function.update_of_ne hn] at he'
        have hother : ¬ (some name = some n ∧ b.Due crontabDue n) :=
          fun hoffered => hn (Option.some.inj hoffered.1).symm
        rw [ran_runDue_of_not validCrontab crontabDue b hother]
        exact h.lastRuns n e' he'
    · intro row hrow hsome
      rw [hschedule]
      by_cases hn : row.name = name
      · rw [hn, Function.update_self]
        rfl
      · rw [Function.update_of_ne hn]
        exact h.entries row hrow hsome
  · constructor
    · intro n e' he'
      rw [hschedule] at he'
      rw [ran_runDue_of_not validCrontab crontabDue b (hnot n)]
      exact h.lastRuns n e' he'
    · intro row hrow hsome
      rw [hschedule]
      exact h.entries row hrow hsome

theorem tracked_step {b : BeatRun} (h : b.Tracked validCrontab) {m : BeatMove}
    (hok : b.Harmless validCrontab crontabDue m) :
    (b.step validCrontab crontabDue m).Tracked validCrontab := by
  cases m with
  | install defaults => exact h.install validCrontab crontabDue defaults
  | reload faults => exact h.reload validCrontab crontabDue hok
  | runDue offered => exact h.runDue validCrontab crontabDue offered
  | wait seconds => exact ⟨h.lastRuns, h.entries⟩
  | change table version => exact ⟨h.lastRuns, h.entries⟩

theorem tracked_start (now : ℕ) (table : PeriodicTaskTable) (version : Option ℕ) :
    (start now table version).Tracked validCrontab := by
  constructor
  · intro name e he
    cases he
  · intro row hrow
    exact absurd hrow List.not_mem_nil

/-- In a run every reload keeps the entries and every interval task is due in time exactly if no
reload finds something to keep. -/
theorem run_keeps_iff (now : ℕ) (table : PeriodicTaskTable) (version : Option ℕ)
    (moves : List BeatMove) :
    (EveryStep (step validCrontab crontabDue) (Keeps validCrontab crontabDue)
        (start now table version) moves ∧
      EveryState (step validCrontab crontabDue) (DueInTime crontabDue)
        (start now table version) moves) ↔
    EveryStep (step validCrontab crontabDue) (Harmless validCrontab crontabDue)
      (start now table version) moves := by
  have hkeeps {b : BeatRun} : EveryStep (step validCrontab crontabDue)
      (Keeps validCrontab crontabDue) b moves ↔ EveryStep (step validCrontab crontabDue)
        (Harmless validCrontab crontabDue) b moves :=
    EveryStep.iff (keeps_iff validCrontab crontabDue)
  constructor
  · exact fun h => hkeeps.mp h.1
  · intro h
    refine ⟨hkeeps.mpr h, ?_⟩
    exact h.everyState (tracked_start validCrontab now table version)
      (fun b m hok hb => tracked_step validCrontab crontabDue hb hok)
      (fun b hb => hb.dueInTime validCrontab crontabDue)

end run

def everyMinute : PeriodicTaskRow :=
  { deleteOldLogs with
    scheduleType := "interval"
    intervalEvery := some 60
    intervalPeriod := some "seconds" }

/-- The scheduler reloads fifty seconds after it has begun: the entry counts from there again. -/
theorem not_keeps : ¬ ∀ (validCrontab : CronFields → Bool) (crontabDue : CronFields → ℕ → ℕ → Bool)
    (now : ℕ) (table : PeriodicTaskTable) (version : Option ℕ) (moves : List BeatMove),
    EveryStep (step validCrontab crontabDue) (Keeps validCrontab crontabDue)
        (start now table version) moves ∧
      EveryState (step validCrontab crontabDue) (DueInTime crontabDue)
        (start now table version) moves := by
  intro h
  let table : PeriodicTaskTable :=
    ⟨[everyMinute], List.nodup_singleton _, List.nodup_singleton _⟩
  let first := start 0 table none
  have hread : readRows (fun _ => true) (fun _ _ _ => false) [] first.store = [everyMinute] := by
    have hok : reloadFails (fun _ => true) (fun _ _ _ => false) [] first.store = false := by
      decide +kernel
    rw [readRows, hok]
    rfl
  have hsome : (rowSpec (fun _ => true) everyMinute).isSome = true := by
    decide +kernel
  obtain ⟨spec, hspec⟩ := Option.isSome_iff_exists.mp hsome
  have hnames : ([everyMinute].map (·.name)).Nodup := List.nodup_singleton _
  have hmem : everyMinute ∈ [everyMinute] := List.mem_singleton.mpr rfl
  let loaded := first.step (fun _ => true) (fun _ _ _ => false) (.reload [])
  have hentry : loaded.store.schedule everyMinute.name = some (freshEntry 0 spec) := by
    rw [reload_schedule, hread, builtSchedule, specAt_rowSpecs hnames hmem, hspec]
    rfl
  obtain ⟨htable, hloaded⟩ := reload_frame (fun _ => true) (fun _ _ _ => false) first []
  rw [hread] at hloaded
  have hkeeps := (h (fun _ => true) (fun _ _ _ => false) 0 table none
    [.reload [], .wait 50, .reload []]).1.2.2.1
  change (loaded.step (fun _ => true) (fun _ _ _ => false) (.wait 50)).Keeps _ _ _ at hkeeps
  change loaded.store.table = _ at htable
  change loaded.loaded = _ at hloaded
  generalize loaded = b at hentry hloaded htable hkeeps
  have hrows := ((keeps_iff _ _ _ _).mp hkeeps).rows everyMinute
  have henabled : everyMinute ∈ b.store.table.enabledRows := by
    rw [htable]
    exact hmem
  obtain ⟨-, -, htime, -⟩ := hrows ⟨hloaded ▸ hmem, henabled⟩ _ hentry
  change 0 = b.store.now + 50 at htime
  omega

end BeatRun
end FastapiTemplate.Periodic
