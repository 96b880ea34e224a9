import FastapiTemplate.BeatProtocol
import FastapiTemplate.TaskArguments

/-!
# Whether changes reach the schedule

One beat process and any number of requests to the service, interleaved at their calls to
Redis and to the database. A change that is announced while a reload that has found no rows
is about to record the version is recorded with it, and not read.
-/

namespace FastapiTemplate.Periodic

/-! ## The calls of the service -/

def ServiceCall : ScheduleCall → Prop
  | .selectByName _ => True
  | .insertTask _ => True
  | .updateTask .. => True
  | .deleteTasks _ => True
  | .deleteDataIncrVersion => True
  | .sendTask _ => True
  | _ => False

def isNotification : ScheduleCall → Bool
  | .deleteDataIncrVersion => true
  | _ => false

def isSelectEnabled : ScheduleCall → Bool
  | .selectEnabled => true
  | _ => false

def isGetVersion : ScheduleCall → Bool
  | .getVersion => true
  | _ => false

namespace PeriodicTaskService

variable {registered : String → Bool}

theorem makes_ofExcept_bind {α β : Type} {P : ScheduleCall → Prop} {f : α → ScheduleProgram β}
    (hf : ∀ a, (f a).Makes P) (answer : Except ScheduleError α) :
    (Program.ofExcept answer >>= f).Makes P := by
  cases answer with
  | error e => trivial
  | ok a => exact hf a

theorem validateTaskExists_makes (task : String) :
    (validateTaskExists registered task).Makes ServiceCall := by
  unfold validateTaskExists
  split <;> trivial

theorem notify_makes {β : Type} (b : β) : (do
    notifyScheduleChanged
    pure b : ScheduleProgram β).Makes ServiceCall :=
  ⟨trivial, makes_ofExcept_bind (fun _ => trivial)⟩

theorem createTask_makes (t : PeriodicTaskCreate) :
    (createTask registered t).Makes ServiceCall := by
  refine (validateTaskExists_makes t.task).bind (fun _ => ⟨trivial, ?_⟩)
  refine makes_ofExcept_bind (fun existing => ?_)
  split
  · trivial
  · exact ⟨trivial, makes_ofExcept_bind notify_makes⟩

theorem updateTask_makes (id : ℕ) (t : PeriodicTaskUpdate) :
    (updateTask registered id t).Makes ServiceCall := by
  have hrest : (writeUpdate id t).Makes ServiceCall := by
    refine ⟨trivial, makes_ofExcept_bind (fun found => ?_)⟩
    cases found with
    | none => trivial
    | some row => exact notify_makes row
  rw [updateTask_eq]
  cases t.task with
  | none => exact hrest
  | some task => exact (validateTaskExists_makes task).bind (fun _ => hrest)

theorem deleteTask_makes (id : ℕ) : (deleteTask id).Makes ServiceCall := by
  refine ⟨trivial, makes_ofExcept_bind (fun deleted => ?_)⟩
  split
  · trivial
  · exact notify_makes true

theorem triggerTaskManually_makes (task : String) (args : List PyValue)
    (kwargs : List (String × PyValue)) :
    (triggerTaskManually registered task args kwargs).Makes ServiceCall := by
  refine (validateTaskExists_makes task).bind (fun _ => ⟨trivial, fun answer => ?_⟩)
  cases answer <;> trivial

end PeriodicTaskService

theorem Operation.service_makes (env : Surroundings) {op : Operation} (hop : op.ofView = false) :
    (op.program env).Makes ServiceCall := by
  cases op with
  | createTask t => exact (PeriodicTaskService.createTask_makes t).bind (fun _ => trivial)
  | updateTask id t => exact (PeriodicTaskService.updateTask_makes id t).bind (fun _ => trivial)
  | deleteTask id => exact (PeriodicTaskService.deleteTask_makes id).bind (fun _ => trivial)
  | triggerTaskManually task args kwargs =>
    exact PeriodicTaskService.triggerTaskManually_makes task args kwargs
  | _ => cases hop

theorem updateTask_not_found {id : ℕ} {t : PeriodicTaskUpdate} {now : ℕ}
    {table after : PeriodicTaskTable} (h : updateTask id t now table = some (after, none)) :
    after = table := by
  unfold updateTask at h
  obtain ⟨args, -, h⟩ := Option.bind_eq_some_iff.mp h
  obtain ⟨kwargs, -, h⟩ := Option.bind_eq_some_iff.mp h
  cases hfind : table.rows.find? (·.id = id) with
  | none =>
    rw [hfind] at h
    cases h
    rfl
  | some row =>
    rw [hfind] at h
    dsimp only at h
    split_ifs at h
    obtain ⟨table', -, h⟩ := Option.bind_eq_some_iff.mp h
    cases h

theorem deleteTasks_none {ids : List ℕ} {table : PeriodicTaskTable}
    (h : (deleteTasks ids table).2 = []) : (deleteTasks ids table).1.enabledRows =
      table.enabledRows := by
  have hkept : table.rows.filter (fun row => row.id ∉ ids) = table.rows := by
    rw [List.filter_eq_self]
    intro row hrow
    have hnot := List.filter_eq_nil_iff.mp (List.map_eq_nil_iff.mp h) row hrow
    simpa using hnot
  exact congrArg (List.filter (fun row : PeriodicTaskRow => row.enabled = some true)) hkept

section effects
variable (crontabDue : CronFields → ℕ → ℕ → Bool)

structure ServiceEffect (c : ScheduleCall) (s : ScheduleStore) : Prop where
  schedule : (ScheduleStore.handler crontabDue c s).2.schedule = s.schedule
  lastVersion : (ScheduleStore.handler crontabDue c s).2.lastVersion = s.lastVersion
  version : if isNotification c then
      (ScheduleStore.handler crontabDue c s).2.version = some (s.version.getD 0 + 1)
    else (ScheduleStore.handler crontabDue c s).2.version = s.version
  rows : changesRow ⟨c, (ScheduleStore.handler crontabDue c s).1⟩ = false →
    (ScheduleStore.handler crontabDue c s).2.table.enabledRows = s.table.enabledRows

theorem service_effect {c : ScheduleCall} (hc : ServiceCall c) (s : ScheduleStore) :
    ServiceEffect crontabDue c s := by
  cases c with
  | selectByName name => exact ⟨rfl, rfl, rfl, fun _ => rfl⟩
  | deleteDataIncrVersion => exact ⟨rfl, rfl, rfl, fun _ => rfl⟩
  | sendTask message => exact ⟨rfl, rfl, rfl, fun _ => rfl⟩
  | insertTask t =>
    cases hcreate : createTask t s.nextId s.now s.table with
    | none =>
      have heq : ScheduleStore.handler crontabDue (.insertTask t) s =
          (.error .database, { s with nextId := s.nextId + 1 }) := by
        simp only [ScheduleStore.handler, hcreate]
      constructor <;> rw [heq]
      · rfl
      · exact fun _ => rfl
    | some after =>
      have heq : ScheduleStore.handler crontabDue (.insertTask t) s =
          (.ok after.2, { s with table := after.1, nextId := s.nextId + 1 }) := by
        simp only [ScheduleStore.handler, hcreate]
      constructor <;> rw [heq]
      · rfl
      · rintro ⟨⟩
  | updateTask id t =>
    rcases hupdate : Periodic.updateTask id t s.now s.table with _ | ⟨after, _ | row⟩
    · have heq : ScheduleStore.handler crontabDue (.updateTask id t) s = (.error .database, s) := by
        simp only [ScheduleStore.handler, hupdate]
      constructor <;> rw [heq]
      · rfl
      · exact fun _ => rfl
    · have heq : ScheduleStore.handler crontabDue (.updateTask id t) s = (.ok none, s) := by
        simp only [ScheduleStore.handler, hupdate, updateTask_not_found hupdate]
      constructor <;> rw [heq]
      · rfl
      · exact fun _ => rfl
    · have heq : ScheduleStore.handler crontabDue (.updateTask id t) s =
          (.ok (some row), { s with table := after }) := by
        simp only [ScheduleStore.handler, hupdate]
      constructor <;> rw [heq]
      · rfl
      · rintro ⟨⟩
  | deleteTasks ids =>
    refine ⟨rfl, rfl, rfl, fun hnone => deleteTasks_none ?_⟩
    change (!(Periodic.deleteTasks ids s.table).2.isEmpty) = false at hnone
    simpa using hnone
  | _ => exact hc.elim

end effects

/-! ## The beat process and the requests -/

inductive Party
  | setup (defaults : List EntrySpec)
  | tick (name : Option String)
  | request (op : Operation)

def Party.isBeat : Party → Bool
  | .request _ => false
  | _ => true

abbrev BeatThread := Thread ScheduleCall ScheduleCall.Answer ScheduleError Unit Party

abbrev BeatPool := Pool ScheduleCall ScheduleCall.Answer ScheduleError Unit Party ScheduleStore

abbrev BeatPoolMove := PoolMove Party ℕ

namespace BeatThread

def Working (th : BeatThread) : Prop := th.tag.isBeat = true ∧ th.nextCall.isSome = true

instance : DecidablePred Working := fun _ => inferInstanceAs (Decidable (_ ∧ _))

def awaits (f : ScheduleCall → Bool) (th : BeatThread) : Bool := th.nextCall.any f

def hasRead (th : BeatThread) : Bool := th.trace.any (fun x => isSelectEnabled x.1)

def asksVersion (th : BeatThread) : Bool :=
  th.tag.isBeat && th.hasRead && th.awaits isGetVersion

end BeatThread

namespace BeatPool

/-- A request has changed a row and has yet to announce this. -/
def Announcing (p : BeatPool) : Prop := ∃ th ∈ p.threads, BeatThread.awaits isNotification th = true

instance (p : BeatPool) : Decidable p.Announcing := inferInstanceAs (Decidable (∃ th ∈ _, _))

def Finished (p : BeatPool) : Prop := ∀ th ∈ p.threads, th.nextCall = none

/-- There is one beat process, which begins a tick when it has nothing else to do, and the
requests are those of the service. -/
def Admissible (p : BeatPool) (m : BeatPoolMove) : Prop :=
  match m with
  | .spawn (.setup _) => False
  | .spawn (.tick _) => ∀ th ∈ p.threads, ¬ BeatThread.Working th
  | .spawn (.request op) => op.ofView = false
  | _ => True

/-- When the version is read that is to be recorded, there are still no enabled rows, or an
announcement is to come. -/
def RecordsInTime (p : BeatPool) (m : BeatPoolMove) : Prop :=
  m.OfThread p (fun th => BeatThread.asksVersion th = true →
    p.state.table.enabledRows.isEmpty = true ∨ p.Announcing)

instance (p : BeatPool) (m : BeatPoolMove) : Decidable (p.Admissible m) :=
  match m with
  | .spawn (.setup _) => .isFalse id
  | .spawn (.tick _) => inferInstanceAs (Decidable (∀ th ∈ p.threads, ¬ BeatThread.Working th))
  | .spawn (.request op) => inferInstanceAs (Decidable (op.ofView = false))
  | .advance _ => .isTrue trivial
  | .environment _ => .isTrue trivial

instance (p : BeatPool) (m : BeatPoolMove) : Decidable (p.RecordsInTime m) :=
  inferInstanceAs (Decidable (m.OfThread p _))

section system
variable (env : Surroundings)

def system : PoolSystem ScheduleCall ScheduleCall.Answer ScheduleError Unit Party ℕ ScheduleStore where
  handler := ScheduleStore.handler env.crontabDue
  environment seconds s := { s with now := s.now + seconds }
  program
    | .setup defaults => setupSchedule env.validCrontab defaults
    | .tick name => tick env.validCrontab name
    | .request op => op.program env

def start (now nextId : ℕ) (table : PeriodicTaskTable) (version : Option ℕ)
    (defaults : List EntrySpec) : BeatPool where
  state := {
    now := now
    table := table
    nextId := nextId
    data := none
    version := version
    lastVersion := none
    schedule := fun _ => none
    sent := [] }
  threads := [(system env).fresh (.setup defaults)]

def Shows (s : ScheduleStore) (rows : List PeriodicTaskRow) : Prop :=
  ∀ name, (s.schedule name).map (·.spec) = specAt (rowSpecs env.validCrontab rows) name

/-- Once everything is done, if a tick finds the recorded version, the entries are those of the
enabled rows. -/
def Propagated (p : BeatPool) : Prop :=
  p.Finished → p.state.version = p.state.lastVersion → Shows env p.state p.state.table.enabledRows

/-! ## What the phases promise -/

/-- The rows are the enabled ones, or a new version is there or to come. -/
def UpToDate (p : BeatPool) (version : Option ℕ) (rows : List PeriodicTaskRow) : Prop :=
  rows = p.state.table.enabledRows ∨ p.Announcing ∨ version ≠ p.state.version

def Promises (p : BeatPool) : BeatPhase → Prop
  | .starting => True
  | .idle => ∃ rows, Shows env p.state rows ∧ p.UpToDate p.state.lastVersion rows
  | .fetched rows => p.UpToDate p.state.lastVersion rows
  | .recording version => version.getD 0 ≤ p.state.version.getD 0 ∧ p.UpToDate version []

structure InPhase (p : BeatPool) (th : BeatThread) (φ : BeatPhase) : Prop where
  follows : (beatProtocol env.validCrontab env.crontabDue).Follows (fun _ φ => φ = .idle)
    (fun _ _ => False) φ th.rest
  promises : p.Promises env φ
  hasRead : φ.loads ∨ th.hasRead = true

structure Consistent (p : BeatPool) : Prop where
  noData : p.state.data = none
  versions : p.state.lastVersion.getD 0 ≤ p.state.version.getD 0
  requests : ∀ th ∈ p.threads, th.tag.isBeat = false →
    NotifiesNext th.rest ∧ th.rest.Makes ServiceCall
  oneBeat : PoolSystem.AtMostOne BeatThread.Working p
  working : ∀ th ∈ p.threads, BeatThread.Working th → ∃ φ, p.InPhase env th φ
  resting : (∀ th ∈ p.threads, ¬ BeatThread.Working th) → p.Promises env .idle

theorem Consistent.propagated {p : BeatPool} (h : p.Consistent env) : p.Propagated env := by
  intro hfinished hversion
  have hresting : ∀ th ∈ p.threads, ¬ BeatThread.Working th := by
    intro th hth hworking
    rw [BeatThread.Working, hfinished th hth] at hworking
    cases hworking.2
  obtain ⟨rows, hshows, hrows | hannouncing | hnewer⟩ := h.resting hresting
  · rw [← hrows]
    exact hshows
  · obtain ⟨th, hth, hawaits⟩ := hannouncing
    rw [BeatThread.awaits, hfinished th hth] at hawaits
    cases hawaits
  · exact absurd hversion.symm hnewer

/-! ## What a step carries over -/

variable {p p' : BeatPool}

/-- What was up to date before is so after. -/
structure Carries (p p' : BeatPool) : Prop where
  version_le : p.state.version.getD 0 ≤ p'.state.version.getD 0
  upToDate : ∀ v rows, v.getD 0 ≤ p.state.version.getD 0 → p.UpToDate v rows → p'.UpToDate v rows

theorem Carries.of_quiet (hrows : p'.state.table.enabledRows = p.state.table.enabledRows)
    (hversion : p'.state.version = p.state.version) (hannouncing : p.Announcing → p'.Announcing) :
    Carries p p' := by
  refine ⟨by rw [hversion], fun v rows _ h => ?_⟩
  unfold UpToDate at h ⊢
  rw [hrows, hversion]
  exact h.imp id (Or.imp hannouncing id)

theorem Carries.promises (hcarries : Carries p p')
    (hversions : p.state.lastVersion.getD 0 ≤ p.state.version.getD 0)
    (hlast : p'.state.lastVersion = p.state.lastVersion)
    (hschedule : p'.state.schedule = p.state.schedule) {φ : BeatPhase} (h : p.Promises env φ) :
    p'.Promises env φ := by
  cases φ with
  | starting => trivial
  | idle =>
    obtain ⟨rows, hshows, hrows⟩ := h
    refine ⟨rows, ?_, ?_⟩
    · rw [Shows, hschedule]
      exact hshows
    · rw [hlast]
      exact hcarries.upToDate _ _ hversions hrows
  | fetched rows =>
    change p'.UpToDate p'.state.lastVersion rows
    rw [hlast]
    exact hcarries.upToDate _ _ hversions h
  | recording version =>
    exact ⟨h.1.trans hcarries.version_le, hcarries.upToDate _ _ h.1 h.2⟩

theorem mem_set_of_ne {threads : List BeatThread} {i j : ℕ} {x th' : BeatThread}
    (hx : threads[j]? = some x) (hji : j ≠ i) : x ∈ threads.set i th' := by
  apply List.mem_of_getElem? (i := j)
  rw [List.getElem?_set_ne (Ne.symm hji)]
  exact hx

/-- A call that announces nothing leaves the announcements that are to come. -/
theorem announcing_set {i : ℕ} {th th' : BeatThread} {c : ScheduleCall}
    {next : c.Answer → ScheduleProgram Unit} (hth : p.threads[i]? = some th)
    (hrest : th.rest = .call c next) (hc : isNotification c = false) (s : ScheduleStore)
    (h : p.Announcing) : Announcing ⟨s, p.threads.set i th'⟩ := by
  obtain ⟨x, hx, hawaits⟩ := h
  obtain ⟨j, hj⟩ := List.getElem?_of_mem hx
  have hji : j ≠ i := by
    rintro rfl
    rw [hth] at hj
    cases hj
    rw [BeatThread.awaits, Thread.nextCall_of_rest hrest] at hawaits
    change isNotification c = true at hawaits
    rw [hc] at hawaits
    cases hawaits
  exact ⟨x, mem_set_of_ne hj hji, hawaits⟩

theorem announcing_append (th' : BeatThread) (h : p.Announcing) :
    Announcing { p with threads := p.threads ++ [th'] } := by
  obtain ⟨x, hx, hawaits⟩ := h
  exact ⟨x, List.mem_append_left _ hx, hawaits⟩

/-- A request carries over what is up to date: it announces what it has changed. -/
theorem carries_request {i : ℕ} {th : BeatThread} {c : ScheduleCall}
    {next : c.Answer → ScheduleProgram Unit} (hth : p.threads[i]? = some th)
    (hrest : th.rest = .call c next) (hnotifies : NotifiesAfter c next) (hc : ServiceCall c) :
    Carries p ⟨(ScheduleStore.handler env.crontabDue c p.state).2, p.threads.set i
      (th.answered c (ScheduleStore.handler env.crontabDue c p.state).1 next)⟩ := by
  have heffect := service_effect env.crontabDue hc p.state
  cases hnotification : isNotification c with
  | true =>
    have hversion : (ScheduleStore.handler env.crontabDue c p.state).2.version =
        some (p.state.version.getD 0 + 1) := by
      simpa [hnotification] using heffect.version
    refine ⟨?_, fun v rows hv _ => .inr (.inr ?_)⟩
    · change _ ≤ (ScheduleStore.handler env.crontabDue c p.state).2.version.getD 0
      rw [hversion]
      exact Nat.le_succ _
    · change v ≠ (ScheduleStore.handler env.crontabDue c p.state).2.version
      rw [hversion]
      rintro rfl
      exact absurd hv (Nat.not_succ_le_self _)
  | false =>
    have hversion : (ScheduleStore.handler env.crontabDue c p.state).2.version =
        p.state.version := by
      simpa [hnotification] using heffect.version
    cases hchanges : changesRow ⟨c, (ScheduleStore.handler env.crontabDue c p.state).1⟩ with
    | false =>
      exact Carries.of_quiet (heffect.rows hchanges) hversion
        (announcing_set hth hrest hnotification _)
    | true =>
      obtain ⟨rest, hnext⟩ := hnotifies.2 _ hchanges
      refine ⟨(congrArg (Option.getD · 0) hversion).ge, fun v rows _ _ => .inr (.inl ?_)⟩
      have hlt : i < p.threads.length := (List.getElem?_eq_some_iff.mp hth).1
      refine ⟨_, List.mem_set hlt _, ?_⟩
      rw [BeatThread.awaits, Thread.nextCall_of_rest hnext]
      rfl

theorem runDue_frame (crontabDue : CronFields → ℕ → ℕ → Bool) (s : ScheduleStore)
    (name : Option String) :
    let t := (ScheduleStore.handler crontabDue (.runDue name) s).2
    t.table = s.table ∧ t.version = s.version ∧ t.lastVersion = s.lastVersion ∧ t.data = s.data ∧
      ∀ n, (t.schedule n).map (·.spec) = (s.schedule n).map (·.spec) := by
  cases name with
  | none => exact ⟨rfl, rfl, rfl, rfl, fun _ => rfl⟩
  | some name =>
    simp only [ScheduleStore.handler, ScheduleStore.runDue]
    cases he : s.schedule name with
    | none => exact ⟨rfl, rfl, rfl, rfl, fun _ => rfl⟩
    | some e =>
      dsimp only
      split
      · refine ⟨rfl, rfl, rfl, rfl, fun n => ?_⟩
        dsimp only
        by_cases hn : n = name
        · rw [hn, Function.update_self, he]
          rfl
        · rw [Function.update_of_ne hn]
      · exact ⟨rfl, rfl, rfl, rfl, fun _ => rfl⟩

structure BeatCallOk (p q : BeatPool) (φ : BeatPhase) : Prop where
  promises : q.Promises env φ
  data : q.state.data = p.state.data
  versions : q.state.lastVersion.getD 0 ≤ q.state.version.getD 0

/-- A permitted call of the beat process ends in a phase that keeps its promise. -/
theorem beat_call {c : ScheduleCall} {φ : BeatPhase} (threads : List BeatThread)
    (hannouncing : p.Announcing → Announcing ⟨(ScheduleStore.handler env.crontabDue c p.state).2, threads⟩)
    (hpermits : φ.permits env.validCrontab c) (hpromises : p.Promises env φ)
    (hversions : p.state.lastVersion.getD 0 ≤ p.state.version.getD 0)
    (hrecords : c = .getVersion → φ = .fetched [] →
      p.state.table.enabledRows.isEmpty = true ∨ p.Announcing) :
    BeatCallOk env p ⟨(ScheduleStore.handler env.crontabDue c p.state).2, threads⟩
      (φ.after c (ScheduleStore.handler env.crontabDue c p.state).1) := by
  -- calls that only read leave the promise as it was
  have hreads (hstate : (ScheduleStore.handler env.crontabDue c p.state).2 = p.state) :
      BeatCallOk env p ⟨(ScheduleStore.handler env.crontabDue c p.state).2, threads⟩ φ := by
    rw [hstate] at hannouncing ⊢
    have hcarries : Carries p ⟨p.state, threads⟩ := Carries.of_quiet rfl rfl hannouncing
    exact ⟨hcarries.promises env hversions rfl rfl hpromises, rfl, hversions⟩
  cases c with
  | getData => exact hreads rfl
  | connect => exact hreads rfl
  | close => exact hreads rfl
  | getLastVersion => exact hreads rfl
  | installEntries specs =>
    cases hpermits
    exact ⟨trivial, rfl, hversions⟩
  | selectEnabled => exact ⟨.inl rfl, rfl, hversions⟩
  | getVersion =>
    rcases hpermits with rfl | rfl
    · exact hreads rfl
    · refine ⟨⟨le_rfl, ?_⟩, rfl, hversions⟩
      rcases hrecords rfl rfl with hempty | hcoming
      · exact .inl (List.isEmpty_iff.mp hempty).symm
      · exact .inr (.inl (hannouncing hcoming))
  | setLastVersion version =>
    cases hpermits
    obtain ⟨hle, hrows⟩ := hpromises
    have hcarries : Carries p ⟨_, threads⟩ := Carries.of_quiet rfl rfl hannouncing
    exact ⟨hcarries.upToDate _ _ hle hrows, rfl, hle⟩
  | setSchedule specs =>
    obtain ⟨rows, rfl, rfl⟩ := hpermits
    have hcarries : Carries p ⟨_, threads⟩ := Carries.of_quiet rfl rfl hannouncing
    refine ⟨⟨rows, fun name => ?_, hcarries.upToDate _ _ hversions hpromises⟩, rfl, hversions⟩
    change ((specAt (rowSpecs env.validCrontab rows) name).map (freshEntry p.state.now)).map
      (·.spec) = _
    cases specAt (rowSpecs env.validCrontab rows) name <;> rfl
  | runDue name =>
    cases hpermits
    obtain ⟨htable, hversion, hlast, hdata, hspecs⟩ := runDue_frame env.crontabDue p.state name
    obtain ⟨rows, hshows, hrows⟩ := hpromises
    have hcarries : Carries p ⟨_, threads⟩ :=
      Carries.of_quiet (congrArg PeriodicTaskTable.enabledRows htable) hversion hannouncing
    refine ⟨⟨rows, fun n => (hspecs n).trans (hshows n), ?_⟩, hdata, ?_⟩
    · change UpToDate _ (ScheduleStore.handler env.crontabDue (.runDue name) p.state).2.lastVersion _
      rw [hlast]
      exact hcarries.upToDate _ _ hversions hrows
    · change (ScheduleStore.handler env.crontabDue (.runDue name) p.state).2.lastVersion.getD 0 ≤
        (ScheduleStore.handler env.crontabDue (.runDue name) p.state).2.version.getD 0
      rw [hlast, hversion]
      exact hversions
  | _ => exact hpermits.elim

/-! ## Every step keeps the pool consistent -/

theorem working_of_answered {p : BeatPool} {i : ℕ} {th th' : BeatThread} {s : ScheduleStore}
    (hth : p.threads[i]? = some th) (hbeat : th.tag.isBeat = false)
    (hnone : ∀ x ∈ (⟨s, p.threads.set i th'⟩ : BeatPool).threads, ¬ BeatThread.Working x) :
    ∀ x ∈ p.threads, ¬ BeatThread.Working x := by
  intro x hx hworking
  obtain ⟨j, hj⟩ := List.getElem?_of_mem hx
  by_cases hji : j = i
  · subst hji
    rw [hth] at hj
    cases hj
    rw [BeatThread.Working, hbeat] at hworking
    cases hworking.1
  · exact hnone x (mem_set_of_ne hj hji) hworking

theorem InPhase.carry {th : BeatThread} {φ : BeatPhase} (h : p.InPhase env th φ)
    (hpromises : p'.Promises env φ) : p'.InPhase env th φ :=
  ⟨h.follows, hpromises, h.hasRead⟩

theorem Consistent.request (h : p.Consistent env) {i : ℕ} {th : BeatThread} {c : ScheduleCall}
    {next : c.Answer → ScheduleProgram Unit} (hth : p.threads[i]? = some th)
    (hrest : th.rest = .call c next) (hbeat : th.tag.isBeat = false) :
    Consistent env ⟨(ScheduleStore.handler env.crontabDue c p.state).2, p.threads.set i
      (th.answered c (ScheduleStore.handler env.crontabDue c p.state).1 next)⟩ := by
  obtain ⟨hnotifies, hmakes⟩ := h.requests th (List.mem_of_getElem? hth) hbeat
  rw [hrest] at hnotifies hmakes
  have hcarries := carries_request env hth hrest hnotifies.1 hmakes.1
  have heffect := service_effect env.crontabDue hmakes.1 p.state
  have hframe := frame_call env.crontabDue hnotifies.1.1 p.state
  constructor
  · exact hframe.1 h.noData
  · change (ScheduleStore.handler env.crontabDue c p.state).2.lastVersion.getD 0 ≤ _
    rw [heffect.lastVersion]
    exact h.versions.trans hframe.2
  · intro x hx hrequest
    rcases mem_set_thread hx with rfl | ⟨j, -, hj⟩
    · exact ⟨hnotifies.2 _, hmakes.2 _⟩
    · exact h.requests x (List.mem_of_getElem? hj) hrequest
  · apply atMostOne_set h.oneBeat
    rintro ⟨hworks, -⟩
    exact absurd hworks (by rw [Bool.not_eq_true]; exact hbeat)
  · intro x hx hworking
    rcases mem_set_thread hx with rfl | ⟨j, -, hj⟩
    · exact absurd hworking.1 (by rw [Bool.not_eq_true]; exact hbeat)
    · obtain ⟨φ, hφ⟩ := h.working x (List.mem_of_getElem? hj) hworking
      exact ⟨φ, hφ.carry env (hcarries.promises env h.versions heffect.lastVersion
        heffect.schedule hφ.promises)⟩
  · intro hnone
    have hresting := h.resting (working_of_answered hth hbeat hnone)
    exact hcarries.promises env h.versions heffect.lastVersion heffect.schedule hresting

/-- A call that is answered leaves a thread that has read rows, if it has begun to. -/
theorem hasRead_answered {th : BeatThread} {c : ScheduleCall}
    (next : c.Answer → ScheduleProgram Unit) {φ : BeatPhase} (h : φ.loads ∨ th.hasRead = true)
    (hpermits : φ.permits env.validCrontab c) (r : c.Answer) :
    (φ.after c r).loads ∨ BeatThread.hasRead (th.answered c r next) = true := by
  have htrace : BeatThread.hasRead (th.answered c r next) = (th.hasRead || isSelectEnabled c) := by
    rw [BeatThread.hasRead, Thread.answered, List.any_append, List.any_cons, List.any_nil,
      Bool.or_false]
    rfl
  rw [htrace]
  rcases h with hloads | hread
  · cases c with
    | selectEnabled => exact .inr (Bool.or_true _)
    | setSchedule specs =>
      obtain ⟨rows, rfl, -⟩ := hpermits
      exact hloads.elim
    | setLastVersion version =>
      cases hpermits
      exact hloads.elim
    | getVersion =>
      rcases hpermits with rfl | rfl
      · exact .inl trivial
      · exact hloads.elim
    | _ =>
      refine .inl ?_
      cases φ <;> exact hloads
  · rw [hread]
    exact .inr rfl

theorem Consistent.beat (h : p.Consistent env) {i : ℕ} {th : BeatThread} {c : ScheduleCall}
    {next : c.Answer → ScheduleProgram Unit} (hth : p.threads[i]? = some th)
    (hrest : th.rest = .call c next) (hbeat : th.tag.isBeat = true)
    (hrecords : BeatThread.asksVersion th = true →
      p.state.table.enabledRows.isEmpty = true ∨ p.Announcing) :
    Consistent env ⟨(ScheduleStore.handler env.crontabDue c p.state).2, p.threads.set i
      (th.answered c (ScheduleStore.handler env.crontabDue c p.state).1 next)⟩ := by
  have hworking : BeatThread.Working th := by
    rw [BeatThread.Working, Thread.nextCall_of_rest hrest]
    exact ⟨hbeat, rfl⟩
  obtain ⟨φ, hφ⟩ := h.working th (List.mem_of_getElem? hth) hworking
  have hpossible : (beatProtocol env.validCrontab env.crontabDue).possible c
      (ScheduleStore.handler env.crontabDue c p.state).1 := ⟨p.state, h.noData, rfl⟩
  obtain ⟨hpermits, hfollows⟩ := Protocol.Follows.answered hφ.follows hrest hpossible
  have hquiet : isNotification c = false := by
    cases c with
    | deleteDataIncrVersion => exact hpermits.elim
    | _ => rfl
  have hcall := beat_call env (p.threads.set i
      (th.answered c (ScheduleStore.handler env.crontabDue c p.state).1 next))
    (announcing_set hth hrest hquiet _) hpermits hφ.promises h.versions (by
      rintro rfl rfl
      apply hrecords
      have hread : th.hasRead = true := hφ.hasRead.resolve_left id
      rw [BeatThread.asksVersion, BeatThread.awaits, Thread.nextCall_of_rest hrest, hbeat, hread]
      rfl)
  have hphase := hasRead_answered env next hφ.hasRead hpermits
    (ScheduleStore.handler env.crontabDue c p.state).1
  -- the other threads of the beat process are done
  have hothers (j : ℕ) (x : BeatThread) (hji : j ≠ i) (hj : p.threads[j]? = some x) :
      ¬ BeatThread.Working x :=
    fun hx => hji (h.oneBeat j i x th hj hth hx hworking)
  constructor
  · exact hcall.data.trans h.noData
  · exact hcall.versions
  · intro x hx hrequest
    rcases mem_set_thread hx with rfl | ⟨j, -, hj⟩
    · exact absurd hbeat (by rw [Bool.not_eq_true]; exact hrequest)
    · exact h.requests x (List.mem_of_getElem? hj) hrequest
  · exact atMostOne_set h.oneBeat (fun _ => hothers) _
  · intro x hx hx'
    rcases mem_set_thread hx with rfl | ⟨j, hji, hj⟩
    · exact ⟨_, hfollows, hcall.promises, hphase⟩
    · exact absurd hx' (hothers j x hji hj)
  · intro hnone
    have hlt : i < p.threads.length := (List.getElem?_eq_some_iff.mp hth).1
    have hdone := hnone _ (List.mem_set hlt _)
    have hpromises := hcall.promises
    change Protocol.Follows _ _ _ _ (next (ScheduleStore.handler env.crontabDue c p.state).1)
      at hfollows
    -- the program has returned, so the phase is the last one
    cases hnext : next (ScheduleStore.handler env.crontabDue c p.state).1 with
    | pure a =>
      rw [hnext] at hfollows
      rw [show φ.after c _ = .idle from hfollows] at hpromises
      exact hpromises
    | raise e =>
      rw [hnext] at hfollows
      exact hfollows.elim
    | call d rest => exact absurd ⟨hbeat, by rw [Thread.nextCall_of_rest hnext]; rfl⟩ hdone

theorem Consistent.environment (h : p.Consistent env) (seconds : ℕ) :
    Consistent env { p with state := (system env).environment seconds p.state } := by
  have hcarries : Carries p { p with state := (system env).environment seconds p.state } :=
    Carries.of_quiet rfl rfl (fun hcoming => hcoming)
  have hpromises {φ : BeatPhase} (hφ : p.Promises env φ) :
      Promises env { p with state := (system env).environment seconds p.state } φ :=
    hcarries.promises env h.versions rfl rfl hφ
  refine ⟨h.noData, h.versions, h.requests, h.oneBeat, ?_, fun hnone => hpromises (h.resting hnone)⟩
  intro th hth hworking
  obtain ⟨φ, hφ⟩ := h.working th hth hworking
  exact ⟨φ, hφ.carry env (hpromises hφ.promises)⟩

theorem Consistent.spawn_request (h : p.Consistent env) {op : Operation} (hop : op.ofView = false) :
    Consistent env { p with threads := p.threads ++ [(system env).fresh (.request op)] } := by
  have hcarries : Carries p { p with threads := p.threads ++ [(system env).fresh (.request op)] } :=
    Carries.of_quiet rfl rfl (announcing_append _)
  have hrequest : ¬ BeatThread.Working ((system env).fresh (.request op)) := fun hworking =>
    Bool.false_ne_true hworking.1
  refine ⟨h.noData, h.versions, ?_, atMostOne_append h.oneBeat hrequest, ?_, fun hnone => ?_⟩
  · intro th hth hbeat
    rcases List.mem_append.mp hth with hold | hnew
    · exact h.requests th hold hbeat
    · rw [List.mem_singleton.mp hnew]
      exact ⟨Operation.service_notifies env hop, Operation.service_makes env hop⟩
  · intro th hth hworking
    rcases List.mem_append.mp hth with hold | hnew
    · obtain ⟨φ, hφ⟩ := h.working th hold hworking
      exact ⟨φ, hφ.carry env (hcarries.promises env h.versions rfl rfl hφ.promises)⟩
    · rw [List.mem_singleton.mp hnew] at hworking
      exact absurd hworking hrequest
  · have hold := h.resting (fun th hth => hnone th (List.mem_append_left _ hth))
    exact hcarries.promises env h.versions rfl rfl hold

theorem Consistent.spawn_tick (h : p.Consistent env) (name : Option String)
    (hnone : ∀ th ∈ p.threads, ¬ BeatThread.Working th) :
    Consistent env { p with threads := p.threads ++ [(system env).fresh (.tick name)] } := by
  have hcarries : Carries p { p with threads := p.threads ++ [(system env).fresh (.tick name)] } :=
    Carries.of_quiet rfl rfl (announcing_append _)
  have hidle := hcarries.promises env h.versions rfl rfl (h.resting hnone)
  have honly {i : ℕ} {th : BeatThread} (hi : (p.threads ++ [(system env).fresh (.tick name)])[i]? =
      some th) (hworking : BeatThread.Working th) : i = p.threads.length := by
    by_contra hne
    have hold : p.threads[i]? = some th := by
      have hlt := (List.getElem?_eq_some_iff.mp hi).1
      rw [List.length_append, List.length_singleton] at hlt
      rwa [List.getElem?_append_left (by omega)] at hi
    exact hnone th (List.mem_of_getElem? hold) hworking
  refine ⟨h.noData, h.versions, ?_, ?_, ?_, fun _ => hidle⟩
  · intro th hth hbeat
    rcases List.mem_append.mp hth with hold | hnew
    · exact h.requests th hold hbeat
    · rw [List.mem_singleton.mp hnew] at hbeat
      cases hbeat
  · intro i j th th' hi hj hth hth'
    rw [honly hi hth, honly hj hth']
  · intro th hth hworking
    rcases List.mem_append.mp hth with hold | hnew
    · exact absurd hworking (hnone th hold)
    · rw [List.mem_singleton.mp hnew]
      exact ⟨.idle, tick_follows name, hidle, .inl trivial⟩

theorem consistent_step (h : p.Consistent env) {m : BeatPoolMove} (hadmissible : p.Admissible m)
    (hrecords : p.RecordsInTime m) : Consistent env ((system env).step p m) := by
  have hcase := (system env).step_cases p m
  generalize (system env).step p m = q at hcase
  cases hcase with
  | environment seconds => exact h.environment env seconds
  | idle i => exact h
  | spawn party =>
    cases party with
    | setup defaults => exact hadmissible.elim
    | tick name => exact h.spawn_tick env name hadmissible
    | request op => exact h.spawn_request env hadmissible
  | @call i th c next hth hrest =>
    cases hbeat : th.tag.isBeat with
    | false => exact h.request env hth hrest hbeat
    | true => exact h.beat env hth hrest hbeat (hrecords th hth)

theorem consistent_start (now nextId : ℕ) (table : PeriodicTaskTable) (version : Option ℕ)
    (defaults : List EntrySpec) : (start env now nextId table version defaults).Consistent env := by
  have hsetup {th : BeatThread} (hth : th ∈ [(system env).fresh (.setup defaults)]) :
      th = (system env).fresh (.setup defaults) := List.mem_singleton.mp hth
  refine ⟨rfl, Nat.zero_le _, ?_, ?_, ?_, ?_⟩
  · intro th hth hbeat
    rw [hsetup hth] at hbeat
    cases hbeat
  · intro i j th th' hi hj _ _
    have hi' := (List.getElem?_eq_some_iff.mp hi).1
    have hj' := (List.getElem?_eq_some_iff.mp hj).1
    change i < 1 at hi'
    change j < 1 at hj'
    omega
  · intro th hth _
    rw [hsetup hth]
    exact ⟨.starting, setup_follows defaults, trivial, .inl trivial⟩
  · intro hnone
    exact absurd ⟨rfl, rfl⟩ (hnone _ (List.mem_singleton.mpr rfl))

/-- In every run in which versions are recorded in time, changes reach the schedule. -/
theorem changes_propagated {now nextId : ℕ} {table : PeriodicTaskTable} {version : Option ℕ}
    {defaults : List EntrySpec}
    (h : RunsWhere (system env).step (fun p m => Admissible p m ∧ RecordsInTime p m)
      (start env now nextId table version defaults) p) : p.Propagated env :=
  (h.invariant (consistent_start env now nextId table version defaults)
    (fun _ _ hok hx => consistent_step env hx hok.1 hok.2)).propagated env

end system

def calls (n i : ℕ) : List BeatPoolMove := List.replicate n (.advance i)

def createdAndDeleted : List BeatPoolMove := List.flatten [
  calls 8 0, [.spawn (.request (.createTask report))], calls 3 1,
  [.environment 5, .spawn (.tick none)], calls 11 2,
  [.spawn (.request (.deleteTask 1))], calls 2 3,
  [.environment 5, .spawn (.tick none)], calls 10 4]

theorem changes_propagated_createdAndDeleted :
    Propagated anyUuid (run (system anyUuid).step (start anyUuid 0 1 .empty none [])
      createdAndDeleted) := by
  have hrun : EveryStep (system anyUuid).step (fun p m => Admissible p m ∧ RecordsInTime p m)
      (start anyUuid 0 1 .empty none []) createdAndDeleted := by
    decide +kernel
  exact changes_propagated anyUuid hrun.runsWhere

/-- The first reload finds no rows; the task is created and announced before the version is
read. -/
def createdBeforeVersion : List BeatPoolMove := List.flatten [
  calls 5 0, [.spawn (.request (.createTask report))], calls 3 1, calls 3 0]

/-- The version of the change is recorded, and its task is not scheduled. -/
theorem changes_not_propagated : ¬ ∀ (env : Surroundings) (now nextId : ℕ)
    (table : PeriodicTaskTable) (version : Option ℕ) (defaults : List EntrySpec) (p : BeatPool),
    RunsWhere (system env).step Admissible (start env now nextId table version defaults) p →
    Propagated env p := by
  intro h
  let p := run (system anyUuid).step (start anyUuid 0 1 .empty none []) createdBeforeVersion
  have hrun : EveryStep (system anyUuid).step Admissible (start anyUuid 0 1 .empty none [])
      createdBeforeVersion := by
    decide +kernel
  have hfinished : ∀ th ∈ p.threads, th.nextCall.isNone = true := by
    decide +kernel
  have hversion : p.state.version = p.state.lastVersion := by
    decide +kernel
  have hmissing : (p.state.schedule "report").isNone = true := by
    decide +kernel
  have hbuilt : (specAt (rowSpecs anyUuid.validCrontab p.state.table.enabledRows)
      "report").isSome = true := by
    decide +kernel
  have hpropagated := h anyUuid 0 1 .empty none [] p hrun.runsWhere
  have hshows := hpropagated (fun th hth => Option.isNone_iff_eq_none.mp (hfinished th hth)) hversion
  rw [← hshows "report", Option.isSome_map, ← Option.not_isNone, hmissing] at hbuilt
  cases hbuilt

end BeatPool

end FastapiTemplate.Periodic
