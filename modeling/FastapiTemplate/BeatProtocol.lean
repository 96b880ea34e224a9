import FastapiTemplate.ScheduleReload
import FastapiTemplate.ProgramProtocol

/-!
# The order of the calls of the beat scheduler

What `setup_schedule` and `tick` can call next, when every call is answered and nothing is
cached: the version is recorded only after no rows have been read, and the schedule is built
from the rows that have been read last.
-/

namespace FastapiTemplate.Periodic

inductive BeatPhase
  | starting
  | idle
  | fetched (rows : List PeriodicTaskRow)
  | recording (version : Option ℕ)

namespace BeatPhase

def fetches : BeatPhase → Prop
  | .recording _ => False
  | _ => True

def loads : BeatPhase → Prop
  | .starting => True
  | .idle => True
  | _ => False

def after : BeatPhase → (c : ScheduleCall) → c.Answer → BeatPhase
  | _, .selectEnabled, .ok rows => .fetched rows
  | .fetched _, .getVersion, .ok version => .recording version
  | .recording _, .setLastVersion _, _ => .fetched []
  | _, .setSchedule _, _ => .idle
  | φ, _, _ => φ

end BeatPhase

section protocol
variable (validCrontab : CronFields → Bool) (crontabDue : CronFields → ℕ → ℕ → Bool)

def BeatPhase.permits (φ : BeatPhase) : ScheduleCall → Prop
  | .installEntries _ => φ = .starting
  | .getData => φ.loads
  | .connect => φ.fetches
  | .selectEnabled => φ.fetches
  | .close => φ.fetches
  | .getVersion => φ = .idle ∨ φ = .fetched []
  | .getLastVersion => φ = .idle
  | .setLastVersion version => φ = .recording version
  | .setSchedule specs => ∃ rows, φ = .fetched rows ∧ specs = rowSpecs validCrontab rows
  | .runDue _ => φ = .idle
  | _ => False

/-- The answers are those of a store without a cached text. -/
def beatProtocol : Protocol ScheduleCall ScheduleCall.Answer BeatPhase where
  permits := BeatPhase.permits validCrontab
  after := BeatPhase.after
  possible c r := ∃ s : ScheduleStore, s.data = none ∧ (ScheduleStore.handler crontabDue c s).1 = r

variable {validCrontab crontabDue}

def ReadTasks (infos : List PyValue) (φ : BeatPhase) : Prop :=
  ∃ rows, φ = .fetched rows ∧ taskInfos rows = some infos

theorem fetch_follows {φ : BeatPhase} (hφ : φ.fetches) :
    (beatProtocol validCrontab crontabDue).Follows ReadTasks (fun _ _ => False) φ
      fetchTasksFromDb := by
  rw [fetchTasksFromDb_eq]
  apply Protocol.Follows.perform_bind hφ
  rintro _ ⟨s, -, rfl⟩
  apply Protocol.Follows.perform_bind hφ
  rintro _ ⟨t, -, rfl⟩
  apply Protocol.Follows.perform_bind trivial
  rintro _ ⟨u, -, rfl⟩
  obtain ⟨infos, hinfos, -⟩ := taskInfos_eq validCrontab t.table.enabledRows
  refine ⟨t.table.enabledRows, rfl, ?_⟩
  rw [hinfos]
  change some infos = some ((taskInfos t.table.enabledRows).getD [])
  rw [hinfos]
  rfl

theorem rows_of_taskInfos {rows : List PeriodicTaskRow} (h : taskInfos rows = some []) :
    rows = [] := by
  obtain ⟨infos, hinfos, hlength, -⟩ := taskInfos_eq (fun _ => true) rows
  rw [h] at hinfos
  cases hinfos
  exact List.eq_nil_of_length_eq_zero hlength.symm

theorem fetchAndCache_follows {φ : BeatPhase} (hφ : φ.fetches) :
    (beatProtocol validCrontab crontabDue).Follows (fun infos φ => infos = [] ∧ φ = .fetched [])
      (fun _ φ => ∃ rows, φ = .fetched rows) φ fetchAndCache := by
  refine Protocol.Follows.bind ReadTasks ?_ ?_
  · exact Protocol.Follows.mono (fetch_follows hφ) (fun _ _ h => h) (fun _ _ h => h.elim)
  · rintro infos _ ⟨rows, rfl, hinfos⟩
    cases infos with
    | nil =>
      rw [rows_of_taskInfos hinfos]
      exact Protocol.Follows.pure ⟨rfl, rfl⟩
    | cons v vs =>
      have hrows : rows ≠ [] := by
        rintro rfl
        cases hinfos
      rw [dumps_taskInfos hrows hinfos]
      exact Protocol.Follows.raise ⟨rows, rfl⟩

/-- Tasks that are read are none; there is no JSON text for others. -/
theorem readTasks_follows {φ : BeatPhase} (hφ : φ.loads) :
    (beatProtocol validCrontab crontabDue).Follows (fun infos φ => infos = [] ∧ φ = .fetched [])
      (fun _ φ => ∃ rows, φ = .fetched rows) φ readTasks := by
  have hfetches : φ.fetches := by
    cases φ with
    | recording v => exact hφ.elim
    | _ => trivial
  rw [readTasks_eq]
  apply Protocol.Follows.perform_bind hφ
  rintro _ ⟨s, hdata, rfl⟩
  have hcached : s.cached.filter (· ≠ "") = none := by
    rw [ScheduleStore.cached, hdata]
    rfl
  change (beatProtocol validCrontab crontabDue).Follows _ _ φ
    ((s.cached.filter (· ≠ "")).elim fetchAndCache cachedTasks)
  rw [hcached]
  exact fetchAndCache_follows hfetches

/-- The version is recorded between two moments at which no rows have been read. -/
theorem recordVersion_follows :
    (beatProtocol validCrontab crontabDue).Follows ReadTasks (fun _ _ => False) (.fetched [])
      (recordVersion []) := by
  refine Protocol.Follows.perform_bind (.inr rfl) ?_
  rintro _ ⟨s, -, rfl⟩
  refine Protocol.Follows.perform_bind rfl (fun _ _ => ?_)
  exact Protocol.Follows.pure ⟨[], rfl, rfl⟩

theorem loadTasks_follows {φ : BeatPhase} (hφ : φ.loads) :
    (beatProtocol validCrontab crontabDue).Follows ReadTasks (fun _ _ => False) φ loadTasks := by
  refine Protocol.Follows.handle (fun _ φ => ∃ rows, φ = .fetched rows) ?_ ?_
  · refine Protocol.Follows.bind _ (readTasks_follows hφ) ?_
    rintro _ _ ⟨rfl, rfl⟩
    exact Protocol.Follows.mono recordVersion_follows (fun _ _ h => h) (fun _ _ h => h.elim)
  · rintro _ _ ⟨rows, rfl⟩
    exact fetch_follows trivial

theorem reload_follows {φ : BeatPhase} (hφ : φ.loads) :
    (beatProtocol validCrontab crontabDue).Follows (fun _ φ => φ = .idle) (fun _ _ => False) φ
      (reloadSchedule validCrontab) := by
  refine Protocol.Follows.bind _ (loadTasks_follows hφ) ?_
  rintro infos _ ⟨rows, rfl, hinfos⟩
  obtain ⟨infos', hinfos', -, hschedule⟩ := taskInfos_eq validCrontab rows
  rw [hinfos] at hinfos'
  cases hinfos'
  rw [hschedule]
  exact ⟨⟨rows, rfl, rfl⟩, fun _ _ => rfl⟩

theorem setup_follows (defaults : List EntrySpec) :
    (beatProtocol validCrontab crontabDue).Follows (fun _ φ => φ = .idle) (fun _ _ => False)
      .starting (setupSchedule validCrontab defaults) :=
  .perform_bind rfl (fun _ _ => reload_follows trivial)

theorem tick_follows (name : Option String) :
    (beatProtocol validCrontab crontabDue).Follows (fun _ φ => φ = .idle) (fun _ _ => False)
      .idle (tick validCrontab name) := by
  refine Protocol.Follows.bind (fun _ φ => φ = .idle) ?_ ?_
  · refine Protocol.Follows.handle (fun _ _ => False) ?_ (fun _ _ h => h.elim)
    refine Protocol.Follows.perform_bind (.inl rfl) ?_
    rintro _ ⟨s, -, rfl⟩
    refine Protocol.Follows.perform_bind rfl (fun last _ => ?_)
    split
    · rfl
    · exact reload_follows trivial
  · rintro _ _ rfl
    exact ⟨rfl, fun _ _ => rfl⟩

end protocol
end FastapiTemplate.Periodic
