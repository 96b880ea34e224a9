import FastapiTemplate.BeatScheduler
import FastapiTemplate.TransitionRuns

/-!
# Schedulable tasks

`create_task` stores what has been validated as a whole. `update_task` merges a validated part
into a stored row, and nobody looks at the result: a row that becomes an interval task may have
no interval, and one that becomes a crontab task may have expressions that were never read. The
beat process then falls back to its defaults, or drops the task.
-/

namespace FastapiTemplate.Periodic

open PyValue

/-! ## The five expressions -/

inductive CronField
  | minute
  | hour
  | dayOfWeek
  | dayOfMonth
  | monthOfYear
  deriving DecidableEq, Repr

def CronFields.get (f : CronFields) : CronField → String
  | .minute => f.minute
  | .hour => f.hour
  | .dayOfWeek => f.dayOfWeek
  | .dayOfMonth => f.dayOfMonth
  | .monthOfYear => f.monthOfYear

def PeriodicTaskCreate.cron (t : PeriodicTaskCreate) : CronField → Option String
  | .minute => t.cronMinute
  | .hour => t.cronHour
  | .dayOfWeek => t.cronDayOfWeek
  | .dayOfMonth => t.cronDayOfMonth
  | .monthOfYear => t.cronMonthOfYear

def PeriodicTaskUpdate.cron (t : PeriodicTaskUpdate) : CronField → Option String
  | .minute => t.cronMinute
  | .hour => t.cronHour
  | .dayOfWeek => t.cronDayOfWeek
  | .dayOfMonth => t.cronDayOfMonth
  | .monthOfYear => t.cronMonthOfYear

def PeriodicTaskRow.cron (row : PeriodicTaskRow) : CronField → Option String
  | .minute => row.cronMinute
  | .hour => row.cronHour
  | .dayOfWeek => row.cronDayOfWeek
  | .dayOfMonth => row.cronDayOfMonth
  | .monthOfYear => row.cronMonthOfYear

/-- Missing and empty expressions stand for `*`. -/
def CronFields.ofColumns (cron : CronField → Option String) : CronFields where
  minute := textOr (cron .minute) "*"
  hour := textOr (cron .hour) "*"
  dayOfWeek := textOr (cron .dayOfWeek) "*"
  dayOfMonth := textOr (cron .dayOfMonth) "*"
  monthOfYear := textOr (cron .monthOfYear) "*"

@[simp] theorem CronFields.get_ofColumns (cron : CronField → Option String) (k : CronField) :
    (CronFields.ofColumns cron).get k = textOr (cron k) "*" := by
  cases k <;> rfl

/-- Celery expands each of the five expressions by itself. -/
def ExpandsEach (validCrontab : CronFields → Bool) (accepts : CronField → String → Bool) : Prop :=
  ∀ f, validCrontab f = true ↔ ∀ k, accepts k (f.get k) = true

/-! ## What a row says -/

def IntervalPeriod.inSeconds : IntervalPeriod → ℤ
  | .seconds => 1
  | .minutes => 60
  | .hours => 3600
  | .days => 86400

theorem secondsMultiplier_value (period : IntervalPeriod) :
    secondsMultiplier period.value = period.inSeconds := by
  cases period <;> rfl

theorem IntervalPeriod.value_injective {p q : IntervalPeriod} (h : p.value = q.value) : p = q := by
  cases p <;> cases q <;> first | rfl | exact absurd h (by decide)

theorem interval_ne_crontab : ScheduleType.interval.value ≠ ScheduleType.crontab.value := by decide

inductive Denotes (row : PeriodicTaskRow) : CelerySchedule → Prop
  | interval {every : ℤ} {period : IntervalPeriod}
      (htype : row.scheduleType = ScheduleType.interval.value)
      (hevery : row.intervalEvery = some every) (hperiod : row.intervalPeriod = some period.value) :
      Denotes row (.interval (every * period.inSeconds))
  | crontab (htype : row.scheduleType = ScheduleType.crontab.value) :
      Denotes row (.crontab (CronFields.ofColumns row.cron))

section rule
variable (validCrontab : CronFields → Bool)

def FollowsRule (row : PeriodicTaskRow) : Prop :=
  (row.scheduleType = ScheduleType.interval.value ∧
    (∃ every, row.intervalEvery = some every ∧ 0 < every) ∧
    ∃ period : IntervalPeriod, row.intervalPeriod = some period.value) ∨
  (row.scheduleType = ScheduleType.crontab.value ∧
    validCrontab (CronFields.ofColumns row.cron) = true)

def rowSchedule (row : PeriodicTaskRow) : Option CelerySchedule := do
  let info ← taskInfo row
  parseSchedule validCrontab info

structure Schedulable (row : PeriodicTaskRow) : Prop where
  rule : FollowsRule validCrontab row
  parsed : ∃ schedule, rowSchedule validCrontab row = some schedule ∧ Denotes row schedule

end rule

/-! ## Parsing a row -/

section parse
variable {validCrontab : CronFields → Bool} {row : PeriodicTaskRow}

def everyOr : Option ℤ → ℤ
  | some n => if n = 0 then 60 else n
  | none => 60

theorem everyOr_pos {n : ℤ} (h : 0 < n) : everyOr (some n) = n := if_neg (by omega)

theorem getOr_intColumn {info : TaskInfo} {key : String} (every : Option ℤ)
    (h : dictGet? info key = some (intColumn every)) :
    getOr info key (.int 60) = .int (everyOr every) := by
  rw [getOr, h]
  cases every with
  | none => rfl
  | some n =>
    by_cases hn : n = 0
    · subst hn
      rfl
    · simp [intColumn, truthy, everyOr, hn]

theorem getText_textColumn {info : TaskInfo} {key : String} (value : Option String)
    (h : dictGet? info key = some (textColumn value)) :
    getText info key "*" = some (textOr value "*") := by
  rw [getText, getOr, h]
  cases value with
  | none => rfl
  | some s =>
    by_cases hs : s = ""
    · subst hs
      rfl
    · simp [textColumn, truthy, textOr, hs]

theorem rowSchedule_interval (htype : row.scheduleType = ScheduleType.interval.value) :
    rowSchedule validCrontab row =
      if fitsTimedelta (everyOr row.intervalEvery *
          secondsMultiplier (pyStr (textColumn row.intervalPeriod))) then
        some (.interval (everyOr row.intervalEvery *
          secondsMultiplier (pyStr (textColumn row.intervalPeriod))))
      else none := by
  unfold rowSchedule taskInfo
  simp only [jsonColumn_eq, Option.bind_eq_bind, Option.bind_some, Option.pure_def]
  rw [parseSchedule, getOr_intColumn row.intervalEvery rfl]
  simp only [Option.bind_eq_bind, Option.bind_some]
  rw [if_pos]
  · rfl
  · exact htype

theorem rowSchedule_crontab (htype : row.scheduleType = ScheduleType.crontab.value) :
    rowSchedule validCrontab row =
      if validCrontab (CronFields.ofColumns row.cron) then
        some (.crontab (CronFields.ofColumns row.cron))
      else none := by
  unfold rowSchedule taskInfo
  simp only [jsonColumn_eq, Option.bind_eq_bind, Option.bind_some, Option.pure_def]
  rw [parseSchedule, getText_textColumn row.cronMinute rfl,
    getText_textColumn row.cronHour rfl,
    getText_textColumn row.cronDayOfWeek rfl,
    getText_textColumn row.cronDayOfMonth rfl,
    getText_textColumn row.cronMonthOfYear rfl]
  simp only [Option.bind_eq_bind, Option.bind_some]
  rw [if_neg]
  · rfl
  · change ¬ row.scheduleType = "interval"
    rw [htype]
    decide

/-- An interval row is schedulable if its interval is there and fits a `timedelta`. -/
theorem schedulable_interval_iff (htype : row.scheduleType = ScheduleType.interval.value) :
    Schedulable validCrontab row ↔ ∃ (every : ℤ) (period : IntervalPeriod),
      row.intervalEvery = some every ∧ row.intervalPeriod = some period.value ∧ 0 < every ∧
        fitsTimedelta (every * period.inSeconds) = true := by
  have hparse {every : ℤ} {period : IntervalPeriod} (hevery : row.intervalEvery = some every)
      (hperiod : row.intervalPeriod = some period.value) (hpos : 0 < every) :
      rowSchedule validCrontab row = if fitsTimedelta (every * period.inSeconds) then
        some (.interval (every * period.inSeconds)) else none := by
    rw [rowSchedule_interval htype, hevery, hperiod, everyOr_pos hpos, ← secondsMultiplier_value]
    rfl
  constructor
  · intro h
    rcases h.rule with ⟨-, ⟨every, hevery, hpos⟩, period, hperiod⟩ | ⟨hother, -⟩
    · refine ⟨every, period, hevery, hperiod, hpos, ?_⟩
      obtain ⟨schedule, hschedule, -⟩ := h.parsed
      rw [hparse hevery hperiod hpos] at hschedule
      by_contra hfits
      rw [if_neg hfits] at hschedule
      cases hschedule
    · exact absurd (htype.symm.trans hother) interval_ne_crontab
  · rintro ⟨every, period, hevery, hperiod, hpos, hfits⟩
    refine ⟨.inl ⟨htype, ⟨every, hevery, hpos⟩, period, hperiod⟩, _, ?_,
      .interval htype hevery hperiod⟩
    rw [hparse hevery hperiod hpos, if_pos hfits]

/-- A crontab row is schedulable if Celery accepts its expressions. -/
theorem schedulable_crontab_iff (htype : row.scheduleType = ScheduleType.crontab.value) :
    Schedulable validCrontab row ↔ validCrontab (CronFields.ofColumns row.cron) = true := by
  constructor
  · intro h
    rcases h.rule with ⟨hother, -⟩ | ⟨-, hvalid⟩
    · exact absurd (hother.symm.trans htype) interval_ne_crontab
    · exact hvalid
  · intro hvalid
    refine ⟨.inr ⟨htype, hvalid⟩, _, ?_, .crontab htype⟩
    rw [rowSchedule_crontab htype, if_pos hvalid]

end parse

/-! ## The columns of an interval -/

/-- What the schemas and the columns let through, whatever the type of the row. -/
structure IntervalColumns (every : Option ℤ) (period : Option String) : Prop where
  every : ∀ n, every = some n → 0 < n ∧ n < 2 ^ 31
  period : ∀ p, period = some p → ∃ unit : IntervalPeriod, p = unit.value

/-- Only days can be too many. -/
theorem fitsTimedelta_iff {every : ℤ} (hpos : 0 < every) (hlt : every < 2 ^ 31)
    (period : IntervalPeriod) : fitsTimedelta (every * period.inSeconds) = true ↔
      (period = .days → every ≤ 999999999) := by
  simp only [fitsTimedelta, Bool.and_eq_true, decide_eq_true_eq]
  cases period <;> simp only [IntervalPeriod.inSeconds, reduceCtorEq, false_implies, iff_true,
    true_implies] <;> omega

def TooLong (every : Option ℤ) (period : Option String) : Prop :=
  period = some IntervalPeriod.days.value ∧ ∃ n, every = some n ∧ 999999999 < n

theorem schedulable_columns_iff {validCrontab : CronFields → Bool} {row : PeriodicTaskRow}
    (htype : row.scheduleType = ScheduleType.interval.value)
    (hcolumns : IntervalColumns row.intervalEvery row.intervalPeriod) :
    Schedulable validCrontab row ↔ (row.intervalEvery.isSome ∧ row.intervalPeriod.isSome) ∧
      ¬ TooLong row.intervalEvery row.intervalPeriod := by
  rw [schedulable_interval_iff htype]
  constructor
  · rintro ⟨every, period, hevery, hperiod, hpos, hfits⟩
    rw [fitsTimedelta_iff hpos (hcolumns.every every hevery).2] at hfits
    refine ⟨⟨by rw [hevery]; rfl, by rw [hperiod]; rfl⟩, ?_⟩
    rintro ⟨hdays, n, hn, hlong⟩
    rw [hperiod, Option.some.injEq] at hdays
    rw [hevery, Option.some.injEq] at hn
    have hle := hfits (IntervalPeriod.value_injective hdays)
    omega
  · rintro ⟨⟨hevery, hperiod⟩, hshort⟩
    obtain ⟨every, hevery⟩ := Option.isSome_iff_exists.mp hevery
    obtain ⟨p, hperiod⟩ := Option.isSome_iff_exists.mp hperiod
    obtain ⟨hpos, hlt⟩ := hcolumns.every every hevery
    obtain ⟨period, rfl⟩ := hcolumns.period p hperiod
    refine ⟨every, period, hevery, hperiod, hpos, (fitsTimedelta_iff hpos hlt period).mpr ?_⟩
    rintro rfl
    by_contra hlong
    exact hshort ⟨hperiod, every, hevery, by omega⟩

/-! ## A new row -/

section create
variable {validCrontab : CronFields → Bool} {t : PeriodicTaskCreate} {id now : ℕ}
  {table after : PeriodicTaskTable} {row : PeriodicTaskRow}

structure CreatedFrom (t : PeriodicTaskCreate) (row : PeriodicTaskRow) : Prop where
  scheduleType : row.scheduleType = t.scheduleType.value
  cron : row.cron = t.cron
  every : row.intervalEvery = t.intervalEvery
  period : row.intervalPeriod = t.intervalPeriod.map (·.value)
  fits : t.intervalEvery.all (fun n => -2 ^ 31 ≤ n && n < 2 ^ 31) = true

theorem createTask_eq_some (h : createTask t id now table = some (after, row)) :
    after.rows = table.rows ++ [row] ∧ CreatedFrom t row := by
  unfold createTask at h
  simp only [Option.bind_eq_bind, Option.bind_eq_some_iff] at h
  obtain ⟨args, -, kwargs, -, h⟩ := h
  split at h
  case isTrue hfits =>
    obtain ⟨table', htable, h⟩ := Option.bind_eq_some_iff.mp h
    cases h
    simp only [fitsColumns, Bool.and_eq_true] at hfits
    refine ⟨PeriodicTaskTable.rows_of_ofRows htable, rfl, ?_, rfl, rfl, hfits.2⟩
    funext k
    cases k <;> rfl
  case isFalse => cases h

theorem CreatedFrom.columns (h : CreatedFrom t row) (hvalid : t.valid validCrontab = true) :
    IntervalColumns row.intervalEvery row.intervalPeriod := by
  simp only [PeriodicTaskCreate.valid, Bool.and_eq_true] at hvalid
  refine ⟨fun n hn => ?_, fun p hp => ?_⟩
  · rw [h.every] at hn
    have hpos := hvalid.1
    have hfits := h.fits
    rw [hn] at hpos hfits
    simp only [Option.all_some, decide_eq_true_eq, Bool.and_eq_true] at hpos hfits
    exact ⟨hpos, hfits.2⟩
  · rw [h.period] at hp
    obtain ⟨unit, -, rfl⟩ := Option.map_eq_some_iff.mp hp
    exact ⟨unit, rfl⟩

/-- A new row can only be too long. -/
theorem CreatedFrom.schedulable_iff (h : CreatedFrom t row) (hvalid : t.valid validCrontab = true) :
    Schedulable validCrontab row ↔
      (t.scheduleType = .interval → ¬ TooLong row.intervalEvery row.intervalPeriod) := by
  have hcolumns := h.columns hvalid
  simp only [PeriodicTaskCreate.valid, Bool.and_eq_true] at hvalid
  cases htype : t.scheduleType with
  | interval =>
    rw [htype] at hvalid
    simp only [Bool.and_eq_true] at hvalid
    have hrow : row.scheduleType = ScheduleType.interval.value := by rw [h.scheduleType, htype]
    have hperiod : row.intervalPeriod.isSome := by rw [h.period, Option.isSome_map, hvalid.2.2]
    rw [schedulable_columns_iff hrow hcolumns, and_iff_right ⟨h.every ▸ hvalid.2.1, hperiod⟩]
    exact ⟨fun hshort _ => hshort, fun hshort => hshort rfl⟩
  | crontab =>
    rw [htype] at hvalid
    have hrow : row.scheduleType = ScheduleType.crontab.value := by rw [h.scheduleType, htype]
    rw [schedulable_crontab_iff hrow, h.cron]
    exact iff_of_true hvalid.2 (fun hother => by cases hother)

end create

/-! ## An updated row -/

section update
variable {validCrontab : CronFields → Bool} {accepts : CronField → String → Bool}
  {t : PeriodicTaskUpdate} {row : PeriodicTaskRow} {args kwargs : Option Jsonb} {now : ℕ}

def typeAfter (t : PeriodicTaskUpdate) (row : PeriodicTaskRow) : String :=
  (t.scheduleType.map (·.value)).getD row.scheduleType

def everyAfter (t : PeriodicTaskUpdate) (row : PeriodicTaskRow) : Option ℤ :=
  t.intervalEvery.or row.intervalEvery

def periodAfter (t : PeriodicTaskUpdate) (row : PeriodicTaskRow) : Option String :=
  (t.intervalPeriod.map (·.value)).or row.intervalPeriod

theorem cron_updatedRow (k : CronField) :
    (updatedRow t args kwargs now row).cron k = (t.cron k).or (row.cron k) := by
  cases k <;> rfl

structure KeepsSchedule (accepts : CronField → String → Bool) (t : PeriodicTaskUpdate)
    (row : PeriodicTaskRow) : Prop where
  toInterval : t.scheduleType = some .interval →
    (everyAfter t row).isSome ∧ (periodAfter t row).isSome
  toCrontab : t.scheduleType = some .crontab →
    ∀ k, t.cron k = none → accepts k (textOr (row.cron k) "*") = true
  short : typeAfter t row = ScheduleType.interval.value →
    ¬ TooLong (everyAfter t row) (periodAfter t row)

structure SoundRow (validCrontab : CronFields → Bool) (row : PeriodicTaskRow) : Prop where
  schedulable : Schedulable validCrontab row
  columns : IntervalColumns row.intervalEvery row.intervalPeriod

/-- The expressions that an update brings have been read. -/
theorem accepts_of_valid (hcelery : ExpandsEach validCrontab accepts)
    (hvalid : t.valid validCrontab = true) {k : CronField} {s : String} (hk : t.cron k = some s) :
    accepts k (textOr (some s) "*") = true := by
  simp only [PeriodicTaskUpdate.valid, Bool.and_eq_true] at hvalid
  obtain ⟨-, hcron⟩ := hvalid
  have hany : (t.cronMinute.isSome || t.cronHour.isSome || t.cronDayOfWeek.isSome ||
      t.cronDayOfMonth.isSome || t.cronMonthOfYear.isSome) = true := by
    simp only [Bool.or_eq_true, Option.isSome_iff_exists]
    cases k with
    | minute => exact .inl (.inl (.inl (.inl ⟨s, hk⟩)))
    | hour => exact .inl (.inl (.inl (.inr ⟨s, hk⟩)))
    | dayOfWeek => exact .inl (.inl (.inr ⟨s, hk⟩))
    | dayOfMonth => exact .inl (.inr ⟨s, hk⟩)
    | monthOfYear => exact .inr ⟨s, hk⟩
  rw [if_pos hany] at hcron
  have hall := (hcelery (CronFields.ofColumns t.cron)).mp hcron k
  rwa [CronFields.get_ofColumns, hk] at hall

/-- A merged expression is accepted if the stored one is, where nothing replaces it. -/
theorem validCrontab_updatedRow_iff (hcelery : ExpandsEach validCrontab accepts)
    (hvalid : t.valid validCrontab = true) :
    validCrontab (CronFields.ofColumns (updatedRow t args kwargs now row).cron) = true ↔
      ∀ k, t.cron k = none → accepts k (textOr (row.cron k) "*") = true := by
  rw [hcelery]
  refine forall_congr' (fun k => ?_)
  rw [CronFields.get_ofColumns, cron_updatedRow]
  cases hk : t.cron k with
  | none => simp
  | some s => simpa using accepts_of_valid hcelery hvalid hk

theorem columns_updatedRow (hrow : IntervalColumns row.intervalEvery row.intervalPeriod)
    (hvalid : t.valid validCrontab = true)
    (hfits : t.intervalEvery.all (fun n => -2 ^ 31 ≤ n && n < 2 ^ 31) = true) :
    IntervalColumns (everyAfter t row) (periodAfter t row) := by
  simp only [PeriodicTaskUpdate.valid, Bool.and_eq_true] at hvalid
  have hpos := hvalid.1
  refine ⟨fun n hn => ?_, fun p hp => ?_⟩
  · rcases Option.or_eq_some_iff.mp hn with hgiven | ⟨-, hstored⟩
    · rw [hgiven] at hpos hfits
      simp only [Option.all_some, decide_eq_true_eq, Bool.and_eq_true] at hpos hfits
      exact ⟨hpos, hfits.2⟩
    · exact hrow.every n hstored
  · rcases Option.or_eq_some_iff.mp hp with hgiven | ⟨-, hstored⟩
    · obtain ⟨unit, -, rfl⟩ := Option.map_eq_some_iff.mp hgiven
      exact ⟨unit, rfl⟩
    · exact hrow.period p hstored

theorem updated_interval_iff (hrow : SoundRow validCrontab row)
    (hcolumns : IntervalColumns (everyAfter t row) (periodAfter t row))
    (htype : typeAfter t row = ScheduleType.interval.value) :
    Schedulable validCrontab (updatedRow t args kwargs now row) ↔ KeepsSchedule accepts t row := by
  rw [schedulable_columns_iff htype hcolumns]
  constructor
  · rintro ⟨hgiven, hshort⟩
    refine ⟨fun _ => hgiven, fun hother => ?_, fun _ => hshort⟩
    rw [typeAfter, hother] at htype
    exact absurd htype.symm interval_ne_crontab
  · intro h
    refine ⟨?_, h.short htype⟩
    cases hgiven : t.scheduleType with
    | some type =>
      rw [typeAfter, hgiven] at htype
      cases type with
      | interval => exact h.toInterval hgiven
      | crontab => exact absurd htype.symm interval_ne_crontab
    | none =>
      rw [typeAfter, hgiven] at htype
      obtain ⟨every, period, hevery, hperiod, -⟩ :=
        (schedulable_interval_iff htype).mp hrow.schedulable
      change (t.intervalEvery.or row.intervalEvery).isSome ∧ (Option.or _ row.intervalPeriod).isSome
      rw [hevery, hperiod]
      simp

theorem updated_crontab_iff (hcelery : ExpandsEach validCrontab accepts)
    (hrow : SoundRow validCrontab row) (hvalid : t.valid validCrontab = true)
    (htype : typeAfter t row = ScheduleType.crontab.value) :
    Schedulable validCrontab (updatedRow t args kwargs now row) ↔ KeepsSchedule accepts t row := by
  rw [schedulable_crontab_iff htype, validCrontab_updatedRow_iff hcelery hvalid]
  constructor
  · intro haccepts
    refine ⟨fun hother => ?_, fun _ => haccepts, fun hother => ?_⟩
    · rw [typeAfter, hother] at htype
      exact absurd htype interval_ne_crontab
    · exact absurd (hother.symm.trans htype) interval_ne_crontab
  · intro h
    cases hgiven : t.scheduleType with
    | some type =>
      rw [typeAfter, hgiven] at htype
      cases type with
      | interval => exact absurd htype interval_ne_crontab
      | crontab => exact h.toCrontab hgiven
    | none =>
      rw [typeAfter, hgiven] at htype
      have hstored := (hcelery _).mp ((schedulable_crontab_iff htype).mp hrow.schedulable)
      intro k _
      rw [← CronFields.get_ofColumns]
      exact hstored k

/-- An update leaves a sound row schedulable exactly when it brings, or finds, what the type
of the row needs from then on. -/
theorem updatedRow_schedulable_iff (hcelery : ExpandsEach validCrontab accepts)
    (hrow : SoundRow validCrontab row) (hvalid : t.valid validCrontab = true)
    (hcolumns : IntervalColumns (everyAfter t row) (periodAfter t row)) :
    Schedulable validCrontab (updatedRow t args kwargs now row) ↔ KeepsSchedule accepts t row := by
  have htype : typeAfter t row = ScheduleType.interval.value ∨
      typeAfter t row = ScheduleType.crontab.value := by
    unfold typeAfter
    cases t.scheduleType with
    | some type => cases type <;> simp
    | none =>
      rcases hrow.schedulable.rule with ⟨htype, -⟩ | ⟨htype, -⟩
      · exact .inl htype
      · exact .inr htype
  rcases htype with htype | htype
  · exact updated_interval_iff hrow hcolumns htype
  · exact updated_crontab_iff hcelery hrow hvalid htype

/-- Every row is as before, or it is the merged one. -/
theorem updateTask_eq_some {id : ℕ} {table after : PeriodicTaskTable}
    {answer : Option PeriodicTaskRow} (h : updateTask id t now table = some (after, answer)) :
    ∀ row' ∈ after.rows, row' ∈ table.rows ∨
      t.intervalEvery.all (fun n => -2 ^ 31 ≤ n && n < 2 ^ 31) = true ∧
        ∃ args kwargs, ∃ row ∈ table.rows, row.id = id ∧
          row' = updatedRow t args kwargs now row := by
  unfold updateTask at h
  simp only [Option.bind_eq_bind, Option.bind_eq_some_iff] at h
  obtain ⟨args, -, kwargs, -, h⟩ := h
  split at h
  · cases h
    exact fun row' hrow' => .inl hrow'
  · split at h
    case isTrue hfits =>
      obtain ⟨table', htable, h⟩ := Option.bind_eq_some_iff.mp h
      cases h
      simp only [fitsColumns, Bool.and_eq_true] at hfits
      intro row' hrow'
      rw [PeriodicTaskTable.rows_of_ofRows htable] at hrow'
      obtain ⟨row, hrow, hmap⟩ := List.mem_map.mp hrow'
      split_ifs at hmap with hid
      · exact .inr ⟨hfits.2, args, kwargs, row, hrow, hid, hmap.symm⟩
      · exact .inl (hmap ▸ hrow)
    case isFalse => cases h

end update

/-! ## Calls -/

inductive TaskCall
  | createTask (t : PeriodicTaskCreate) (id now : ℕ)
  | updateTask (id : ℕ) (t : PeriodicTaskUpdate) (now : ℕ)

namespace TaskCall

/-- A call that is refused by the database changes nothing. -/
def step (table : PeriodicTaskTable) : TaskCall → PeriodicTaskTable
  | .createTask t id now => ((Periodic.createTask t id now table).map (·.1)).getD table
  | .updateTask id t now => ((Periodic.updateTask id t now table).map (·.1)).getD table

def valid (validCrontab : CronFields → Bool) : TaskCall → Bool
  | .createTask t .. => t.valid validCrontab
  | .updateTask _ t _ => t.valid validCrontab

end TaskCall

section handler
variable (crontabDue : CronFields → ℕ → ℕ → Bool) (s : ScheduleStore)

/-- The calls that the service and the admin view make on the store are such steps. -/
theorem insertTask_table (t : PeriodicTaskCreate) :
    (ScheduleStore.handler crontabDue (.insertTask t) s).2.table =
      TaskCall.step s.table (.createTask t s.nextId s.now) := by
  simp only [ScheduleStore.handler, TaskCall.step]
  cases createTask t s.nextId s.now s.table <;> rfl

theorem updateTask_table (id : ℕ) (t : PeriodicTaskUpdate) :
    (ScheduleStore.handler crontabDue (.updateTask id t) s).2.table =
      TaskCall.step s.table (.updateTask id t s.now) := by
  simp only [ScheduleStore.handler, TaskCall.step]
  cases updateTask id t s.now s.table <;> rfl

end handler

/-! ## Runs -/

namespace TaskCall

/-- A new task is no interval of too many days, and an update keeps the schedule of the row it
finds. -/
def Keeps (accepts : CronField → String → Bool) (table : PeriodicTaskTable) : TaskCall → Prop
  | .createTask t .. => t.scheduleType = .interval →
      ¬ TooLong t.intervalEvery (t.intervalPeriod.map (·.value))
  | .updateTask id t _ => ∀ row ∈ table.rows, row.id = id → KeepsSchedule accepts t row

end TaskCall

section runs
variable {validCrontab : CronFields → Bool} {accepts : CronField → String → Bool}

theorem TaskCall.step_sound (hcelery : ExpandsEach validCrontab accepts)
    {table : PeriodicTaskTable} {c : TaskCall} (hvalid : c.valid validCrontab = true)
    (hkeeps : c.Keeps accepts table) (hrows : ∀ row ∈ table.rows, SoundRow validCrontab row) :
    ∀ row ∈ (c.step table).rows, SoundRow validCrontab row := by
  cases c with
  | createTask t id now =>
    simp only [TaskCall.step]
    cases hcreate : Periodic.createTask t id now table with
    | none => exact hrows
    | some answer =>
      obtain ⟨hafter, hcreated⟩ := createTask_eq_some hcreate
      intro row hrow
      change row ∈ answer.1.rows at hrow
      rw [hafter] at hrow
      rcases List.mem_append.mp hrow with hold | hnew
      · exact hrows row hold
      · rw [List.mem_singleton.mp hnew]
        refine ⟨(hcreated.schedulable_iff hvalid).mpr ?_, hcreated.columns hvalid⟩
        rw [hcreated.every, hcreated.period]
        exact hkeeps
  | updateTask id t now =>
    simp only [TaskCall.step]
    cases hupdate : Periodic.updateTask id t now table with
    | none => exact hrows
    | some answer =>
      intro row' hrow'
      rcases updateTask_eq_some hupdate row' hrow' with hold |
        ⟨hfits, args, kwargs, row, hrow, hid, rfl⟩
      · exact hrows row' hold
      · have hsound := hrows row hrow
        have hcolumns := columns_updatedRow hsound.columns hvalid hfits
        exact ⟨(updatedRow_schedulable_iff hcelery hsound hvalid hcolumns).mpr
          (hkeeps row hrow hid), hcolumns⟩

/-- After any calls with valid payloads that each keep the schedules, every stored task can be
scheduled. -/
theorem stored_tasks_schedulable (hcelery : ExpandsEach validCrontab accepts)
    {table after : PeriodicTaskTable} (hstart : ∀ row ∈ table.rows, SoundRow validCrontab row)
    (hrun : RunsWhere TaskCall.step
      (fun table c => c.valid validCrontab = true ∧ c.Keeps accepts table) table after) :
    ∀ row ∈ after.rows, Schedulable validCrontab row := by
  have hsound : ∀ row ∈ after.rows, SoundRow validCrontab row := hrun.invariant
    (I := fun table => ∀ row ∈ table.rows, SoundRow validCrontab row) hstart
    (fun table c hok hrows => TaskCall.step_sound hcelery hok.1 hok.2 hrows)
  exact fun row hrow => (hsound row hrow).schedulable

/-- The row of the migration is a possible start. -/
theorem soundRow_deleteOldLogs (h : validCrontab ⟨"0", "0", "*", "*", "*"⟩ = true) :
    SoundRow validCrontab deleteOldLogs := by
  refine ⟨(schedulable_crontab_iff rfl).mpr h, fun n hn => ?_, fun p hp => ?_⟩
  · cases hn
  · cases hp

end runs

def starCrontab (f : CronFields) : Bool := f = ⟨"*", "*", "*", "*", "*"⟩

theorem expandsEach_starCrontab : ExpandsEach starCrontab (fun _ s => s = "*") := by
  rintro ⟨minute, hour, dayOfWeek, dayOfMonth, monthOfYear⟩
  simp only [starCrontab, CronFields.mk.injEq, decide_eq_true_eq]
  constructor
  · rintro ⟨rfl, rfl, rfl, rfl, rfl⟩ k
    cases k <;> rfl
  · exact fun h => ⟨h .minute, h .hour, h .dayOfWeek, h .dayOfMonth, h .monthOfYear⟩

def cleanupTask : PeriodicTaskCreate where
  name := "cleanup"
  task := "cleanup"
  scheduleType := .crontab
  cronMinute := some "*"
  cronHour := some "*"
  cronDayOfWeek := some "*"
  cronDayOfMonth := some "*"
  cronMonthOfYear := some "*"
  intervalEvery := none
  intervalPeriod := none
  args := []
  kwargs := []
  enabled := true

def intervalUpdate (every : Option ℤ) (period : Option IntervalPeriod) : PeriodicTaskUpdate :=
  ⟨none, none, some .interval, none, none, none, none, none, every, period, none, none, none⟩

theorem stored_tasks_schedulable_cleanup :
    let after := run TaskCall.step .empty [.createTask cleanupTask 1 0,
      .updateTask 1 (intervalUpdate (some 5) (some .minutes)) 1]
    after.rows.length = 1 ∧ ∀ row ∈ after.rows, Schedulable starCrontab row := by
  have hstart : ∀ row ∈ PeriodicTaskTable.empty.rows, SoundRow starCrontab row :=
    fun row hrow => absurd hrow List.not_mem_nil
  refine ⟨rfl, stored_tasks_schedulable expandsEach_starCrontab hstart
    (EveryStep.runsWhere ⟨⟨rfl, ?_⟩, ⟨rfl, ?_⟩, trivial⟩)⟩
  · rintro ⟨⟩
  · intro row hrow hid
    refine ⟨fun _ => ⟨rfl, rfl⟩, ?_, ?_⟩
    · rintro ⟨⟩
    · rintro - ⟨hdays, -⟩
      exact absurd (Option.some.inj hdays) (by decide)

/-- A crontab task that is made an interval task without an interval runs every hour. -/
theorem interval_without_fields :
    let calls : List TaskCall := [.createTask cleanupTask 1 0,
      .updateTask 1 (intervalUpdate none none) 1]
    (∀ c ∈ calls, c.valid starCrontab = true) ∧
      ∃ row ∈ (run TaskCall.step .empty calls).rows,
        rowSchedule starCrontab row = some (.interval 3600) ∧ ¬ FollowsRule starCrontab row := by
  refine ⟨by simp [TaskCall.valid]; exact ⟨rfl, rfl⟩, ?_⟩
  refine ⟨_, List.mem_singleton_self _, rfl, ?_⟩
  rintro (⟨-, ⟨every, hevery, -⟩, -⟩ | ⟨hother, -⟩)
  · cases hevery
  · exact absurd hother (by decide)

end FastapiTemplate.Periodic
