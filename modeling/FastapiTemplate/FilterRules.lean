import FastapiTemplate.LikePatterns
import FastapiTemplate.LogAdminViews
import FastapiTemplate.Windows

/-!
# What filter rules mean

The rules that the filter registry offers for the log views, each with its own operator: texts that
equal or contain a value, and dates that can be read. A date without a time stands for its whole day
in UTC. The rows hold texts of any length, whatever the widths of the columns.
-/

namespace FastapiTemplate.AdminFilters

open LikePatterns

/-! ## Dates -/

/-- A value of a date rule: a time, or what Python reads as one. -/
structure DateValue (lib : Library) where
  value : FilterValue
  parsed : DateTime
  truthy : value.truthy = true
  reads : value = .datetime parsed ∨
    (∀ d, value ≠ .datetime d) ∧ lib.fromisoformat (Sql.strip (value.str lib)) = some parsed

namespace DateValue

variable {lib : Library} (v : DateValue lib)

def isDay : Bool :=
  match v.value with
  | .datetime _ => false
  | value => isDateOnly (Sql.strip (value.str lib))

/-- The first microsecond of the day, or the time itself. -/
def first : ℤ :=
  if v.isDay then ((v.parsed.clock / dayLength * dayLength : ℕ) : ℤ) else v.parsed.instant

/-- The last microsecond of the day, or the time itself. -/
def last : ℤ := if v.isDay then v.first + (dayLength - 1) else v.parsed.instant

def time (isEnd : Bool) : DateTime :=
  if v.isDay then (v.parsed.combine isEnd).orUtc else v.parsed.orUtc

theorem parse_eq (isEnd : Bool) :
    parseAdminDatetime lib v.value isEnd = .ok (v.time isEnd) := by
  obtain ⟨value, parsed, htruthy, rfl | ⟨hother, hread⟩⟩ := v
  · rfl
  · have hparsed : fromisoformat lib (Sql.strip (value.str lib)) = .ok parsed := by
      rw [fromisoformat, hread]
      rfl
    have hday : isDay ⟨value, parsed, htruthy, .inr ⟨hother, hread⟩⟩ =
        isDateOnly (Sql.strip (value.str lib)) := by
      cases value with
      | datetime d => exact absurd rfl (hother d)
      | none => rfl
      | text s => rfl
      | other truthy str => rfl
    have hparse : parseAdminDatetime lib value isEnd =
        if isDateOnly (Sql.strip (value.str lib)) then
          (fromisoformat lib (Sql.strip (value.str lib))).map (fun d => (d.combine isEnd).orUtc)
        else (fromisoformat lib (Sql.strip (value.str lib))).map DateTime.orUtc := by
      cases value with
      | datetime d => exact absurd rfl (hother d)
      | none => rfl
      | text s => rfl
      | other truthy str => rfl
    dsimp only
    rw [hparse, hparsed, time, hday]
    split_ifs <;> rfl

theorem instant_orUtc (d : DateTime) : d.orUtc.instant = d.instant := by
  obtain ⟨clock, _ | offset⟩ := d <;> rfl

theorem instant_first : (v.time false).instant = v.first := by
  rw [time, first]
  split_ifs
  · rw [instant_orUtc]
    simp [DateTime.combine, DateTime.instant]
  · exact instant_orUtc v.parsed

theorem instant_last : (v.time true).instant = v.last := by
  rw [time, last, first]
  split_ifs
  · rw [instant_orUtc]
    simp [DateTime.combine, DateTime.instant, dayLength]
  · exact instant_orUtc v.parsed

end DateValue

/-- `between` may lack a bound, and then only asks for the other one. -/
inductive DateRule (lib : Library)
  | between (start finish : Option (DateValue lib))
  | onOrAfter (start : DateValue lib)
  | onOrBefore (finish : DateValue lib)
  | onDate (day : DateValue lib)

namespace DateRule

variable {lib : Library}

def toRule : DateRule lib → FilterRule
  | between start finish => ⟨"created_at", "between", (start.map (·.value)).getD .none,
      (finish.map (·.value)).getD .none⟩
  | onOrAfter start => ⟨"created_at", "gte", start.value, .none⟩
  | onOrBefore finish => ⟨"created_at", "lte", finish.value, .none⟩
  | onDate day => ⟨"created_at", "eq", day.value, .none⟩

def Holds : DateRule lib → ℤ → Prop
  | between start finish, t => (∀ v ∈ start, v.first ≤ t) ∧ ∀ v ∈ finish, t ≤ v.last
  | onOrAfter start, t => start.first ≤ t
  | onOrBefore finish, t => t ≤ finish.last
  | onDate day, t => day.first ≤ t ∧ t ≤ day.last

instance (r : DateRule lib) (t : ℤ) : Decidable (r.Holds t) :=
  match r with
  | between start finish =>
    inferInstanceAs (Decidable ((∀ v ∈ start, v.first ≤ t) ∧ ∀ v ∈ finish, t ≤ v.last))
  | onOrAfter start => inferInstanceAs (Decidable (start.first ≤ t))
  | onOrBefore finish => inferInstanceAs (Decidable (t ≤ finish.last))
  | onDate day => inferInstanceAs (Decidable (day.first ≤ t ∧ t ≤ day.last))

def start? : DateRule lib → Option (DateValue lib)
  | between start _ => start
  | onOrAfter start => some start
  | onOrBefore _ => none
  | onDate day => some day

def finish? : DateRule lib → Option (DateValue lib)
  | between _ finish => finish
  | onOrAfter _ => none
  | onOrBefore finish => some finish
  | onDate day => some day

theorem holds_iff (r : DateRule lib) (t : ℤ) :
    r.Holds t ↔ (∀ v ∈ r.start?, v.first ≤ t) ∧ ∀ v ∈ r.finish?, t ≤ v.last := by
  cases r <;> simp [Holds, start?, finish?]

def range (r : DateRule lib) : Option DateTime × Option DateTime :=
  (r.start?.map (·.time false), r.finish?.map (·.time true))

theorem extractDateRange_toRule (r : DateRule lib) :
    extractDateRange lib r.toRule = .ok r.range := by
  cases r with
  | between start finish =>
    have hmissing : FilterValue.none.truthy = false := rfl
    cases start <;> cases finish <;>
      simp [extractDateRange, toRule, DateValue.truthy, DateValue.parse_eq, Except.map, range,
        start?, finish?, hmissing] <;>
      rfl
  | onOrAfter start =>
    simp [extractDateRange, toRule, DateValue.truthy, DateValue.parse_eq, range, start?, finish?]
  | onOrBefore finish =>
    simp [extractDateRange, toRule, DateValue.truthy, DateValue.parse_eq, range, start?, finish?]
  | onDate day =>
    simp [extractDateRange, toRule, DateValue.truthy, DateValue.parse_eq, range, start?, finish?]
    rfl

end DateRule

/-! ## The bounds that are kept -/

section bounds
open Windows

variable {lib : Library} (dates : List (DateRule lib)) (now : DateTime)

def thirtyDays : ℤ := ((30 * dayLength : ℕ) : ℤ)

def starts : List ℤ := (dates.filterMap DateRule.start?).map DateValue.first

def ends : List ℤ := (dates.filterMap DateRule.finish?).map DateValue.last

def lastBounds : DateBounds :=
  ⟨((dates.filterMap DateRule.start?).map (·.time false)).getLast?,
    ((dates.filterMap DateRule.finish?).map (·.time true)).getLast?⟩

/-- Without a start, 30 days before the end is still a `datetime`. -/
def Representable : Prop :=
  starts dates = [] → 30 * dayLength ≤ ((lastBounds dates).toDate.getD now).clock

variable {dates now}

/-- Inside the window of their bounds all rules hold. -/
theorem holds_of_inWindow {nowInstant width t : ℤ}
    (h : InWindow (starts dates) (ends dates) nowInstant width t) : ∀ r ∈ dates, r.Holds t := by
  obtain ⟨hstarts, hends, -⟩ := h
  intro r hr
  refine (r.holds_iff t).mpr ⟨fun v hv => ?_, fun v hv => ?_⟩
  · exact hstarts v.first (List.mem_map_of_mem (List.mem_filterMap.mpr ⟨r, hr, hv⟩))
  · have hend : v.last ∈ ends dates := List.mem_map_of_mem (List.mem_filterMap.mpr ⟨r, hr, hv⟩)
    refine hends v.last ?_
    rwa [endsOrNow, if_neg (List.ne_nil_of_mem hend)]

theorem lastBounds_concat (r : DateRule lib) :
    lastBounds (dates ++ [r]) = (lastBounds dates).update r.range := by
  have hlast {α β : Type} (xs : List α) (y : Option α) (g : α → β) :
      ((xs ++ y.toList).map g).getLast? = (y.map g).or (xs.map g).getLast? := by
    cases y <;> simp
  have hconcat {α : Type} (g : DateRule lib → Option α) :
      (dates ++ [r]).filterMap g = dates.filterMap g ++ (g r).toList := by
    rw [List.filterMap_append]
    cases hr : g r <;> simp [hr]
  rw [lastBounds, hconcat, hconcat, hlast, hlast]
  rfl

theorem foldl_update (dates : List (DateRule lib)) :
    dates.foldl (fun b r => b.update r.range) {} = lastBounds dates := by
  induction dates using List.reverseRecOn with
  | nil => rfl
  | append_singleton dates r ih => rw [List.foldl_concat, ih, lastBounds_concat]

theorem instant_toDate :
    ((lastBounds dates).toDate.getD now).instant = lastEnd (ends dates) now.instant := by
  have hlast (v : Option (DateValue lib)) :
      ((v.map (·.time true)).getD now).instant = (v.map DateValue.last).getD now.instant := by
    cases v with
    | none => rfl
    | some v => rw [Option.map_some, Option.map_some, Option.getD_some, Option.getD_some, v.instant_last]
  have hto : (lastBounds dates).toDate =
      (dates.filterMap DateRule.finish?).getLast?.map (·.time true) := List.getLast?_map
  rw [hto, hlast, lastEnd, ends, List.getLast?_map]

theorem instant_sub (clock width : ℕ) (offset : Option ℤ) (h : width ≤ clock) :
    (DateTime.mk (clock - width) offset).instant = (DateTime.mk clock offset).instant - width := by
  change ((clock - width : ℕ) : ℤ) - offset.getD 0 = (clock : ℤ) - offset.getD 0 - width
  omega

theorem minusDays_ok {d : DateTime} {days : ℕ} (h : days * dayLength ≤ d.clock) :
    d.minusDays days = .ok ⟨d.clock - days * dayLength, d.utcoffset⟩ :=
  if_neg (Nat.not_lt.mpr h)

theorem window_ok (h : Representable dates now) : ∃ from_ to_,
    (lastBounds dates).window now = .ok (from_, to_) ∧
      from_.instant = lastStart (starts dates) (ends dates) now.instant thirtyDays ∧
      to_.instant = lastEnd (ends dates) now.instant := by
  cases hstart : (dates.filterMap DateRule.start?).getLast? with
  | some v =>
    refine ⟨v.time false, _, ?_, ?_, instant_toDate⟩
    · rw [DateBounds.window, lastBounds, List.getLast?_map, hstart]
      rfl
    · rw [lastStart, starts, List.getLast?_map, hstart, Option.map_some, Option.getD_some,
        v.instant_first]
  | none =>
    have hnone : dates.filterMap DateRule.start? = [] := List.getLast?_eq_none_iff.mp hstart
    have hstarts : starts dates = [] := by rw [starts, hnone, List.map_nil]
    have hclock := h hstarts
    have hto : ((lastBounds dates).toDate.getD now).instant = _ := instant_toDate
    have hfrom : (lastBounds dates).fromDate = none := by
      rw [lastBounds, List.getLast?_map, hstart, Option.map_none]
    rw [DateBounds.window, hfrom]
    generalize (lastBounds dates).toDate.getD now = to_ at hclock hto
    refine ⟨⟨to_.clock - 30 * dayLength, to_.utcoffset⟩, to_, ?_, ?_, hto⟩
    · rw [minusDays_ok hclock]
      rfl
    · rw [instant_sub _ _ _ hclock, hto, lastStart, hstarts, List.getLast?_nil, Option.getD_none,
        thirtyDays]

theorem window_error (h : ¬ Representable dates now) :
    (lastBounds dates).window now = .error .overflowError := by
  obtain ⟨hstarts, hclock⟩ := Classical.not_imp.mp h
  have hfrom : (lastBounds dates).fromDate = none := by
    rw [lastBounds, List.map_eq_nil_iff.mp hstarts]
    rfl
  have hminus : ((lastBounds dates).toDate.getD now).minusDays 30 = .error .overflowError :=
    if_pos (Nat.not_le.mp hclock)
  rw [DateBounds.window, hfrom]
  exact congrArg (Except.map _) hminus

end bounds

end FastapiTemplate.AdminFilters
