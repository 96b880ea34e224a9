import FastapiTemplate.CommonStatements

/-!
# Filters of the administration

`api/utils/admin_filters.py`: the rules that the filter registry offers, and the range of times that
a rule on a date gives. Times are in microseconds, the resolution of Python's `datetime`.
-/

namespace FastapiTemplate.AdminFilters

/-! ## Times -/

def dayLength : ℕ := 86400000000

/-- A `datetime`: its clock, counted from the year 1, and its offset from UTC unless it is naive. -/
structure DateTime where
  clock : ℕ
  utcoffset : Option ℤ
  deriving DecidableEq, Repr

inductive PyError
  | valueError
  | overflowError
  deriving DecidableEq, Repr

namespace DateTime

def instant (d : DateTime) : ℤ := d.clock - d.utcoffset.getD 0

/-- `dt.replace(tzinfo=timezone.utc)` for a naive time -/
def orUtc (d : DateTime) : DateTime := ⟨d.clock, d.utcoffset.or (some 0)⟩

/-- `datetime.combine(d.date(), time.min)`, or with `time.max` for the end. -/
def combine (d : DateTime) (isEnd : Bool) : DateTime :=
  ⟨d.clock / dayLength * dayLength + if isEnd then dayLength - 1 else 0, none⟩

def minusDays (d : DateTime) (days : ℕ) : Except PyError DateTime :=
  if d.clock < days * dayLength then .error .overflowError
  else .ok ⟨d.clock - days * dayLength, d.utcoffset⟩

end DateTime

/-! ## Rules -/

inductive FilterValue
  | none
  | text (s : String)
  | datetime (d : DateTime)
  /-- Any other object, with its truth value and its text. -/
  | other (truthy : Bool) (str : String)
  deriving DecidableEq, Repr

structure FilterRule where
  field : String
  filter : String
  value : FilterValue
  value2 : FilterValue
  deriving DecidableEq, Repr

/-- A rule of a `FilterGroup`, or a group in it, which the views skip. -/
inductive FilterItem
  | rule (r : FilterRule)
  | group
  deriving DecidableEq, Repr

/-- What the views use of Python: `datetime.fromisoformat`, `UUID(text)` and `str` of a time. Without
a value the call raises a `ValueError`. -/
structure Library where
  fromisoformat : String → Option DateTime
  uuid : String → Option ℕ
  str : DateTime → String

namespace FilterValue

def truthy : FilterValue → Bool
  | .none => false
  | .text s => s ≠ ""
  | .datetime _ => true
  | .other truthy _ => truthy

variable (lib : Library)

def str : FilterValue → String
  | .none => "None"
  | .text s => s
  | .datetime d => lib.str d
  | .other _ str => str

end FilterValue

section dates
variable (lib : Library)

def fromisoformat (s : String) : Except PyError DateTime :=
  (lib.fromisoformat s).elim (.error .valueError) .ok

def parseUuid (s : String) : Except PyError ℕ := (lib.uuid s).elim (.error .valueError) .ok

/-- A text of ten characters without `T` and space is a date. -/
def isDateOnly (s : String) : Bool := s.length = 10 && 'T' ∉ s.toList && ' ' ∉ s.toList

def parseAdminDatetime (val : FilterValue) (isEnd : Bool) : Except PyError DateTime :=
  match val with
  | .datetime dt => .ok dt.orUtc
  | val =>
    let s := Sql.strip (val.str lib)
    if isDateOnly s then (fromisoformat lib s).map (fun d => (d.combine isEnd).orUtc)
    else (fromisoformat lib s).map DateTime.orUtc

def extractDateRange (rule : FilterRule) : Except PyError (Option DateTime × Option DateTime) := do
  if rule.filter ∈ ["gte", "gt"] ∧ rule.value.truthy then
    let start ← parseAdminDatetime lib rule.value false
    pure (some start, none)
  else if rule.filter ∈ ["lte", "lt"] ∧ rule.value.truthy then
    let end_ ← parseAdminDatetime lib rule.value true
    pure (none, some end_)
  else if rule.filter = "between" then
    let start ← if rule.value.truthy then
      (parseAdminDatetime lib rule.value false).map some else pure none
    let end_ ← if rule.value2.truthy then
      (parseAdminDatetime lib rule.value2 true).map some else pure none
    pure (start, end_)
  else if rule.filter = "eq" ∧ rule.value.truthy then
    let start ← parseAdminDatetime lib rule.value false
    let end_ ← parseAdminDatetime lib rule.value true
    pure (some start, some end_)
  else pure (none, none)

end dates

end FastapiTemplate.AdminFilters
