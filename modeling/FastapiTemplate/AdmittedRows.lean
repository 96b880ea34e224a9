import FastapiTemplate.FilterRules
import FastapiTemplate.JsonColumns
import FastapiTemplate.LogQueryAlignment

/-!
# Rows that the log queries admit

What a server makes of the conditions of a log view, and the rows that a query admits without its
limit and offset. They are those that satisfy a predicate, whatever the table holds, if and only if
the driver sends the values and the conditions agree with the predicate on every row.
-/

namespace FastapiTemplate.AdminFilters

open LikePatterns SelectTexts

/-! ## Comparisons -/

def timeHolds (c : Comparison Param) (t : ℤ) : Bool :=
  match c.value with
  | .value (.datetime d) =>
    if c.operator = ">=" then d.instant ≤ t else if c.operator = "<=" then t ≤ d.instant else false
  | _ => false

def textHolds (f : Folding) (c : Comparison Param) (text : String) : Bool :=
  match c.value with
  | .value (.text s) =>
    if c.operator = "=" then text = s else if c.operator = "ILIKE" then ilike f text s else false
  | _ => false

def idHolds (c : Comparison Param) (id : ℕ) : Bool :=
  match c.value with
  | .uuid n => c.operator = "=" && id = n
  | _ => false

def inYears (t : ℤ) : Bool := 0 ≤ t && t < ((3652059 * dayLength : ℕ) : ℤ)

/-- The driver sends any text but one with a NUL, and a time that it can convert to UTC. -/
def sends (c : Comparison Param) : Bool :=
  match c.value with
  | .value (.text s) => PyValue.noNulIn s
  | .value (.datetime d) => inYears d.instant
  | _ => true

def bigint : Param → Option ℕ
  | .int n => if 0 ≤ n ∧ n ≤ 9223372036854775807 then some n.toNat else none
  | _ => none

structure WindowSent {lib : Library} (dates : List (DateRule lib)) (now : DateTime) : Prop where
  representable : Representable dates now
  start : inYears (Windows.lastStart (starts dates) (ends dates) now.instant thirtyDays) = true
  finish : inYears (Windows.lastEnd (ends dates) now.instant) = true

/-! ## Tables -/

variable {ρ τ : Type}

structure LogRows (ρ : Type) where
  rows : List ρ
  sort : List String → List ρ → List ρ
  sort_perm : ∀ order rows, (sort order rows).Perm rows

def LogRows.server (t : LogRows ρ) (l : Listing) (holds : Comparison Param → ρ → Bool) :
    Server Param ρ where
  rows source := if source = l.source then t.rows else []
  encodes := sends
  number := bigint
  holds := holds
  sort := t.sort
  sort_perm := t.sort_perm

/-- The rows for a query without its limit and offset; `none` if an exception is raised. -/
def admitted (s : Server Param ρ) (query : Except PyError Query) : Option (List ρ) :=
  query.toOption.bind fun query => query.prepared.bind fun select =>
    s.run { select with limit := none, offset := none }

def Satisfies (holds : Comparison Param → ρ → Bool) (bound : List (Condition Param)) (row : ρ) :
    Prop :=
  ∀ c ∈ bound, match c with
    | .always => True
    | .one c => holds c row = true
    | .any cs => ∃ c ∈ cs, holds c row = true

section admitted
variable {l : Listing} {holds : Comparison Param → ρ → Bool} {bound : List (Condition Param)}

theorem admitted_of_aligned {build : ℤ → ℤ → Except PyError Query}
    {asked : Except PyError (List (Condition Param))} (h : Aligned l build asked)
    (s : Server Param ρ) (limit skip : ℤ) :
    admitted s (build limit skip) = asked.toOption.bind (fun bound => s.run (l.unpaged bound)) := by
  have hpage := h.pages limit skip
  cases hbuild : build limit skip with
  | error e =>
    rw [hbuild] at hpage
    cases asked with
    | error e => rfl
    | ok bound => cases hpage
  | ok query =>
    rw [hbuild] at hpage
    cases asked with
    | error e => cases hpage
    | ok bound =>
      have hprepared : query.prepared = some (l.page bound limit skip) := Except.ok.inj hpage
      have hadmitted : admitted s (.ok query) = query.prepared.bind
        (fun select => s.run { select with limit := none, offset := none }) := rfl
      rw [hadmitted, hprepared]
      rfl

theorem satisfies_iff (t : LogRows ρ) (row : ρ) :
    bound.all ((t.server l holds).satisfies · row) = true ↔ Satisfies holds bound row := by
  rw [List.all_eq_true, Satisfies]
  refine forall₂_congr (fun c _ => ?_)
  cases c with
  | always => exact iff_of_true rfl trivial
  | one c => rfl
  | any cs => exact List.any_eq_true

theorem run_unpaged (t : LogRows ρ) : (t.server l holds).run (l.unpaged bound) =
    if (bound.all (fun c => c.comparisons.all sends)) = true then
      some (t.sort l.order (t.rows.filter (fun row => bound.all ((t.server l holds).satisfies · row))))
    else none := by
  have hrows : (t.server l holds).rows l.source = t.rows := if_pos rfl
  rw [Server.run, Listing.unpaged, ← hrows]
  rfl

/-- Every table has its rows admitted by the conditions as the predicate asks, if and only if the
values are sent and conditions and predicate agree on every row. -/
theorem run_iff (rowsOf : τ → LogRows ρ) (hsingle : ∀ row, ∃ t, (rowsOf t).rows = [row])
    (hother : Nonempty τ) {meets : ρ → Prop} [DecidablePred meets] :
    (∀ t, ∃ found, ((rowsOf t).server l holds).run (l.unpaged bound) = some found ∧
      found.Perm ((rowsOf t).rows.filter meets)) ↔
    bound.all (fun c => c.comparisons.all sends) = true ∧
      ∀ row, Satisfies holds bound row ↔ meets row := by
  have hmem (t : LogRows ρ) {row : ρ} (hrow : row ∈ t.rows) : row ∈ t.sort l.order
      (t.rows.filter (fun row => bound.all ((t.server l holds).satisfies · row))) ↔
        Satisfies holds bound row := by
    rw [(t.sort_perm ..).mem_iff, List.mem_filter, satisfies_iff]
    exact and_iff_right hrow
  constructor
  · intro h
    have hsends : bound.all (fun c => c.comparisons.all sends) = true := by
      obtain ⟨t⟩ := hother
      obtain ⟨found, hfound, -⟩ := h t
      rw [run_unpaged] at hfound
      by_contra hrefused
      rw [if_neg hrefused] at hfound
      cases hfound
    refine ⟨hsends, fun row => ?_⟩
    obtain ⟨t, ht⟩ := hsingle row
    obtain ⟨found, hfound, hperm⟩ := h t
    have hrow : row ∈ (rowsOf t).rows := ht ▸ List.mem_singleton_self row
    rw [run_unpaged, if_pos hsends] at hfound
    rw [← hmem (rowsOf t) hrow, Option.some.inj hfound, hperm.mem_iff, List.mem_filter,
      and_iff_right hrow, decide_eq_true_eq]
  · rintro ⟨hsends, hagree⟩ t
    refine ⟨_, (run_unpaged (rowsOf t)).trans (if_pos hsends), ?_⟩
    refine ((rowsOf t).sort_perm ..).trans (List.Perm.of_eq (List.filter_congr (fun row _ => ?_)))
    exact Bool.eq_iff_iff.mpr (((satisfies_iff _ row).trans (hagree row)).trans
      decide_eq_true_iff.symm)

end admitted

end FastapiTemplate.AdminFilters
