import FastapiTemplate.JsonColumns
import FastapiTemplate.LikePatterns
import Mathlib.Data.List.Infix
import Mathlib.Tactic.ByContra

/-!
# Rules on texts

Rules ask that a field equals or contains a value. Two readers of such rules are compared with what
the rules ask for: one compares the field with every value that is not empty, the other looks for
the last such value between two `%`.
-/

namespace FastapiTemplate.AdminFilters

open LikePatterns

inductive TextOperator
  | equals
  | contains
  deriving DecidableEq, Repr

def TextOperator.Holds (f : Folding) : TextOperator → String → String → Prop
  | equals, text, value => text = value
  | contains, text, value => Contains f text value

instance (f : Folding) (o : TextOperator) (text value : String) : Decidable (o.Holds f text value) :=
  match o with
  | .equals => inferInstanceAs (Decidable (text = value))
  | .contains => inferInstanceAs (Decidable (Contains f text value))

structure TextRule (φ : Type) where
  field : φ
  operator : TextOperator
  value : String
  deriving DecidableEq, Repr

variable {φ : Type} (f : Folding) (rules : List (TextRule φ)) (x : φ)

def Asked (text : String) : Prop :=
  ∀ r ∈ rules, r.field = x → r.operator.Holds f text r.value

def Contradictory : Prop :=
  ∃ e ∈ rules, ∃ r ∈ rules, e.field = x ∧ e.operator = .equals ∧ r.field = x ∧
    ¬ r.operator.Holds f e.value r.value

def ValuesSent : Prop := ∀ r ∈ rules, PyValue.noNulIn r.value = true

section asked
variable {f rules x}

theorem holds_self (operator : TextOperator) (text : String) : operator.Holds f text text := by
  cases operator with
  | equals => rfl
  | contains => exact contains_self text

theorem ne_append {text other : String} (hother : other ≠ "") : text ++ other ≠ text := by
  intro h
  have hlength := congrArg String.length h
  rw [String.length_append] at hlength
  exact hother (String.length_eq_zero_iff.mp (by omega))

/-- One text may contain the values of all rules. -/
theorem exists_contains_all (rules : List (TextRule φ)) :
    ∃ text, ∀ r ∈ rules, Contains f text r.value := by
  induction rules with
  | nil => exact ⟨"", fun r hr => absurd hr List.not_mem_nil⟩
  | cons r rules ih =>
    obtain ⟨text, htext⟩ := ih
    refine ⟨r.value ++ text, List.forall_mem_cons.mpr ⟨contains_append _ _, ?_⟩⟩
    exact fun r' hr' => append_contains (htext r' hr') _

theorem not_asked_iff : (∀ text, ¬ Asked f rules x text) ↔ Contradictory f rules x := by
  constructor
  · intro h
    by_contra hnone
    by_cases hequals : ∃ e ∈ rules, e.field = x ∧ e.operator = .equals
    · obtain ⟨e, he, hfield, hoperator⟩ := hequals
      refine h e.value (fun r hr hx => ?_)
      by_contra hexcluded
      exact hnone ⟨e, he, r, hr, hfield, hoperator, hx, hexcluded⟩
    · obtain ⟨text, htext⟩ := exists_contains_all (f := f) rules
      refine h text (fun r hr hx => ?_)
      cases hoperator : r.operator with
      | equals => exact absurd ⟨r, hr, hx, hoperator⟩ hequals
      | contains => exact htext r hr
  · rintro ⟨e, he, r, hr, hfield, hoperator, hx, hexcluded⟩ text hasked
    have hequal := hasked e he hfield
    rw [hoperator] at hequal
    have htext : text = e.value := hequal
    exact hexcluded (htext ▸ hasked r hr hx)

end asked

/-! ## Every value is compared -/

def EqualsAll (text : String) : Prop :=
  ∀ r ∈ rules, r.field = x → r.value ≠ "" → text = r.value

def Clash : Prop :=
  ∃ r ∈ rules, ∃ r' ∈ rules, r.field = x ∧ r'.field = x ∧ r.value ≠ "" ∧ r'.value ≠ "" ∧
    r.value ≠ r'.value

/-- A value that is not empty stands beside a rule that asks for equality, and an equality has such a
value, which is that of all rules that have one. -/
structure BesideEquals : Prop where
  same : ∀ e ∈ rules, e.field = x → e.operator = .equals →
    e.value ≠ "" ∧ ∀ r ∈ rules, r.field = x → r.value = "" ∨ r.value = e.value
  beside : ∀ r ∈ rules, r.field = x → r.value ≠ "" →
    ∃ e ∈ rules, e.field = x ∧ e.operator = .equals

section equalsAll
variable {f rules x}

theorem not_equalsAll_iff : (∀ text, ¬ EqualsAll rules x text) ↔ Clash rules x := by
  constructor
  · intro h
    by_contra hnone
    by_cases hvalue : ∃ r ∈ rules, r.field = x ∧ r.value ≠ ""
    · obtain ⟨r, hr, hfield, hne⟩ := hvalue
      refine h r.value (fun r' hr' hfield' hne' => ?_)
      by_contra hdifferent
      exact hnone ⟨r, hr, r', hr', hfield, hfield', hne, hne', hdifferent⟩
    · exact h "" (fun r hr hfield hne => absurd ⟨r, hr, hfield, hne⟩ hvalue)
  · rintro ⟨r, hr, r', hr', hfield, hfield', hne, hne', hdifferent⟩ text htext
    exact hdifferent ((htext r hr hfield hne).symm.trans (htext r' hr' hfield' hne'))

theorem besideEquals_of_agree (h : ∀ text, EqualsAll rules x text ↔ Asked f rules x text)
    {text : String} (htext : EqualsAll rules x text) : BesideEquals rules x where
  same := by
    intro e he hfield hoperator
    have hvalue {text : String} (hasked : Asked f rules x text) : text = e.value := by
      have hequal := hasked e he hfield
      rwa [hoperator] at hequal
    have htextValue := hvalue ((h text).mp htext)
    refine ⟨?_, ?_⟩
    · intro hempty
      -- no value would exclude another text
      have hall : EqualsAll rules x "a" := by
        intro r hr hx hne
        exact absurd ((htext r hr hx hne).symm.trans (htextValue.trans hempty)) hne
      exact absurd ((hvalue ((h "a").mp hall)).trans hempty) (by decide)
    · intro r hr hx
      by_cases hne : r.value = ""
      · exact .inl hne
      · exact .inr ((htext r hr hx hne).symm.trans htextValue)
  beside := by
    intro r hr hx hne
    by_contra hnone
    have hvalue := htext r hr hx hne
    have hlonger : Asked f rules x (text ++ "a") := by
      intro r' hr' hx'
      cases hoperator : r'.operator with
      | equals => exact absurd ⟨r', hr', hx', hoperator⟩ hnone
      | contains =>
        by_cases hne' : r'.value = ""
        · rw [hne']
          exact contains_empty _
        · rw [← htext r' hr' hx' hne']
          exact contains_append text "a"
    have hequals := (h (text ++ "a")).mpr hlonger r hr hx hne
    exact ne_append (by decide) (hequals.trans hvalue.symm)

theorem asked_of_besideEquals (h : BesideEquals rules x) (text : String) :
    EqualsAll rules x text ↔ Asked f rules x text := by
  constructor
  · intro htext r hr hx
    by_cases hne : r.value = ""
    · cases hoperator : r.operator with
      | equals => exact absurd hne (h.same r hr hx hoperator).1
      | contains =>
        rw [hne]
        exact contains_empty text
    · rw [htext r hr hx hne]
      exact holds_self _ _
  · intro hasked r hr hx hne
    obtain ⟨e, he, hfield, hoperator⟩ := h.beside r hr hx hne
    have hequal := hasked e he hfield
    rw [hoperator] at hequal
    have htext : text = e.value := hequal
    rw [htext]
    exact (((h.same e he hfield hoperator).2 r hr hx).resolve_left hne).symm

theorem equalsAll_agree_iff : (∀ text, EqualsAll rules x text ↔ Asked f rules x text) ↔
    BesideEquals rules x ∨
      ((∀ text, ¬ EqualsAll rules x text) ∧ ∀ text, ¬ Asked f rules x text) := by
  constructor
  · intro h
    by_cases hempty : ∀ text, ¬ EqualsAll rules x text
    · exact .inr ⟨hempty, fun text => (not_congr (h text)).mp (hempty text)⟩
    · obtain ⟨text, htext⟩ := not_forall.mp hempty
      exact .inl (besideEquals_of_agree h (not_not.mp htext))
  · rintro (h | ⟨hequals, hasked⟩) text
    · exact asked_of_besideEquals h text
    · exact iff_of_false (hequals text) (hasked text)

end equalsAll

/-! ## The last value is looked for -/

section lastValue
variable [DecidableEq φ]

def lastValue : Option String :=
  ((rules.filter (fun r => r.field = x ∧ r.value ≠ "")).map (·.value)).getLast?

def FindsLast (text : String) : Prop := ∀ v ∈ lastValue rules x, ilike f text (around v) = true

/-- There are only rules that ask for parts. The last value is not special in a pattern and has the
other values as its parts. -/
structure LastCovers : Prop where
  contains : ∀ r ∈ rules, r.field = x → r.operator = .contains
  last : ∀ v ∈ lastValue rules x,
    Literal v.toList ∧ ∀ r ∈ rules, r.field = x → Contains f v r.value

variable {f rules x}

theorem lastValue_concat (r : TextRule φ) : lastValue (rules ++ [r]) x =
    if r.field = x ∧ r.value ≠ "" then some r.value else lastValue rules x := by
  rw [lastValue, List.filter_append, List.map_append]
  split_ifs with hr
  · rw [List.filter_cons, if_pos (decide_eq_true hr)]
    exact List.getLast?_concat
  · rw [List.filter_cons, if_neg (fun h => hr (of_decide_eq_true h)), List.filter_nil, List.map_nil,
      List.append_nil, lastValue]

theorem mem_of_lastValue {v : String} (h : v ∈ lastValue rules x) :
    ∃ r ∈ rules, r.field = x ∧ r.value = v ∧ v ≠ "" := by
  obtain ⟨r, hr, rfl⟩ := List.mem_map.mp (List.mem_of_getLast? h)
  obtain ⟨hmem, hrule⟩ := List.mem_filter.mp hr
  have hfield := of_decide_eq_true hrule
  exact ⟨r, hmem, hfield.1, rfl, hfield.2⟩

theorem eq_empty_of_lastValue (h : lastValue rules x = none) {r : TextRule φ} (hr : r ∈ rules)
    (hx : r.field = x) : r.value = "" := by
  by_contra hne
  have hnil := List.map_eq_nil_iff.mp (List.getLast?_eq_none_iff.mp h)
  exact List.filter_eq_nil_iff.mp hnil r hr (decide_eq_true ⟨hx, hne⟩)

variable (f rules x) in
/-- Two texts at least are found. -/
theorem exists_findsLast_ne (excluded : String) :
    ∃ text, FindsLast f rules x text ∧ text ≠ excluded := by
  have hlonger (text : String) : String.ofList ('a' :: text.toList) ≠ text := by
    intro h
    have hlength := congrArg String.length h
    rw [String.length_ofList, List.length_cons, String.length_toList] at hlength
    omega
  obtain ⟨text, htext, hnext⟩ : ∃ text, FindsLast f rules x text ∧
      FindsLast f rules x (String.ofList ('a' :: text.toList)) := by
    cases hlast : lastValue rules x with
    | none =>
      refine ⟨"", ?_, ?_⟩ <;>
        exact fun v hv => absurd (hlast.symm.trans hv) (by simp)
    | some v =>
      obtain ⟨text, htext⟩ := exists_ilike_around (f := f) v
      refine ⟨text, fun w hw => ?_, fun w hw => ?_⟩
      · rwa [← Option.some.inj (hlast.symm.trans hw)]
      · rw [← Option.some.inj (hlast.symm.trans hw)]
        exact ilike_around_cons htext 'a'
  by_cases heq : text = excluded
  · exact ⟨_, hnext, heq ▸ hlonger text⟩
  · exact ⟨text, htext, heq⟩

theorem lastCovers_of_agree (h : ∀ text, FindsLast f rules x text ↔ Asked f rules x text) :
    LastCovers f rules x := by
  have hcontains : ∀ r ∈ rules, r.field = x → r.operator = .contains := by
    intro r hr hx
    cases hoperator : r.operator with
    | contains => rfl
    | equals =>
      obtain ⟨text, htext, hne⟩ := exists_findsLast_ne f rules x r.value
      have hequal := (h text).mp htext r hr hx
      rw [hoperator] at hequal
      exact absurd hequal hne
  refine ⟨hcontains, fun v hv => ?_⟩
  obtain ⟨r, hr, hx, hvalue, -⟩ := mem_of_lastValue hv
  have hliteral : Literal v.toList := by
    by_contra hspecial
    obtain ⟨text, htext, hnot⟩ := exists_ilike_not_contains (f := f) hspecial
    have hfound : FindsLast f rules x text := by
      intro w hw
      rwa [← Option.some.inj (hv.symm.trans hw)]
    have hpart := (h text).mp hfound r hr hx
    rw [hcontains r hr hx, hvalue] at hpart
    exact hnot hpart
  refine ⟨hliteral, fun r' hr' hx' => ?_⟩
  have hfound : FindsLast f rules x v := by
    intro w hw
    rw [← Option.some.inj (hv.symm.trans hw)]
    exact (ilike_around_literal hliteral v).mpr (contains_self v)
  have hpart := (h v).mp hfound r' hr' hx'
  rwa [hcontains r' hr' hx'] at hpart

theorem asked_of_lastCovers (h : LastCovers f rules x) (text : String) :
    FindsLast f rules x text ↔ Asked f rules x text := by
  cases hlast : lastValue rules x with
  | none =>
    have hfound : FindsLast f rules x text := fun v hv => absurd (hlast.symm.trans hv) (by simp)
    refine iff_of_true hfound (fun r hr hx => ?_)
    rw [h.contains r hr hx, eq_empty_of_lastValue hlast hr hx]
    exact contains_empty text
  | some v =>
    obtain ⟨hliteral, hcovers⟩ := h.last v hlast
    obtain ⟨r, hr, hx, hvalue, -⟩ := mem_of_lastValue (x := x) hlast
    have hfound : FindsLast f rules x text ↔ Contains f text v := by
      rw [← ilike_around_literal hliteral]
      constructor
      · exact fun hfinds => hfinds v hlast
      · intro hfinds w hw
        rwa [← Option.some.inj (hlast.symm.trans hw)]
    rw [hfound]
    constructor
    · intro hpart r' hr' hx'
      rw [h.contains r' hr' hx']
      exact Contains.trans hpart (hcovers r' hr' hx')
    · intro hasked
      have hpart := hasked r hr hx
      rwa [h.contains r hr hx, hvalue] at hpart

theorem findsLast_agree_iff :
    (∀ text, FindsLast f rules x text ↔ Asked f rules x text) ↔ LastCovers f rules x :=
  ⟨lastCovers_of_agree, asked_of_lastCovers⟩

end lastValue
end FastapiTemplate.AdminFilters
