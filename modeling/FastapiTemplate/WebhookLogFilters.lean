import FastapiTemplate.AdmittedRows
import FastapiTemplate.IndependentParts
import FastapiTemplate.TextRules

/-!
# Filters of the webhook logs

`WebhookLogAdminView._build_filter_query` compares a field with the value of every rule on it, under
both operators, and keeps the last bound of each side. So the rows are those that satisfy every rule
if and only if each value stands beside a rule that asks for equality, and the last bounds are the
strictest, or nothing is admitted and nothing may be.
-/

namespace FastapiTemplate.AdminFilters

open IndependentParts LikePatterns SelectTexts Windows

inductive WebhookField
  | direction
  | status
  | source
  | eventName
  deriving DecidableEq, Repr

def WebhookField.name : WebhookField → String
  | direction => "direction"
  | status => "status"
  | source => "source"
  | eventName => "event_name"

def TextOperator.filter : TextOperator → String
  | equals => "eq"
  | contains => "contains"

/-- What the rules are about in a row of `webhook_logs`. -/
structure WebhookLog where
  direction : String
  status : String
  source : String
  eventName : String
  createdAt : ℤ
  deriving DecidableEq, Repr

def WebhookLog.text (row : WebhookLog) : WebhookField → String
  | .direction => row.direction
  | .status => row.status
  | .source => row.source
  | .eventName => row.eventName

inductive WebhookRule (lib : Library)
  | date (r : DateRule lib)
  | text (r : TextRule WebhookField)

namespace WebhookRule

variable {lib : Library}

def toItem : WebhookRule lib → FilterItem
  | date r => .rule r.toRule
  | text r => .rule ⟨r.field.name, r.operator.filter, .text r.value, .none⟩

def Holds (f : Folding) : WebhookRule lib → WebhookLog → Prop
  | date r, row => r.Holds row.createdAt
  | text r, row => r.operator.Holds f (row.text r.field) r.value

instance (f : Folding) (r : WebhookRule lib) (row : WebhookLog) : Decidable (r.Holds f row) :=
  match r with
  | date r => inferInstanceAs (Decidable (r.Holds row.createdAt))
  | text r => inferInstanceAs (Decidable (r.operator.Holds f (row.text r.field) r.value))

def date? : WebhookRule lib → Option (DateRule lib)
  | date r => some r
  | text _ => none

def text? : WebhookRule lib → Option (TextRule WebhookField)
  | date _ => none
  | text r => some r

end WebhookRule

section webhook
variable {lib : Library} (f : Folding) (now : DateTime) (rules : List (WebhookRule lib))

def webhookDates : List (DateRule lib) := rules.filterMap WebhookRule.date?

def webhookTexts : List (TextRule WebhookField) := rules.filterMap WebhookRule.text?

/-- The row is inside the window, which spans 30 days where no start is given, and satisfies every
rule by its own operator. -/
def WebhookMeets (row : WebhookLog) : Prop :=
  InWindow (starts (webhookDates rules)) (ends (webhookDates rules)) now.instant thirtyDays
    row.createdAt ∧ ∀ r ∈ rules, r.Holds f row

def webhookHolds (c : Comparison Param) (row : WebhookLog) : Bool :=
  if c.column = "created_at" then timeHolds c row.createdAt
  else if c.column = "direction" then textHolds f c row.direction
  else if c.column = "status" then textHolds f c row.status
  else if c.column = "source" then textHolds f c row.source
  else if c.column = "event_name" then textHolds f c row.eventName
  else false

instance : DecidablePred (WebhookMeets f now rules) := fun _ =>
  inferInstanceAs (Decidable (_ ∧ _))

variable {f now rules}

theorem webhookMeets_iff (row : WebhookLog) : WebhookMeets f now rules row ↔
    InWindow (starts (webhookDates rules)) (ends (webhookDates rules)) now.instant thirtyDays
      row.createdAt ∧ ∀ x, Asked f (webhookTexts rules) x (row.text x) := by
  refine and_congr_right (fun hwindow => ⟨fun h x t ht hx => ?_, fun h r hr => ?_⟩)
  · obtain ⟨r, hr, hrule⟩ := List.mem_filterMap.mp ht
    cases r with
    | date r => cases hrule
    | text r =>
      rw [← Option.some.inj hrule] at hx ⊢
      exact hx ▸ h _ hr
  · cases r with
    | date r => exact holds_of_inWindow hwindow r (List.mem_filterMap.mpr ⟨_, hr, rfl⟩)
    | text r => exact h r.field r (List.mem_filterMap.mpr ⟨_, hr, rfl⟩) rfl

/-! ## What the code asks for -/

theorem foldlM_dateRule (b : DateBounds) :
    (rules.map WebhookRule.toItem).foldlM (WebhookLogAdminView.dateRule lib) b =
      .ok ((webhookDates rules).foldl (fun b r => b.update r.range) b) := by
  induction rules generalizing b with
  | nil => rfl
  | cons r rules ih =>
    rw [List.map_cons, List.foldlM_cons]
    cases r with
    | date r =>
      have hrule : WebhookLogAdminView.dateRule lib b (WebhookRule.date r).toItem =
          .ok (b.update r.range) := by
        have hfield : r.toRule.field = "created_at" := by cases r <;> rfl
        rw [WebhookRule.toItem, WebhookLogAdminView.dateRule, if_pos hfield,
          DateRule.extractDateRange_toRule]
        rfl
      rw [hrule]
      exact ih _
    | text r =>
      have hrule : WebhookLogAdminView.dateRule lib b
          (WebhookRule.text r : WebhookRule lib).toItem = .ok b := by
        have hname (x : WebhookField) : x.name ≠ "created_at" := by cases x <;> decide
        rw [WebhookRule.toItem, WebhookLogAdminView.dateRule, if_neg (hname r.field)]
      rw [hrule]
      exact ih _

theorem extractDateBounds_rules :
    WebhookLogAdminView.extractDateBounds lib now (some (rules.map WebhookRule.toItem)) =
      (lastBounds (webhookDates rules)).window now := by
  rw [WebhookLogAdminView.extractDateBounds, rulesOf, Option.getD_some, foldlM_dateRule,
    foldl_update]
  rfl

def webhookTest (r : TextRule WebhookField) : Condition Param :=
  WebhookLogAdminView.equalTest r.field.name (.value (.text r.value))

theorem ruleTest_toItem (r : WebhookRule lib) : WebhookLogAdminView.ruleTest r.toItem =
    r.text?.bind (fun r => if r.value = "" then none else some (webhookTest r)) := by
  cases r with
  | date r => cases r <;> rfl
  | text r =>
    have hname (x : WebhookField) : x.name ∈ WebhookLogAdminView.equalFields := by
      cases x <;> decide
    have htruthy : (FilterValue.text r.value).truthy = true ↔ ¬ r.value = "" := decide_eq_true_iff
    rw [WebhookRule.toItem, WebhookLogAdminView.ruleTest, WebhookRule.text?, Option.bind_some]
    dsimp only
    simp only [hname, true_and, htruthy, ite_not]
    rfl

theorem mem_ruleTests {c : Condition Param} :
    c ∈ (rules.map WebhookRule.toItem).filterMap WebhookLogAdminView.ruleTest ↔
      ∃ r ∈ webhookTexts rules, r.value ≠ "" ∧ webhookTest r = c := by
  rw [List.filterMap_map, List.mem_filterMap]
  simp only [Function.comp_apply, ruleTest_toItem, Option.bind_eq_some_iff, webhookTexts,
    List.mem_filterMap, Option.ite_none_left_eq_some, Option.some.injEq]
  constructor
  · rintro ⟨rule, hrule, r, hr, hne, hc⟩
    exact ⟨r, ⟨rule, hrule, hr⟩, hne, hc⟩
  · rintro ⟨r, ⟨rule, hrule, hr⟩, hne, hc⟩
    exact ⟨rule, hrule, r, hr, hne, hc⟩

theorem forall_tests (dates : DateTime × DateTime) {P : Condition Param → Prop} :
    (∀ c ∈ WebhookLogAdminView.tests (some (rules.map WebhookRule.toItem)) dates none, P c) ↔
      P .always ∧ (∀ r ∈ webhookTexts rules, r.value ≠ "" → P (webhookTest r)) ∧
        P (WebhookLogAdminView.fromTest (dateParam dates.1)) ∧
          P (WebhookLogAdminView.toTest (dateParam dates.2)) := by
  have htests : WebhookLogAdminView.tests (some (rules.map WebhookRule.toItem)) dates none =
      .always :: ((rules.map WebhookRule.toItem).filterMap WebhookLogAdminView.ruleTest ++
        [WebhookLogAdminView.fromTest (dateParam dates.1),
          WebhookLogAdminView.toTest (dateParam dates.2)]) := List.append_nil _
  rw [htests, List.forall_mem_cons, List.forall_mem_append, List.forall_mem_cons,
    List.forall_mem_singleton]
  refine and_congr_right (fun _ => and_congr_left (fun _ => ?_))
  constructor
  · exact fun h r hr hne => h _ (mem_ruleTests.mpr ⟨r, hr, hne, rfl⟩)
  · intro h c hc
    obtain ⟨r, hr, hne, rfl⟩ := mem_ruleTests.mp hc
    exact h r hr hne

theorem sends_tests (dates : DateTime × DateTime) :
    (WebhookLogAdminView.tests (some (rules.map WebhookRule.toItem)) dates none).all
      (fun c => c.comparisons.all sends) = true ↔
        ValuesSent (webhookTexts rules) ∧
          inYears dates.1.instant = true ∧ inYears dates.2.instant = true := by
  rw [List.all_eq_true, forall_tests]
  have htest (r : TextRule WebhookField) :
      (webhookTest r).comparisons.all sends = PyValue.noNulIn r.value := Bool.and_true _
  have hfrom : (WebhookLogAdminView.fromTest (dateParam dates.1)).comparisons.all sends =
      inYears dates.1.instant := Bool.and_true _
  have hto : (WebhookLogAdminView.toTest (dateParam dates.2)).comparisons.all sends =
      inYears dates.2.instant := Bool.and_true _
  simp only [htest, hfrom, hto]
  constructor
  · rintro ⟨-, h, hdates⟩
    refine ⟨fun r hr => ?_, hdates⟩
    by_cases hempty : r.value = ""
    · rw [hempty]
      rfl
    · exact h r hr hempty
  · exact fun h => ⟨rfl, fun r hr _ => h.1 r hr, h.2⟩

theorem webhookHolds_text (x : WebhookField) (value : String) (row : WebhookLog) :
    webhookHolds f ⟨x.name, "=", .value (.text value), ""⟩ row = true ↔ row.text x = value := by
  cases x <;> simp [webhookHolds, WebhookField.name, textHolds, WebhookLog.text]

theorem satisfies_tests (dates : DateTime × DateTime) (row : WebhookLog) :
    Satisfies (webhookHolds f)
      (WebhookLogAdminView.tests (some (rules.map WebhookRule.toItem)) dates none) row ↔
      (dates.1.instant ≤ row.createdAt ∧ row.createdAt ≤ dates.2.instant) ∧
        ∀ x, EqualsAll (webhookTexts rules) x (row.text x) := by
  have hdate (operator : String) (d : DateTime) :
      webhookHolds f ⟨"created_at", operator, dateParam d, ""⟩ row =
        timeHolds ⟨"created_at", operator, dateParam d, ""⟩ row.createdAt := rfl
  have hfrom : webhookHolds f ⟨"created_at", ">=", dateParam dates.1, ""⟩ row = true ↔
      dates.1.instant ≤ row.createdAt := decide_eq_true_iff
  have hto : webhookHolds f ⟨"created_at", "<=", dateParam dates.2, ""⟩ row = true ↔
      row.createdAt ≤ dates.2.instant := decide_eq_true_iff
  have htexts : (∀ r ∈ webhookTexts rules, r.value ≠ "" → row.text r.field = r.value) ↔
      ∀ x, EqualsAll (webhookTexts rules) x (row.text x) := by
    constructor
    · intro h x r hr hx hne
      exact hx ▸ h r hr hne
    · exact fun h r hr hne => h r.field r hr rfl hne
  rw [Satisfies, forall_tests, ← htexts]
  dsimp only [webhookTest, WebhookLogAdminView.equalTest, WebhookLogAdminView.fromTest,
    WebhookLogAdminView.toTest]
  simp only [webhookHolds_text, hfrom, hto, true_and]
  exact and_comm

/-! ## When the rules mean what they say -/

variable (f now rules)

/-- The query admits the rows that satisfy the rules, whatever the table holds. -/
def WebhookShows : Prop :=
  ∀ (t : LogRows WebhookLog) (limit skip : ℤ), ∃ found,
    admitted (t.server WebhookLogAdminView.listing (webhookHolds f))
      (WebhookLogAdminView.buildFilterQuery lib now (some (rules.map WebhookRule.toItem)) limit skip
        none) = some found ∧
    found.Perm (t.rows.filter (WebhookMeets f now rules))

/-- The last bounds are the strictest and every value stands beside an equality, or the query admits
nothing and no row satisfies the rules. -/
def WebhookRulesKept : Prop :=
  (LastStrictest (starts (webhookDates rules)) (ends (webhookDates rules)) ∧
    ∀ x, BesideEquals (webhookTexts rules) x) ∨
  ((LastCrossed (starts (webhookDates rules)) (ends (webhookDates rules)) now.instant ∨
      ∃ x, Clash (webhookTexts rules) x) ∧
    (Crossed (starts (webhookDates rules)) (ends (webhookDates rules)) now.instant ∨
      ∃ x, Contradictory f (webhookTexts rules) x))

variable {f now rules}

theorem forall_webhookLog {P : ℤ → (WebhookField → String) → Prop} :
    (∀ row : WebhookLog, P row.createdAt row.text) ↔ ∀ t x, P t x := by
  refine ⟨fun h t x => ?_, fun h row => h _ _⟩
  have hrow := h ⟨x .direction, x .status, x .source, x .eventName, t⟩
  have htext : WebhookLog.text ⟨x .direction, x .status, x .source, x .eventName, t⟩ = x := by
    funext field
    cases field <;> rfl
  rwa [htext] at hrow

theorem webhookShows_iff_run {bound : List (Condition Param)}
    (hasked : webhookAsked lib now (some (rules.map WebhookRule.toItem)) none = .ok bound) :
    WebhookShows f now rules ↔
      bound.all (fun c => c.comparisons.all sends) = true ∧
        ∀ row, Satisfies (webhookHolds f) bound row ↔ WebhookMeets f now rules row := by
  have hadmitted (t : LogRows WebhookLog) (limit skip : ℤ) := admitted_of_aligned
    (webhook_aligned lib now (some (rules.map WebhookRule.toItem)) none)
    (t.server WebhookLogAdminView.listing (webhookHolds f)) limit skip
  simp only [WebhookShows, hadmitted, hasked]
  rw [← run_iff (fun t : LogRows WebhookLog => t)
    (fun row => ⟨⟨[row], fun _ rows => rows, fun _ _ => List.Perm.refl _⟩, rfl⟩)
    ⟨⟨[], fun _ rows => rows, fun _ _ => List.Perm.refl _⟩⟩]
  exact ⟨fun h t => h t 0 0, fun h t _ _ => h t⟩

/-- The query that is built agrees with the rules on every row. -/
theorem webhookRulesKept_iff {dates : DateTime × DateTime}
    (hfrom : dates.1.instant = lastStart (starts (webhookDates rules)) (ends (webhookDates rules))
      now.instant thirtyDays)
    (hto : dates.2.instant = lastEnd (ends (webhookDates rules)) now.instant) :
    (∀ row, Satisfies (webhookHolds f)
      (WebhookLogAdminView.tests (some (rules.map WebhookRule.toItem)) dates none) row ↔
        WebhookMeets f now rules row) ↔ WebhookRulesKept f now rules := by
  have hwidth : 0 ≤ thirtyDays := Int.natCast_nonneg _
  have hparts : (∀ (t : ℤ) (x : WebhookField → String),
      (InLastWindow (starts (webhookDates rules)) (ends (webhookDates rules)) now.instant thirtyDays
        t ∧ ∀ i, EqualsAll (webhookTexts rules) i (x i)) ↔
      (InWindow (starts (webhookDates rules)) (ends (webhookDates rules)) now.instant thirtyDays
        t ∧ ∀ i, Asked f (webhookTexts rules) i (x i))) ↔ _ :=
    forall_first_iff_of_agree lastWindow_iff (fun _ => equalsAll_agree_iff)
  have hrows := forall_webhookLog.trans hparts
  simp only [inLastWindow_empty hwidth, inWindow_empty hwidth, not_equalsAll_iff,
    not_asked_iff] at hrows
  simp only [satisfies_tests, webhookMeets_iff, hfrom, hto]
  exact hrows

theorem webhookShows_iff : WebhookShows f now rules ↔
    WindowSent (webhookDates rules) now ∧ ValuesSent (webhookTexts rules) ∧
      WebhookRulesKept f now rules := by
  by_cases hwindow : Representable (webhookDates rules) now
  · obtain ⟨from_, to_, hextracted, hfrom, hto⟩ := window_ok hwindow
    have hasked : webhookAsked lib now (some (rules.map WebhookRule.toItem)) none =
        .ok (WebhookLogAdminView.tests (some (rules.map WebhookRule.toItem)) (from_, to_) none) := by
      rw [webhookAsked, extractDateBounds_rules, hextracted]
      rfl
    rw [webhookShows_iff_run hasked, sends_tests, webhookRulesKept_iff hfrom hto, hfrom, hto]
    constructor
    · rintro ⟨⟨htexts, hstart, hend⟩, hkept⟩
      exact ⟨⟨hwindow, hstart, hend⟩, htexts, hkept⟩
    · rintro ⟨hsent, htexts, hkept⟩
      exact ⟨⟨htexts, hsent.start, hsent.finish⟩, hkept⟩
  · refine iff_of_false (fun h => ?_) (fun h => hwindow h.1.representable)
    obtain ⟨found, hfound, -⟩ := h ⟨[], fun _ rows => rows, fun _ _ => List.Perm.refl _⟩ 0 0
    rw [WebhookLogAdminView.buildFilterQuery, extractDateBounds_rules, window_error hwindow] at hfound
    cases hfound

end webhook
end FastapiTemplate.AdminFilters
