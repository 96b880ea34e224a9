import FastapiTemplate.WebhookLogFilters

/-!
# Filters of the audit logs

`AuditLogAdminView._extract_query_filters` keeps the last value for each field under both operators,
and looks for it between two `%`; a name is looked for in the full name and in the username. So the
rows are those that satisfy every rule if and only if the rules ask for parts only, the last value
has the others as its parts, and no name is asked for, or nothing is admitted and nothing may be.
-/

namespace FastapiTemplate.AdminFilters

open IndependentParts LikePatterns SelectTexts Windows

inductive AuditField
  | actorName
  | resource
  | action
  deriving DecidableEq, Repr

def AuditField.name : AuditField → String
  | actorName => "actor_name"
  | resource => "resource"
  | action => "action"

structure Actor where
  fullName : Option String
  username : String
  deriving DecidableEq, Repr

/-- `COALESCE(NULLIF(u.full_name, ''), u.username, 'Unknown')` -/
def displayName : Option Actor → String
  | none => "Unknown"
  | some actor => (Sql.nonEmpty actor.fullName).getD actor.username

/-- What the rules are about in a row of `audit_logs` with its user. -/
structure AuditRow where
  actorId : ℕ
  actor : Option Actor
  resource : String
  action : String
  createdAt : ℤ
  deriving DecidableEq, Repr

def AuditRow.text (row : AuditRow) : AuditField → String
  | .actorName => displayName row.actor
  | .resource => row.resource
  | .action => row.action

structure AuditLog where
  actorId : ℕ
  resource : String
  action : String
  createdAt : ℤ
  deriving DecidableEq, Repr

structure AuditTables where
  logs : List AuditLog
  users : ℕ → Option Actor
  sort : List String → List AuditRow → List AuditRow
  sort_perm : ∀ order rows, (sort order rows).Perm rows

/-- `audit_logs a LEFT JOIN users u ON a.actor_id = u.id` -/
def AuditTables.joined (t : AuditTables) : LogRows AuditRow where
  rows := t.logs.map
    (fun log => ⟨log.actorId, t.users log.actorId, log.resource, log.action, log.createdAt⟩)
  sort := t.sort
  sort_perm := t.sort_perm

structure IdValue (lib : Library) where
  value : FilterValue
  id : ℕ
  truthy : value.truthy = true
  reads : lib.uuid (value.str lib) = some id

inductive AuditRule (lib : Library)
  | date (r : DateRule lib)
  | actorId (v : IdValue lib)
  | text (r : TextRule AuditField)

namespace AuditRule

variable {lib : Library}

def toItem : AuditRule lib → FilterItem
  | date r => .rule r.toRule
  | actorId v => .rule ⟨"actor_id", "eq", v.value, .none⟩
  | text r => .rule ⟨r.field.name, r.operator.filter, .text r.value, .none⟩

def Holds (f : Folding) : AuditRule lib → AuditRow → Prop
  | date r, row => r.Holds row.createdAt
  | actorId v, row => row.actorId = v.id
  | text r, row => r.operator.Holds f (row.text r.field) r.value

instance (f : Folding) (r : AuditRule lib) (row : AuditRow) : Decidable (r.Holds f row) :=
  match r with
  | date r => inferInstanceAs (Decidable (r.Holds row.createdAt))
  | actorId v => inferInstanceAs (Decidable (row.actorId = v.id))
  | text r => inferInstanceAs (Decidable (r.operator.Holds f (row.text r.field) r.value))

def date? : AuditRule lib → Option (DateRule lib)
  | date r => some r
  | _ => none

def id? : AuditRule lib → Option ℕ
  | actorId v => some v.id
  | _ => none

def text? : AuditRule lib → Option (TextRule AuditField)
  | text r => some r
  | _ => none

end AuditRule

section audit
variable {lib : Library} (f : Folding) (now : DateTime) (rules : List (AuditRule lib))

def auditDates : List (DateRule lib) := rules.filterMap AuditRule.date?

def auditIds : List ℕ := rules.filterMap AuditRule.id?

def auditTexts : List (TextRule AuditField) := rules.filterMap AuditRule.text?

/-- The row is inside the window, which spans 30 days where no start is given, and satisfies every
rule by its own operator. -/
def AuditMeets (row : AuditRow) : Prop :=
  InWindow (starts (auditDates rules)) (ends (auditDates rules)) now.instant thirtyDays
    row.createdAt ∧ ∀ r ∈ rules, r.Holds f row

instance : DecidablePred (AuditMeets f now rules) := fun _ => inferInstanceAs (Decidable (_ ∧ _))

def auditHolds (c : Comparison Param) (row : AuditRow) : Bool :=
  if c.column = "a.created_at" then timeHolds c row.createdAt
  else if c.column = "a.actor_id" then idHolds c row.actorId
  else if c.column = "u.full_name" then (row.actor.bind (·.fullName)).any (textHolds f c)
  else if c.column = "u.username" then (row.actor.map (·.username)).any (textHolds f c)
  else if c.column = "a.resource" then textHolds f c row.resource
  else if c.column = "a.action" then textHolds f c row.action
  else false

variable {f now rules}

theorem auditMeets_iff (row : AuditRow) : AuditMeets f now rules row ↔
    InWindow (starts (auditDates rules)) (ends (auditDates rules)) now.instant thirtyDays
      row.createdAt ∧ (∀ id ∈ auditIds rules, row.actorId = id) ∧
        ∀ x, Asked f (auditTexts rules) x (row.text x) := by
  refine and_congr_right (fun hwindow => ⟨fun h => ⟨?_, ?_⟩, fun h r hr => ?_⟩)
  · intro id hid
    obtain ⟨r, hr, hrule⟩ := List.mem_filterMap.mp hid
    cases r with
    | date r => cases hrule
    | actorId v => exact (h _ hr).trans (Option.some.inj hrule)
    | text r => cases hrule
  · intro x t ht hx
    obtain ⟨r, hr, hrule⟩ := List.mem_filterMap.mp ht
    cases r with
    | date r => cases hrule
    | actorId v => cases hrule
    | text r =>
      rw [← Option.some.inj hrule] at hx ⊢
      exact hx ▸ h _ hr
  · cases r with
    | date r => exact holds_of_inWindow hwindow r (List.mem_filterMap.mpr ⟨_, hr, rfl⟩)
    | actorId v => exact h.1 v.id (List.mem_filterMap.mpr ⟨_, hr, rfl⟩)
    | text r => exact h.2 r.field r (List.mem_filterMap.mpr ⟨_, hr, rfl⟩) rfl

/-! ## What the code asks for -/

def withText (s : AuditLogAdminView.RuleValues) (value : String) :
    AuditField → AuditLogAdminView.RuleValues
  | .actorName => { s with actorName := some value }
  | .resource => { s with resource := some value }
  | .action => { s with action := some value }

def lastValues (rules : List (AuditRule lib)) : AuditLogAdminView.RuleValues where
  dates := lastBounds (auditDates rules)
  actorId := (auditIds rules).getLast?
  actorName := lastValue (auditTexts rules) .actorName
  resource := lastValue (auditTexts rules) .resource
  action := lastValue (auditTexts rules) .action

theorem lastValues_date (r : DateRule lib) : lastValues (rules ++ [.date r]) =
    { lastValues rules with dates := (lastValues rules).dates.update r.range } := by
  have hdates : auditDates (rules ++ [.date r]) = auditDates rules ++ [r] := List.filterMap_append
  have hids : auditIds (rules ++ [.date r]) = auditIds rules :=
    List.filterMap_append.trans (List.append_nil _)
  have htexts : auditTexts (rules ++ [.date r]) = auditTexts rules :=
    List.filterMap_append.trans (List.append_nil _)
  rw [lastValues, hdates, hids, htexts, lastBounds_concat, lastValues]

theorem lastValues_actorId (v : IdValue lib) : lastValues (rules ++ [.actorId v]) =
    { lastValues rules with actorId := some v.id } := by
  have hdates : auditDates (rules ++ [.actorId v]) = auditDates rules :=
    List.filterMap_append.trans (List.append_nil _)
  have hids : auditIds (rules ++ [.actorId v]) = auditIds rules ++ [v.id] := List.filterMap_append
  have htexts : auditTexts (rules ++ [.actorId v]) = auditTexts rules :=
    List.filterMap_append.trans (List.append_nil _)
  rw [lastValues, hdates, hids, htexts, List.getLast?_concat, lastValues]

theorem lastValues_text (r : TextRule AuditField) : lastValues (rules ++ [.text r]) =
    if r.value = "" then lastValues rules else withText (lastValues rules) r.value r.field := by
  have hdates : auditDates (rules ++ [.text r]) = auditDates rules :=
    List.filterMap_append.trans (List.append_nil _)
  have hids : auditIds (rules ++ [.text r]) = auditIds rules :=
    List.filterMap_append.trans (List.append_nil _)
  have htexts : auditTexts (rules ++ [.text r]) = auditTexts rules ++ [r] := List.filterMap_append
  rw [lastValues, hdates, hids, htexts, lastValue_concat, lastValue_concat, lastValue_concat,
    lastValues]
  obtain ⟨field, operator, value⟩ := r
  by_cases hempty : value = ""
  · simp [hempty]
  · cases field <;> simp [hempty, withText]

theorem extractRule_toItem (r : AuditRule lib) :
    AuditLogAdminView.extractRule lib (lastValues rules) r.toItem =
      .ok (lastValues (rules ++ [r])) := by
  cases r with
  | date r =>
    have hfield : r.toRule.field = "created_at" := by cases r <;> rfl
    rw [AuditRule.toItem, AuditLogAdminView.extractRule, if_pos hfield,
      DateRule.extractDateRange_toRule, lastValues_date]
    rfl
  | actorId v =>
    have hid : parseUuid lib (v.value.str lib) = .ok v.id := by
      rw [parseUuid, v.reads]
      rfl
    have hdate : "actor_id" ≠ "created_at" := by decide
    rw [AuditRule.toItem, AuditLogAdminView.extractRule, if_neg hdate, if_pos ⟨rfl, v.truthy⟩,
      lastValues_actorId]
    dsimp only
    rw [hid]
    rfl
  | text r =>
    obtain ⟨field, operator, value⟩ := r
    rw [AuditRule.toItem, AuditLogAdminView.extractRule, lastValues_text]
    by_cases hempty : value = ""
    · subst hempty
      have hfalse : (FilterValue.text "").truthy = false := rfl
      cases field <;> simp [AuditField.name, hfalse]
    · have htrue : (FilterValue.text value).truthy = true := decide_eq_true hempty
      cases field <;> simp [AuditField.name, htrue, hempty, FilterValue.str, withText]

theorem foldlM_extractRule (rules : List (AuditRule lib)) :
    (rules.map AuditRule.toItem).foldlM (AuditLogAdminView.extractRule lib) {} =
      .ok (lastValues rules) := by
  induction rules using List.reverseRecOn with
  | nil => rfl
  | append_singleton rules r ih =>
    rw [List.map_append, List.foldlM_append, ih]
    change (AuditLogAdminView.extractRule lib (lastValues rules) r.toItem >>= pure) = _
    rw [extractRule_toItem]
    rfl

theorem extractQueryFilters_rules : AuditLogAdminView.extractQueryFilters lib now
    (some (rules.map AuditRule.toItem)) = ((lastBounds (auditDates rules)).window now).map
      (fun dates => ⟨dates, (auditIds rules).getLast?, lastValue (auditTexts rules) .actorName,
        lastValue (auditTexts rules) .resource, lastValue (auditTexts rules) .action⟩) := by
  rw [AuditLogAdminView.extractQueryFilters, rulesOf, Option.getD_some, foldlM_extractRule]
  rfl

theorem nonEmpty_lastValue {φ : Type} [DecidableEq φ] (texts : List (TextRule φ)) (x : φ) :
    Sql.nonEmpty (lastValue texts x) = lastValue texts x := by
  cases hlast : lastValue texts x with
  | none => rfl
  | some v =>
    obtain ⟨-, -, -, -, hne⟩ := mem_of_lastValue hlast
    rw [Sql.nonEmpty, Option.filter_some, if_pos (decide_eq_true hne)]

def auditTests (rules : List (AuditRule lib)) (dates : DateTime × DateTime) :
    List (Condition Param) :=
  AuditLogAdminView.tests lib ⟨dates, (auditIds rules).getLast?,
    lastValue (auditTexts rules) .actorName, lastValue (auditTexts rules) .resource,
    lastValue (auditTexts rules) .action⟩ none

theorem forall_auditTests (dates : DateTime × DateTime) {P : Condition Param → Prop} :
    (∀ c ∈ auditTests rules dates, P c) ↔
      (P (AuditLogAdminView.fromTest (dateParam dates.1)) ∧
        P (AuditLogAdminView.toTest (dateParam dates.2))) ∧
      (∀ id ∈ (auditIds rules).getLast?, P (AuditLogAdminView.actorIdTest (.uuid id))) ∧
      (∀ v ∈ lastValue (auditTexts rules) .actorName,
        P (AuditLogAdminView.actorNameTest (pattern v))) ∧
      (∀ v ∈ lastValue (auditTexts rules) .resource,
        P (AuditLogAdminView.resourceTest (pattern v))) ∧
      ∀ v ∈ lastValue (auditTexts rules) .action, P (AuditLogAdminView.actionTest (pattern v)) := by
  have hmap {α β : Type} (o : Option α) (g : α → β) (k : β → Condition Param) :
      (∀ c ∈ ((o.map g).map k).toList, P c) ↔ ∀ v ∈ o, P (k (g v)) := by
    cases o <;> simp
  have htests : auditTests rules dates = AuditLogAdminView.filterTests ⟨dates,
      (auditIds rules).getLast?, lastValue (auditTexts rules) .actorName,
      lastValue (auditTexts rules) .resource, lastValue (auditTexts rules) .action⟩ :=
    List.append_nil _
  rw [htests, AuditLogAdminView.filterTests]
  dsimp only
  rw [nonEmpty_lastValue, nonEmpty_lastValue, nonEmpty_lastValue, List.forall_mem_append,
    List.forall_mem_append, List.forall_mem_append, List.forall_mem_append, hmap, hmap, hmap, hmap,
    List.forall_mem_cons, List.forall_mem_singleton]
  simp only [and_assoc]

def LastValuesSent (texts : List (TextRule AuditField)) : Prop :=
  ∀ x, ∀ v ∈ lastValue texts x, PyValue.noNulIn v = true

theorem noNulIn_around (v : String) : PyValue.noNulIn (around v) = PyValue.noNulIn v := by
  simp [PyValue.noNulIn, around, String.toList_append]

theorem sends_auditTests (dates : DateTime × DateTime) :
    (auditTests rules dates).all (fun c => c.comparisons.all sends) = true ↔
      (inYears dates.1.instant = true ∧ inYears dates.2.instant = true) ∧
        LastValuesSent (auditTexts rules) := by
  have hone (column operator cast : String) (v : Param) :
      (Condition.one ⟨column, operator, v, cast⟩).comparisons.all sends =
        sends ⟨column, operator, v, cast⟩ := Bool.and_true _
  have hpattern (column : String) (v : String) :
      sends ⟨column, "ILIKE", pattern v, ""⟩ = PyValue.noNulIn v := noNulIn_around v
  have hname (v : String) : (AuditLogAdminView.actorNameTest (pattern v)).comparisons.all sends =
      PyValue.noNulIn v := by
    have hboth : (AuditLogAdminView.actorNameTest (pattern v)).comparisons.all sends =
      (sends ⟨"u.full_name", "ILIKE", pattern v, ""⟩ &&
        (sends ⟨"u.username", "ILIKE", pattern v, ""⟩ && true)) := rfl
    rw [hboth, hpattern, hpattern, Bool.and_true, Bool.and_self]
  rw [List.all_eq_true, forall_auditTests]
  simp only [hname, AuditLogAdminView.fromTest, AuditLogAdminView.toTest,
    AuditLogAdminView.actorIdTest, AuditLogAdminView.resourceTest, AuditLogAdminView.actionTest,
    hone, hpattern]
  constructor
  · rintro ⟨hdates, -, hactor, hresource, haction⟩
    refine ⟨hdates, fun x => ?_⟩
    cases x with
    | actorName => exact hactor
    | resource => exact hresource
    | action => exact haction
  · exact fun h => ⟨h.1, fun _ _ => rfl, h.2 .actorName, h.2 .resource, h.2 .action⟩

/-- The columns in which a name is looked for, where they are not null. -/
def namesOf (actor : Option Actor) : List String :=
  (actor.bind (·.fullName)).toList ++ (actor.map (·.username)).toList

def FindsActor (f : Folding) (texts : List (TextRule AuditField)) (actor : Option Actor) : Prop :=
  ∀ v ∈ lastValue texts .actorName, ∃ name ∈ namesOf actor, ilike f name (around v) = true

theorem satisfies_auditTests (dates : DateTime × DateTime) (row : AuditRow) :
    Satisfies (auditHolds f) (auditTests rules dates) row ↔
      (dates.1.instant ≤ row.createdAt ∧ row.createdAt ≤ dates.2.instant) ∧
      (∀ id ∈ (auditIds rules).getLast?, row.actorId = id) ∧
      FindsActor f (auditTexts rules) row.actor ∧
      FindsLast f (auditTexts rules) .resource row.resource ∧
      FindsLast f (auditTexts rules) .action row.action := by
  have hfrom : auditHolds f ⟨"a.created_at", ">=", dateParam dates.1, ""⟩ row = true ↔
      dates.1.instant ≤ row.createdAt := decide_eq_true_iff
  have hto : auditHolds f ⟨"a.created_at", "<=", dateParam dates.2, ""⟩ row = true ↔
      row.createdAt ≤ dates.2.instant := decide_eq_true_iff
  have hid (id : ℕ) : auditHolds f ⟨"a.actor_id", "=", .uuid id, "uuid"⟩ row = true ↔
      row.actorId = id := decide_eq_true_iff
  have hresource (v : String) : auditHolds f ⟨"a.resource", "ILIKE", pattern v, ""⟩ row =
      ilike f row.resource (around v) := rfl
  have haction (v : String) : auditHolds f ⟨"a.action", "ILIKE", pattern v, ""⟩ row =
      ilike f row.action (around v) := rfl
  have hname (v : String) : (∃ c ∈ ["u.full_name", "u.username"].map
      (fun column => (⟨column, "ILIKE", pattern v, ""⟩ : Comparison Param)),
        auditHolds f c row = true) ↔ ∃ name ∈ namesOf row.actor, ilike f name (around v) = true := by
    have hfull : auditHolds f ⟨"u.full_name", "ILIKE", pattern v, ""⟩ row =
        (row.actor.bind (·.fullName)).any (fun name => ilike f name (around v)) := rfl
    have huser : auditHolds f ⟨"u.username", "ILIKE", pattern v, ""⟩ row =
        (row.actor.map (·.username)).any (fun name => ilike f name (around v)) := rfl
    simp [hfull, huser, namesOf, or_and_right, exists_or, Option.any_eq_true]
  rw [Satisfies, forall_auditTests]
  dsimp only [AuditLogAdminView.fromTest, AuditLogAdminView.toTest,
    AuditLogAdminView.actorIdTest, AuditLogAdminView.resourceTest, AuditLogAdminView.actionTest,
    AuditLogAdminView.actorNameTest, Condition.anyColumn]
  simp only [hfrom, hto, hid, hresource, haction, hname]
  rfl

/-! ## Ids and names -/

def SameIds (ids : List ℕ) : Prop := ∀ v ∈ ids, ∀ w ∈ ids, v = w

theorem lastId_iff {ids : List ℕ} :
    (∀ id, (∀ v ∈ ids.getLast?, id = v) ↔ ∀ v ∈ ids, id = v) ↔ SameIds ids := by
  constructor
  · intro h v hv w hw
    have hlast := List.getLast?_eq_some_getLast (List.ne_nil_of_mem hv)
    have hall := (h (ids.getLast (List.ne_nil_of_mem hv))).mp
      (fun l hl => Option.some.inj (hlast.symm.trans hl))
    exact (hall v hv).symm.trans (hall w hw)
  · intro h id
    refine ⟨fun hlast v hv => ?_, fun hall v hv => hall v (List.mem_of_getLast? hv)⟩
    have hmem := List.getLast?_eq_some_getLast (List.ne_nil_of_mem hv)
    exact (hlast _ hmem).trans (h _ (List.getLast_mem _) v hv)

theorem noId_iff {ids : List ℕ} : (∀ id, ¬ ∀ v ∈ ids, id = v) ↔ ¬ SameIds ids := by
  constructor
  · intro h hsame
    by_cases hids : ids = []
    · exact h 0 (by simp [hids])
    · exact h (ids.head hids) (fun v hv => hsame _ (List.head_mem hids) v hv)
  · exact fun h id hall => h (fun v hv w hw => (hall v hv).symm.trans (hall w hw))

def NamesUnasked (texts : List (TextRule AuditField)) : Prop :=
  ∀ r ∈ texts, r.field = .actorName → r.operator = .contains ∧ r.value = ""

theorem displayName_fullName {name : String} (hname : name ≠ "") (username : String) :
    displayName (some ⟨some name, username⟩) = name := by
  rw [displayName, Sql.nonEmpty, Option.filter_some, if_pos (decide_eq_true hname),
    Option.getD_some]

/-- A text that is found in a username is found for any full name. -/
theorem not_asked_of_lastName {texts : List (TextRule AuditField)} {v : String}
    (hlast : v ∈ lastValue texts .actorName)
    (h : ∀ actor, FindsActor f texts actor → Asked f texts .actorName (displayName actor)) :
    False := by
  obtain ⟨username, hfound⟩ := exists_ilike_around (f := f) v
  obtain ⟨r, hr, hx, hvalue, hne⟩ := mem_of_lastValue hlast
  have hholds (name : String) (hname : name ≠ "") : r.operator.Holds f name v := by
    have hfinds : FindsActor f texts (some ⟨some name, username⟩) := by
      intro w hw
      refine ⟨username, by simp [namesOf], ?_⟩
      rwa [← Option.some.inj (hlast.symm.trans hw)]
    have hasked := h _ hfinds r hr hx
    rwa [displayName_fullName hname, hvalue] at hasked
  have ha := hholds "a" (by decide)
  have hb := hholds "b" (by decide)
  cases hoperator : r.operator with
  | equals =>
    rw [hoperator] at ha hb
    have hequal : "a" = "b" := Eq.trans ha (Eq.symm hb)
    exact absurd hequal (by decide)
  | contains =>
    rw [hoperator] at ha hb
    obtain ⟨c, cs, hchars⟩ := List.exists_cons_of_ne_nil
      (fun hnil => hne (String.toList_eq_nil_iff.mp hnil) : v.toList ≠ [])
    have hfold {d : Char} (hd : Contains f (String.ofList [d]) v) : f.fold c = f.fold d := by
      rw [Contains, String.toList_ofList, hchars] at hd
      exact List.mem_singleton.mp (hd.subset List.mem_cons_self)
    have hsame := (hfold (d := 'a') ha).symm.trans (hfold (d := 'b') hb)
    exact fold_ne (by decide) (by decide) (by decide) hsame

theorem namesUnasked_iff {texts : List (TextRule AuditField)} :
    (∀ actor, FindsActor f texts actor ↔ Asked f texts .actorName (displayName actor)) ↔
      NamesUnasked texts := by
  constructor
  · intro h r hr hx
    have hlast : lastValue texts .actorName = none := by
      by_contra hsome
      obtain ⟨v, hv⟩ := Option.ne_none_iff_exists'.mp hsome
      exact not_asked_of_lastName hv (fun actor => (h actor).mp)
    have hempty := eq_empty_of_lastValue hlast hr hx
    refine ⟨?_, hempty⟩
    have hunknown := (h none).mp (fun v hv => absurd (hlast.symm.trans hv) (by simp)) r hr hx
    rw [hempty] at hunknown
    cases hoperator : r.operator with
    | contains => rfl
    | equals =>
      rw [hoperator] at hunknown
      exact absurd hunknown (by decide : displayName none ≠ "")
  · intro h actor
    refine iff_of_true (fun v hv => ?_) (fun r hr hx => ?_)
    · obtain ⟨r, hr, hx, hvalue, hne⟩ := mem_of_lastValue hv
      exact absurd (hvalue.symm.trans (h r hr hx).2) hne
    · rw [(h r hr hx).1, (h r hr hx).2]
      exact contains_empty _

theorem exists_findsActor (texts : List (TextRule AuditField)) :
    ∃ actor, FindsActor f texts actor := by
  cases hlast : lastValue texts .actorName with
  | none => exact ⟨none, fun v hv => absurd (hlast.symm.trans hv) (by simp)⟩
  | some v =>
    obtain ⟨username, hfound⟩ := exists_ilike_around (f := f) v
    refine ⟨some ⟨none, username⟩, fun w hw => ⟨username, by simp [namesOf], ?_⟩⟩
    rwa [← Option.some.inj (hlast.symm.trans hw)]

theorem noActor_iff {texts : List (TextRule AuditField)} :
    (∀ actor, ¬ Asked f texts .actorName (displayName actor)) ↔
      Contradictory f texts .actorName := by
  rw [← not_asked_iff]
  exact ⟨fun h text => h (some ⟨none, text⟩), fun h actor => h _⟩

/-! ## When the rules mean what they say -/

inductive AuditPart
  | actorId
  | actorName
  | resource
  | action
  deriving DecidableEq

def AuditPart.Value : AuditPart → Type
  | actorId => ℕ
  | actorName => Option Actor
  | resource => String
  | action => String

def AuditRow.part (row : AuditRow) : ∀ i : AuditPart, i.Value
  | .actorId => row.actorId
  | .actorName => row.actor
  | .resource => row.resource
  | .action => row.action

variable (f now rules)

def FoundPart : ∀ i : AuditPart, i.Value → Prop
  | .actorId, (id : ℕ) => ∀ v ∈ (auditIds rules).getLast?, id = v
  | .actorName, (actor : Option Actor) => FindsActor f (auditTexts rules) actor
  | .resource, (text : String) => FindsLast f (auditTexts rules) .resource text
  | .action, (text : String) => FindsLast f (auditTexts rules) .action text

def AskedPart : ∀ i : AuditPart, i.Value → Prop
  | .actorId, (id : ℕ) => ∀ v ∈ auditIds rules, id = v
  | .actorName, (actor : Option Actor) => Asked f (auditTexts rules) .actorName (displayName actor)
  | .resource, (text : String) => Asked f (auditTexts rules) .resource text
  | .action, (text : String) => Asked f (auditTexts rules) .action text

def LastStands : AuditPart → Prop
  | .actorId => SameIds (auditIds rules)
  | .actorName => NamesUnasked (auditTexts rules)
  | .resource => LastCovers f (auditTexts rules) .resource
  | .action => LastCovers f (auditTexts rules) .action

def Unsatisfiable : AuditPart → Prop
  | .actorId => ¬ SameIds (auditIds rules)
  | .actorName => Contradictory f (auditTexts rules) .actorName
  | .resource => Contradictory f (auditTexts rules) .resource
  | .action => Contradictory f (auditTexts rules) .action

/-- The query admits the rows that satisfy the rules, whatever the tables hold. -/
def AuditShows : Prop :=
  ∀ (t : AuditTables) (limit skip : ℤ), ∃ found,
    admitted (t.joined.server AuditLogAdminView.listing (auditHolds f))
      (AuditLogAdminView.buildFilterQuery lib now (some (rules.map AuditRule.toItem)) limit skip
        none) = some found ∧
    found.Perm (t.joined.rows.filter (AuditMeets f now rules))

/-- The last bounds are the strictest and the last values stand for the rules, or the query admits
nothing and no row satisfies the rules. -/
def AuditRulesKept : Prop :=
  (LastStrictest (starts (auditDates rules)) (ends (auditDates rules)) ∧
    ∀ i, LastStands f rules i) ∨
  (LastCrossed (starts (auditDates rules)) (ends (auditDates rules)) now.instant ∧
    (Crossed (starts (auditDates rules)) (ends (auditDates rules)) now.instant ∨
      ∃ i, Unsatisfiable f rules i))

variable {f now rules}

theorem exists_foundPart (i : AuditPart) : ∃ v, FoundPart f rules i v := by
  cases i with
  | actorId =>
    refine ⟨((auditIds rules).getLast?.getD 0 : ℕ), fun v hv => ?_⟩
    rw [Option.mem_def.mp hv, Option.getD_some]
  | actorName => exact exists_findsActor _
  | resource =>
    obtain ⟨text, htext, -⟩ := exists_findsLast_ne f (auditTexts rules) .resource ""
    exact ⟨text, htext⟩
  | action =>
    obtain ⟨text, htext, -⟩ := exists_findsLast_ne f (auditTexts rules) .action ""
    exact ⟨text, htext⟩

theorem part_agree_iff (i : AuditPart) :
    (∀ v, FoundPart f rules i v ↔ AskedPart f rules i v) ↔ LastStands f rules i := by
  cases i with
  | actorId => exact lastId_iff
  | actorName => exact namesUnasked_iff
  | resource => exact findsLast_agree_iff
  | action => exact findsLast_agree_iff

theorem part_unsatisfiable_iff (i : AuditPart) :
    (∀ v, ¬ AskedPart f rules i v) ↔ Unsatisfiable f rules i := by
  cases i with
  | actorId => exact noId_iff
  | actorName => exact noActor_iff
  | resource => exact not_asked_iff
  | action => exact not_asked_iff

theorem forall_auditRow {P : ℤ → (∀ i : AuditPart, i.Value) → Prop} :
    (∀ row : AuditRow, P row.createdAt row.part) ↔ ∀ t x, P t x := by
  refine ⟨fun h t x => ?_, fun h row => h _ _⟩
  have hrow := h ⟨x .actorId, x .actorName, x .resource, x .action, t⟩
  have hpart : AuditRow.part ⟨x .actorId, x .actorName, x .resource, x .action, t⟩ = x := by
    funext i
    cases i <;> rfl
  rwa [hpart] at hrow

theorem forall_auditPart {P : AuditPart → Prop} :
    (∀ i, P i) ↔ P .actorId ∧ P .actorName ∧ P .resource ∧ P .action := by
  refine ⟨fun h => ⟨h _, h _, h _, h _⟩, ?_⟩
  rintro ⟨hid, hname, hresource, haction⟩ i
  cases i with
  | actorId => exact hid
  | actorName => exact hname
  | resource => exact hresource
  | action => exact haction

theorem forall_auditField {P : AuditField → Prop} :
    (∀ x, P x) ↔ P .actorName ∧ P .resource ∧ P .action := by
  refine ⟨fun h => ⟨h _, h _, h _⟩, ?_⟩
  rintro ⟨hname, hresource, haction⟩ x
  cases x with
  | actorName => exact hname
  | resource => exact hresource
  | action => exact haction

/-- The query that is built agrees with the rules on every row. -/
theorem auditRulesKept_iff {dates : DateTime × DateTime}
    (hfrom : dates.1.instant = lastStart (starts (auditDates rules)) (ends (auditDates rules))
      now.instant thirtyDays)
    (hto : dates.2.instant = lastEnd (ends (auditDates rules)) now.instant) :
    (∀ row, Satisfies (auditHolds f) (auditTests rules dates) row ↔ AuditMeets f now rules row) ↔
      AuditRulesKept f now rules := by
  have hwidth : 0 ≤ thirtyDays := Int.natCast_nonneg _
  have hfound (i : AuditPart) : ¬ ∀ v, ¬ FoundPart f rules i v :=
    fun h => (exists_foundPart i).elim h
  have hparts : (∀ (t : ℤ) (x : ∀ i : AuditPart, i.Value),
      (InLastWindow (starts (auditDates rules)) (ends (auditDates rules)) now.instant thirtyDays
        t ∧ ∀ i, FoundPart f rules i (x i)) ↔
      (InWindow (starts (auditDates rules)) (ends (auditDates rules)) now.instant thirtyDays
        t ∧ ∀ i, AskedPart f rules i (x i))) ↔ _ :=
    forall_first_iff_of_agree lastWindow_iff (fun i => (part_agree_iff i).trans
      (or_iff_left (fun h => hfound i h.1)).symm)
  have hrows := forall_auditRow.trans hparts
  simp only [inLastWindow_empty hwidth, inWindow_empty hwidth, part_unsatisfiable_iff, hfound,
    exists_false, or_false] at hrows
  rw [AuditRulesKept, ← hrows]
  refine forall_congr' (fun row => ?_)
  rw [satisfies_auditTests, auditMeets_iff, forall_auditField, forall_auditPart, forall_auditPart,
    hfrom, hto]
  exact Iff.rfl

theorem auditShows_iff_run {dates : DateTime × DateTime}
    (hasked : auditAsked lib now (some (rules.map AuditRule.toItem)) none =
      .ok (auditTests rules dates)) :
    AuditShows f now rules ↔
      (auditTests rules dates).all (fun c => c.comparisons.all sends) = true ∧
        ∀ row, Satisfies (auditHolds f) (auditTests rules dates) row ↔ AuditMeets f now rules row := by
  have hadmitted (t : AuditTables) (limit skip : ℤ) := admitted_of_aligned
    (audit_aligned lib now (some (rules.map AuditRule.toItem)) none)
    (t.joined.server AuditLogAdminView.listing (auditHolds f)) limit skip
  simp only [AuditShows, hadmitted, hasked]
  rw [← run_iff AuditTables.joined (fun row => ?_)
    ⟨⟨[], fun _ => none, fun _ rows => rows, fun _ _ => List.Perm.refl _⟩⟩]
  · exact ⟨fun h t => h t 0 0, fun h t _ _ => h t⟩
  · exact ⟨⟨[⟨row.actorId, row.resource, row.action, row.createdAt⟩], fun _ => row.actor,
      fun _ rows => rows, fun _ _ => List.Perm.refl _⟩, rfl⟩

theorem auditShows_iff : AuditShows f now rules ↔
    WindowSent (auditDates rules) now ∧ LastValuesSent (auditTexts rules) ∧
      AuditRulesKept f now rules := by
  by_cases hwindow : Representable (auditDates rules) now
  · obtain ⟨from_, to_, hextracted, hfrom, hto⟩ := window_ok hwindow
    have hasked : auditAsked lib now (some (rules.map AuditRule.toItem)) none =
        .ok (auditTests rules (from_, to_)) := by
      rw [auditAsked, extractQueryFilters_rules, hextracted]
      rfl
    rw [auditShows_iff_run hasked, sends_auditTests, auditRulesKept_iff hfrom hto, hfrom, hto]
    constructor
    · rintro ⟨⟨⟨hstart, hend⟩, hvalues⟩, hkept⟩
      exact ⟨⟨hwindow, hstart, hend⟩, hvalues, hkept⟩
    · rintro ⟨hsent, hvalues, hkept⟩
      exact ⟨⟨⟨hsent.start, hsent.finish⟩, hvalues⟩, hkept⟩
  · refine iff_of_false (fun h => ?_) (fun h => hwindow h.1.representable)
    obtain ⟨found, hfound, -⟩ := h
      ⟨[], fun _ => none, fun _ rows => rows, fun _ _ => List.Perm.refl _⟩ 0 0
    rw [AuditLogAdminView.buildFilterQuery, extractQueryFilters_rules, window_error hwindow] at hfound
    cases hfound

end audit

/-! ## Both views -/

/-- Each view admits the rows that satisfy every rule by its own operator, whatever its tables hold,
exactly when the values are sent and the rules are kept. -/
theorem logFilters_iff {lib : Library} (f : Folding) (now : DateTime)
    (webhookRules : List (WebhookRule lib)) (auditRules : List (AuditRule lib)) :
    (WebhookShows f now webhookRules ↔
      WindowSent (webhookDates webhookRules) now ∧ ValuesSent (webhookTexts webhookRules) ∧
        WebhookRulesKept f now webhookRules) ∧
    (AuditShows f now auditRules ↔
      WindowSent (auditDates auditRules) now ∧ LastValuesSent (auditTexts auditRules) ∧
        AuditRulesKept f now auditRules) :=
  ⟨webhookShows_iff, auditShows_iff⟩

section counterexample

def asciiCase : Folding := ⟨Char.toLower, fun _ _ _ _ h => h⟩

def noLibrary : Library := ⟨fun _ => none, fun _ => none, fun _ => ""⟩

def noon : DateTime := ⟨739616 * dayLength + 43200000000, some 0⟩

def userCreated : WebhookLog := ⟨"outbound", "success", "users", "user.created", noon.instant⟩

def usersLog : AuditRow := ⟨1, none, "users", "UPDATE", noon.instant⟩

def webhookTable : LogRows WebhookLog := ⟨[userCreated], fun _ rows => rows, fun _ _ => .refl _⟩

def auditTables : AuditTables :=
  ⟨[⟨1, "users", "UPDATE", noon.instant⟩], fun _ => none, fun _ rows => rows, fun _ _ => .refl _⟩

def containsUser : WebhookRule noLibrary := .text ⟨.eventName, .contains, "user"⟩

def equalsUser : AuditRule noLibrary := .text ⟨.resource, .equals, "user"⟩

/-- A webhook log that contains the text of its rule is left out, and an audit log that does not equal
the text of its rule is admitted. -/
theorem user_misread :
    (WebhookMeets asciiCase noon [containsUser] userCreated ∧
      admitted (webhookTable.server WebhookLogAdminView.listing (webhookHolds asciiCase))
        (WebhookLogAdminView.buildFilterQuery noLibrary noon (some [containsUser.toItem]) 10 0 none) =
          some []) ∧
    ¬ AuditMeets asciiCase noon [equalsUser] usersLog ∧
      admitted (auditTables.joined.server AuditLogAdminView.listing (auditHolds asciiCase))
        (AuditLogAdminView.buildFilterQuery noLibrary noon (some [equalsUser.toItem]) 10 0 none) =
          some [usersLog] := by
  refine ⟨⟨by decide, ?_⟩, by decide, ?_⟩
  · rw [admitted_of_aligned (webhook_aligned noLibrary noon (some [containsUser.toItem]) none)]
    decide
  · rw [admitted_of_aligned (audit_aligned noLibrary noon (some [equalsUser.toItem]) none)]
    decide

end counterexample
end FastapiTemplate.AdminFilters
