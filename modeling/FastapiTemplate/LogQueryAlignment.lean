import FastapiTemplate.LogAdminViews

/-!
# The conditions of the log queries

Every condition of a log view keeps the value that was appended for it, in the query for a page as
in the count query that is cut out of its text. So the total is the number of rows without paging.
-/

namespace FastapiTemplate.AdminFilters

open SelectTexts

/-! ## Webhook logs -/

namespace WebhookLogAdminView

def equalTest (field : String) (v : Param) : Condition Param := .one ⟨field, "=", v, ""⟩

def ruleTest : FilterItem → Option (Condition Param)
  | .group => none
  | .rule rule =>
    if rule.field ∈ equalFields ∧ rule.value.truthy = true then
      some (equalTest rule.field (.value rule.value))
    else none

def fromTest (v : Param) : Condition Param := .one ⟨"created_at", ">=", v, ""⟩

def toTest (v : Param) : Condition Param := .one ⟨"created_at", "<=", v, ""⟩

def searchTest (v : Param) : Condition Param :=
  .anyColumn ["event_name", "source", "url", "error_message"] "ILIKE" v

def datesTests (dates : DateTime × DateTime) : List (Condition Param) :=
  [fromTest (dateParam dates.1), toTest (dateParam dates.2)]

def tests (filters : Option FilterGroup) (dates : DateTime × DateTime) (q : Option String) :
    List (Condition Param) :=
  [.always] ++ (rulesOf filters).filterMap ruleTest ++ datesTests dates ++
    (((searchText q).map pattern).map searchTest).toList

def listing : Listing where
  columns := ["*"]
  source := ["webhook_logs"]
  order := ["created_at", "DESC"]
  before := "SELECT * FROM webhook_logs "
  gap := ""
  ordering := " created_at DESC LIMIT"
  countHead := "SELECT COUNT(*) FROM webhook_logs WHERE"

theorem listing_formed : listing.Formed where
  head_words := by decide
  order_words := by decide
  count_words := by decide
  columns := by decide
  source := by decide
  order := by decide
  before := by decide
  gap := List.all_eq_true.mp (by decide)

variable {c : Parts Param} {bound : List (Condition Param)}

theorem equalTest_test {field : String} (hfield : field ∈ equalFields) :
    Test (equalTest field) (fun p => field ++ " = " ++ p) := by
  have hname : ∀ field ∈ equalFields, IsName field := by decide
  refine test_one (hname field hfield) (by decide) rfl (fun n => ?_)
  simp [placeholder, ← String.toList_inj, String.toList_append]

theorem addRule_means (h : c.Means bound) (item : FilterItem) :
    (addRule c item).Means (bound ++ (ruleTest item).toList) := by
  cases item with
  | group =>
    rw [addRule, ruleTest, Option.toList_none, List.append_nil]
    exact h
  | rule rule =>
    rw [addRule, ruleTest]
    split_ifs with hrule
    · exact h.push (equalTest_test hrule.1) _
    · rw [Option.toList_none, List.append_nil]
      exact h

theorem foldl_addRule_means (rules : FilterGroup) (h : c.Means bound) :
    (rules.foldl addRule c).Means (bound ++ rules.filterMap ruleTest) := by
  induction rules generalizing c bound with
  | nil =>
    rw [List.foldl_nil, List.filterMap_nil, List.append_nil]
    exact h
  | cons item rules ih =>
    have hnext := ih (addRule_means h item)
    have htests : (item :: rules).filterMap ruleTest =
        (ruleTest item).toList ++ rules.filterMap ruleTest := by
      rw [List.filterMap_cons]
      cases ruleTest item <;> rfl
    rw [List.foldl_cons, htests, ← List.append_assoc]
    exact hnext

theorem addDates_means (h : c.Means bound) (dates : DateTime × DateTime) :
    (addDates c dates).Means (bound ++ datesTests dates) := by
  have hfrom : Test fromTest (fun p => "created_at >= " ++ p) :=
    test_one (by decide) (by decide) rfl (fun _ => rfl)
  have hto : Test toTest (fun p => "created_at <= " ++ p) :=
    test_one (by decide) (by decide) rfl (fun _ => rfl)
  have hpair := h.pushPair hfrom hto (dateParam dates.1) (dateParam dates.2)
  have hlength : (c.params ++ [dateParam dates.1, dateParam dates.2]).length =
      c.params.length + 2 := by
    rw [List.length_append]
    rfl
  have htext (n : ℕ) : "created_at >= $" ++ toString (n + 1) ++ " AND created_at <= $" ++
      toString (n + 2) = "created_at >= " ++ ("$" ++ toString (n + 1)) ++ " AND " ++
        ("created_at <= " ++ ("$" ++ toString (n + 2))) := by
    simp [← String.toList_inj, String.toList_append]
  rw [addDates, hlength, Nat.add_sub_assoc (by decide), htext]
  exact hpair

theorem addSearch_means (h : c.Means bound) (q : Option String) :
    (addSearch c q).Means (bound ++ (((searchText q).map pattern).map searchTest).toList) := by
  refine h.pushIf (test_anyColumn (by decide) (by decide) (List.cons_ne_nil _ _) (fun n => ?_)) _
  simp [← String.toList_inj, String.toList_append]

theorem conditions_means (filters : Option FilterGroup) (dates : DateTime × DateTime)
    (q : Option String) : (conditions filters dates q).Means (tests filters dates q) :=
  addSearch_means (addDates_means (foldl_addRule_means _ Parts.means_always) dates) q

theorem tests_inClause (filters : Option FilterGroup) (dates : DateTime × DateTime)
    (q : Option String) : ∀ b ∈ tests filters dates q, ∀ name ∈ b.names,
      name.toList.all inClause = true := by
  intro b hb
  simp only [tests, datesTests, List.mem_append, List.mem_filterMap, List.mem_cons,
    List.not_mem_nil, or_false, Option.mem_toList, Option.map_map,
    Option.map_eq_some_iff] at hb
  rcases hb with ((rfl | ⟨item, -, hitem⟩) | rfl | rfl) | ⟨s, -, rfl⟩
  · exact fun name hname => absurd hname (List.not_mem_nil)
  · cases item with
    | group => cases hitem
    | rule rule =>
      rw [ruleTest] at hitem
      split_ifs at hitem with hrule
      · have hnames : ∀ field ∈ equalFields, ∀ name ∈ [field, "=", ""],
            name.toList.all inClause = true := by decide
        rw [← Option.some.inj hitem]
        exact hnames rule.field hrule.1
  · exact (by decide : ∀ name ∈ ["created_at", ">=", ""], name.toList.all inClause = true)
  · exact (by decide : ∀ name ∈ ["created_at", "<=", ""], name.toList.all inClause = true)
  · exact (by decide : ∀ name ∈ ["event_name", "ILIKE", "", "source", "ILIKE", "", "url", "ILIKE",
      "", "error_message", "ILIKE", ""], name.toList.all inClause = true)

end WebhookLogAdminView

/-! ## Audit logs -/

namespace AuditLogAdminView

def fromTest (v : Param) : Condition Param := .one ⟨"a.created_at", ">=", v, ""⟩

def toTest (v : Param) : Condition Param := .one ⟨"a.created_at", "<=", v, ""⟩

def actorIdTest (v : Param) : Condition Param := .one ⟨"a.actor_id", "=", v, "uuid"⟩

def actorNameTest (v : Param) : Condition Param :=
  .anyColumn ["u.full_name", "u.username"] "ILIKE" v

def resourceTest (v : Param) : Condition Param := .one ⟨"a.resource", "ILIKE", v, ""⟩

def actionTest (v : Param) : Condition Param := .one ⟨"a.action", "ILIKE", v, ""⟩

def patternComparisons (v : Param) : List (Comparison Param) :=
  searchColumns.map (fun column => ⟨column, "ILIKE", v, ""⟩)

def idComparisons (v : Param) : List (Comparison Param) :=
  [⟨"a.id", "=", v, "uuid"⟩, ⟨"a.actor_id", "=", v, "uuid"⟩]

/-- A text that is an id is searched in the ids too. -/
def searchTest (lib : Library) (searchStr : String) : Condition Param :=
  .any (patternComparisons (pattern searchStr) ++
    (lib.uuid searchStr).elim [] (fun id => idComparisons (.uuid id)))

def filterTests (f : AuditLogQueryFilters) : List (Condition Param) :=
  [fromTest (dateParam f.dates.1), toTest (dateParam f.dates.2)] ++
    ((f.actorId.map .uuid).map actorIdTest).toList ++
    (((Sql.nonEmpty f.actorName).map pattern).map actorNameTest).toList ++
    (((Sql.nonEmpty f.resource).map pattern).map resourceTest).toList ++
    (((Sql.nonEmpty f.action).map pattern).map actionTest).toList

def tests (lib : Library) (f : AuditLogQueryFilters) (q : Option String) : List (Condition Param) :=
  filterTests f ++ ((searchText q).map (searchTest lib)).toList

def listing : Listing where
  columns := ["a.id", ",", "a.actor_id", ",", "COALESCE", "(", "NULLIF", "(", "u.full_name", ",",
    "''", ")", ",", "u.username", ",", "'Unknown'", ")", "AS", "actor_name", ",", "u.username", "AS",
    "actor_username", ",", "u.email", "AS", "actor_email", ",", "a.action", ",", "a.resource", ",",
    "a.resource_id", ",", "a.details", ",", "a.ip_address", ",", "a.created_at"]
  source := ["audit_logs", "a", "LEFT", "JOIN", "users", "u", "ON", "a.actor_id", "=", "u.id"]
  order := ["a.created_at", "DESC"]
  before := indented (headLines ++ [(16, "")])
  gap := indented [(16, "")]
  ordering := " a.created_at DESC LIMIT"
  countHead := "SELECT COUNT(*) FROM audit_logs a LEFT JOIN users u ON a.actor_id = u.id WHERE"

theorem indented_append (lines more : List (ℕ × String)) :
    indented (lines ++ more) = indented lines ++ indented more := by
  induction lines with
  | nil => simp [indented]
  | cons line lines ih =>
    rw [List.cons_append, indented, indented, ih]
    simp only [String.append_assoc]

theorem words_gap (n : ℕ) (text : String) :
    words ("\n" ++ String.ofList (List.replicate n ' ') ++ text) = words text := by
  have hspaces : wordsFrom [] (List.replicate n ' ' ++ text.toList) = words text := by
    induction n with
    | zero => rfl
    | succ n ih => exact ih
  have hchars : ("\n" ++ String.ofList (List.replicate n ' ') ++ text).toList =
      '\n' :: (List.replicate n ' ' ++ text.toList) := by
    simp [String.toList_append]
  rw [words, hchars]
  exact hspaces

theorem words_indented (lines : List (ℕ × String)) :
    words (indented lines) = lines.flatMap (fun line => words line.2) := by
  have hlines (text : String) (lines : List (ℕ × String)) :
      words (text ++ indented lines) = words text ++ words (indented lines) := by
    cases lines with
    | nil => exact (congrArg words String.append_empty).trans (List.append_nil _).symm
    | cons line lines =>
      have hchars : (text ++ indented (line :: lines)).toList =
          text.toList ++ '\n' :: (List.replicate line.1 ' ' ++ line.2.toList ++
            (indented lines).toList) := by
        simp [indented, String.toList_append]
      have hrest : (indented (line :: lines)).toList =
          [] ++ '\n' :: (List.replicate line.1 ' ' ++ line.2.toList ++ (indented lines).toList) := by
        simp [indented, String.toList_append]
      rw [words, hchars, wordsFrom_append_space [] _ _ rfl, words, words, hrest,
        wordsFrom_append_space [] [] _ rfl]
      rfl
  induction lines with
  | nil => rfl
  | cons line lines ih =>
    rw [indented, String.append_assoc, words_gap, hlines, ih, List.flatMap_cons]

theorem notMem_indented {lines : List (ℕ × String)} {c : Char} (hbreak : c ≠ '\n') (hspace : c ≠ ' ')
    (hlines : ∀ line ∈ lines, c ∉ line.2.toList) : c ∉ (indented lines).toList := by
  induction lines with
  | nil => simp [indented]
  | cons line lines ih =>
    obtain ⟨hline, hrest⟩ := List.forall_mem_cons.mp hlines
    simp [indented, String.toList_append, hbreak, hspace, hline, ih hrest]

theorem head_listing : listing.head = pageHead := by
  have hwhere : indented [(16, "")] ++ ("WHERE" ++ indented [(16, "")]) =
      indented [(16, "WHERE"), (16, "")] := by decide
  rw [Listing.head, listing, pageHead, indented_append, indented_append, String.append_assoc, hwhere]

theorem listing_formed : listing.Formed where
  head_words := by
    rw [head_listing, pageHead, words_indented]
    decide +kernel
  order_words := by decide
  count_words := by decide +kernel
  columns := by decide +kernel
  source := by decide
  order := by decide
  before := by
    apply notMem_indented (by decide) (by decide)
    decide +kernel
  gap := List.all_eq_true.mp (by decide)

variable {c : Parts Param} {bound : List (Condition Param)}

theorem dates_means (x y : Param) :
    (Parts.mk ["a.created_at >= $1", "a.created_at <= $2"] [x, y]).Means [fromTest x, toTest y] := by
  have hfrom : Test fromTest (fun p => "a.created_at >= " ++ p) :=
    test_one (by decide) (by decide) rfl (fun _ => rfl)
  have hto : Test toTest (fun p => "a.created_at <= " ++ p) :=
    test_one (by decide) (by decide) rfl (fun _ => rfl)
  have hfirst : Numbered [(fromTest x).numbered 1] [x] [fromTest x] :=
    Numbered.nil.push (hfrom.formed x) (hfrom.value x) (hfrom.nonempty x)
  have hboth : Numbered [(fromTest x).numbered 1, (toTest y).numbered 2] [x, y]
      [fromTest x, toTest y] := hfirst.push (hto.formed y) (hto.value y) (hto.nonempty y)
  have htexts : [(fromTest x).numbered 1, (toTest y).numbered 2].map Condition.text =
      ["a.created_at >= $1", "a.created_at <= $2"] := by
    rw [List.map_cons, List.map_cons, ← hfrom.text x 1, ← hto.text y 2]
    decide
  refine ⟨_, hboth, List.cons_ne_nil _ _, List.cons_ne_nil _ _, ?_⟩
  rw [htexts, Parts.where_]

theorem filterParts_means (f : AuditLogQueryFilters) : (filterParts f).Means (filterTests f) := by
  have hactorId : Test actorIdTest (fun p => "a.actor_id = " ++ p ++ "::uuid") := by
    refine test_one (by decide) (by decide) (by decide) (fun n => ?_)
    simp [placeholder, ← String.toList_inj, String.toList_append]
  have hactorName : Test actorNameTest
      (fun p => "(u.full_name ILIKE " ++ p ++ " OR u.username ILIKE " ++ p ++ ")") := by
    refine test_anyColumn (by decide) (by decide) (List.cons_ne_nil _ _) (fun n => ?_)
    simp [← String.toList_inj, String.toList_append]
  have hresource : Test resourceTest (fun p => "a.resource ILIKE " ++ p) :=
    test_one (by decide) (by decide) rfl (fun _ => rfl)
  have haction : Test actionTest (fun p => "a.action ILIKE " ++ p) :=
    test_one (by decide) (by decide) rfl (fun _ => rfl)
  exact ((((dates_means _ _).pushIf hactorId _).pushIf hactorName _).pushIf hresource _).pushIf
    haction _

theorem text_numbered (column operator cast : String) (v : Param) (n : ℕ) :
    ((⟨column, operator, v, cast⟩ : Comparison Param).numbered n).text =
      column ++ " " ++ operator ++ " " ++ placeholder n cast := rfl

theorem buildSearchClause_text {lib : Library} {s : String} (hid : lib.uuid s = none)
    (params : List Param) : buildSearchClause lib params s =
      ("(" ++ " OR ".intercalate (searchColumns.map
        (fun column => column ++ " ILIKE $" ++ toString (params.length + 1))) ++ ")",
        params ++ [pattern s]) := by
  simp only [buildSearchClause, hid, List.length_append, List.length_singleton]

theorem buildSearchClause_id {lib : Library} {s : String} {id : ℕ} (hid : lib.uuid s = some id)
    (params : List Param) : buildSearchClause lib params s =
      ("(" ++ " OR ".intercalate (searchColumns.map
        (fun column => column ++ " ILIKE $" ++ toString (params.length + 1)) ++
          ["a.id = $" ++ toString (params.length + 2) ++ "::uuid",
            "a.actor_id = $" ++ toString (params.length + 2) ++ "::uuid"]) ++ ")",
        params ++ [pattern s, .uuid id]) := by
  have hlength : (params ++ [pattern s] ++ [Param.uuid id]).length = params.length + 2 := by simp
  unfold buildSearchClause
  simp only [hid]
  rw [hlength, List.length_append, List.append_assoc]
  rfl

theorem idComparisons_formed (id : ℕ) :
    ∀ d ∈ idComparisons (.uuid id), d.Formed ∧ d.value = .uuid id := by
  have hnames : IsName "a.id" ∧ IsName "a.actor_id" ∧ IsName "=" := by decide
  have hcast : "uuid".toList.all isPlain = true := by decide
  intro d hd
  simp only [idComparisons, List.mem_cons, List.not_mem_nil, or_false] at hd
  rcases hd with rfl | rfl
  · exact ⟨⟨hnames.1, hnames.2.2, hcast⟩, rfl⟩
  · exact ⟨⟨hnames.2.1, hnames.2.2, hcast⟩, rfl⟩

theorem patternComparisons_formed (v : Param) :
    ∀ d ∈ patternComparisons v, d.Formed ∧ d.value = v := by
  have hcolumns : ∀ column ∈ searchColumns, IsName column := by decide
  intro d hd
  obtain ⟨column, hcolumn, rfl⟩ := List.mem_map.mp hd
  exact ⟨⟨hcolumns column hcolumn, (by decide : IsName "ILIKE"), rfl⟩, rfl⟩

theorem addSearch_means (lib : Library) (h : c.Means bound) (q : Option String) :
    (addSearch lib c q).Means (bound ++ ((searchText q).map (searchTest lib)).toList) := by
  rw [addSearch]
  cases searchText q with
  | none =>
    rw [Option.map_none, Option.toList_none, List.append_nil]
    exact h
  | some s =>
    have hcolumn (column : String) (n : ℕ) : column ++ " ILIKE " ++ ("$" ++ toString n) =
        column ++ " ILIKE $" ++ toString n := by
      simp [← String.toList_inj, String.toList_append]
    rw [Option.map_some, Option.toList_some, searchTest]
    dsimp only
    cases hid : lib.uuid s with
    | none =>
      have htest : Test (fun v => .any (patternComparisons v)) (fun p => "(" ++ " OR ".intercalate
          (searchColumns.map (fun column => column ++ " ILIKE " ++ p)) ++ ")") := by
        refine test_anyColumn (by decide) (by decide) (List.cons_ne_nil _ _) (fun n => ?_)
        have hoperator (column : String) : column ++ " " ++ "ILIKE" ++ " $" ++ toString n =
            column ++ " ILIKE " ++ ("$" ++ toString n) := by
          simp [← String.toList_inj, String.toList_append]
        simp only [hoperator]
      have hpushed := h.push htest (pattern s)
      rw [Parts.push] at hpushed
      simp only [hcolumn] at hpushed
      rw [buildSearchClause_text hid, Option.elim_none, List.append_nil]
      exact hpushed
    | some id =>
      have hpatternTexts (n : ℕ) : ((patternComparisons (pattern s)).map
          (Comparison.numbered n)).map Comparison.text =
            searchColumns.map (fun column => column ++ " ILIKE $" ++ toString n) := by
        rw [patternComparisons, List.map_map, List.map_map]
        refine List.map_congr_left (fun column _ => ?_)
        simp [text_numbered, placeholder, ← String.toList_inj, String.toList_append]
      have hidTexts (n : ℕ) : ((idComparisons (.uuid id)).map (Comparison.numbered n)).map
          Comparison.text = ["a.id = $" ++ toString n ++ "::uuid",
            "a.actor_id = $" ++ toString n ++ "::uuid"] := by
        simp [idComparisons, text_numbered, placeholder, ← String.toList_inj, String.toList_append]
      have hpushed := h.pushEither (patternComparisons_formed (pattern s))
        (idComparisons_formed id) (List.cons_ne_nil _ _) (List.cons_ne_nil _ _)
      rw [Condition.text, List.map_append, hpatternTexts, hidTexts] at hpushed
      rw [buildSearchClause_id hid, Option.elim_some]
      exact hpushed

theorem tests_means (lib : Library) (f : AuditLogQueryFilters) (q : Option String) :
    (addSearch lib (filterParts f) q).Means (tests lib f q) :=
  addSearch_means lib (filterParts_means f) q

theorem tests_inClause (lib : Library) (f : AuditLogQueryFilters) (q : Option String) :
    ∀ b ∈ tests lib f q, ∀ name ∈ b.names, name.toList.all inClause = true := by
  have hone {column operator cast : String} (v : Param)
      (hnames : ∀ name ∈ [column, operator, cast], name.toList.all inClause = true) :
      ∀ name ∈ (Condition.one ⟨column, operator, v, cast⟩).names,
        name.toList.all inClause = true := hnames
  intro b hb
  simp only [tests, filterTests, List.mem_append, List.mem_cons, List.not_mem_nil, or_false,
    Option.mem_toList, Option.map_map, Option.map_eq_some_iff] at hb
  rcases hb with ((((((rfl | rfl) | ⟨v, -, rfl⟩) | ⟨v, -, rfl⟩) | ⟨v, -, rfl⟩) | ⟨v, -, rfl⟩) |
    ⟨s, -, rfl⟩)
  · exact hone _ (by decide)
  · exact hone _ (by decide)
  · exact hone _ (by decide)
  · exact (by decide : ∀ name ∈ ["u.full_name", "ILIKE", "", "u.username", "ILIKE", ""],
      name.toList.all inClause = true)
  · exact hone _ (by decide)
  · exact hone _ (by decide)
  · intro name hname
    obtain ⟨d, hd, hname⟩ := List.mem_flatMap.mp hname
    have hcolumns : ∀ column ∈ searchColumns, column.toList.all inClause = true := by decide
    have hothers : ∀ name ∈ ["ILIKE", ""], name.toList.all inClause = true := by decide
    rcases List.mem_append.mp hd with hd | hd
    · obtain ⟨column, hcolumn, rfl⟩ := List.mem_map.mp hd
      simp only [Comparison.names, List.mem_cons, List.not_mem_nil, or_false] at hname
      rcases hname with rfl | rfl | rfl
      · exact hcolumns name hcolumn
      · exact hothers _ (by decide)
      · exact hothers _ (by decide)
    · cases hid : lib.uuid s with
      | none =>
        rw [hid] at hd
        exact absurd hd List.not_mem_nil
      | some id =>
        rw [hid] at hd
        simp only [Option.elim_some, idComparisons, List.mem_cons, List.not_mem_nil, or_false] at hd
        rcases hd with rfl | rfl
        · exact (by decide : ∀ name ∈ ["a.id", "=", "uuid"], name.toList.all inClause = true)
            name hname
        · exact (by decide : ∀ name ∈ ["a.actor_id", "=", "uuid"],
            name.toList.all inClause = true) name hname

end AuditLogAdminView

/-! ## Pages and totals -/

def Query.prepared (query : Query) : Option (Select Param) := prepare query.1 query.2

/-- The page query and the count query cut out of it ask for the same conditions, each query with
exactly the parameters it needs. -/
structure Aligned (l : Listing) (build : ℤ → ℤ → Except PyError Query)
    (asked : Except PyError (List (Condition Param))) : Prop where
  pages : ∀ limit skip, (build limit skip).map Query.prepared =
    asked.map (fun bound => some (l.page bound limit skip))
  counts : ∀ limit skip, (countQuery l.countHead (build limit skip)).map Query.prepared =
    asked.toOption.map (fun bound => some (l.count bound))

section aligned
variable {l : Listing} {build : ℤ → ℤ → Except PyError Query}
  {asked : Except PyError (List (Condition Param))}

theorem aligned_of_means {β : Type} (hl : l.Formed) {extracted : Except PyError β}
    {parts : β → Parts Param} {tests : β → List (Condition Param)}
    (hmeans : ∀ x, (parts x).Means (tests x)) (hne : ∀ x, tests x ≠ [])
    (hclause : ∀ x, ∀ b ∈ tests x, ∀ name ∈ b.names, name.toList.all inClause = true) :
    Aligned l (fun limit skip => extracted.map
      (fun x => pageQuery l.head l.orderText (parts x) limit skip)) (extracted.map tests) where
  pages limit skip := by
    cases extracted with
    | error e => rfl
    | ok x =>
      obtain ⟨cs, hsaid⟩ := hmeans x
      exact congrArg Except.ok (prepare_pageQuery hl hsaid (hne x) limit skip)
  counts limit skip := by
    cases extracted with
    | error e => rfl
    | ok x =>
      obtain ⟨cs, hsaid⟩ := hmeans x
      have hsolid := hsaid.solid inClause_digit inClause_own (hclause x)
      rw [Except.map, countQuery_pageQuery hl hsolid]
      exact congrArg some (prepare_countText hl hsaid (hne x))

/-- The total is the number of rows without paging. -/
theorem Aligned.count_eq {ρ : Type} {db : LogDatabase ρ} (h : Aligned l build asked) {table : String}
    {q : Option String} {rules : FilterGroup} (hgiven : (searchText q).isSome ∨ rules ≠ [])
    {bound : List (Condition Param)} (hasked : asked = .ok bound) {rows : List ρ}
    (hrows : db.server.run (l.unpaged bound) = some rows) :
    count db table l.countHead (build 0 0) q rules = rows.length := by
  have hcounts := h.counts 0 0
  rw [hasked] at hcounts
  obtain ⟨query, hquery, hprepared⟩ := Option.map_eq_some_iff.mp hcounts
  have hlength : (db.server.run (l.count bound)).map List.length = some rows.length := by
    have hsame := Server.length_run (s := db.server) countColumns l.columns l.source bound [] l.order
    rw [Listing.count, hsame]
    exact congrArg (Option.map List.length) hrows
  obtain ⟨counted, hcounted, hlength⟩ := Option.map_eq_some_iff.mp hlength
  have hfetch : db.fetchval query = some (some (rows.length : ℤ)) := by
    rw [LogDatabase.fetchval]
    change (query.prepared.bind _) = _
    have hcolumns : (l.count bound).columns = countColumns := rfl
    rw [hprepared, Option.bind_some, if_pos hcolumns, hcounted, Option.map_some, hlength]
  rw [count, if_pos hgiven, hquery, Option.bind_some, hfetch]
  rfl

end aligned

def webhookAsked (lib : Library) (now : DateTime) (filters : Option FilterGroup)
    (q : Option String) : Except PyError (List (Condition Param)) :=
  (WebhookLogAdminView.extractDateBounds lib now filters).map
    (fun dates => WebhookLogAdminView.tests filters dates q)

def auditAsked (lib : Library) (now : DateTime) (filters : Option FilterGroup)
    (q : Option String) : Except PyError (List (Condition Param)) :=
  (AuditLogAdminView.extractQueryFilters lib now filters).map
    (fun f => AuditLogAdminView.tests lib f q)

section views
variable (lib : Library) (now : DateTime) (filters : Option FilterGroup) (q : Option String)

theorem webhook_aligned : Aligned WebhookLogAdminView.listing
    (fun limit skip => WebhookLogAdminView.buildFilterQuery lib now filters limit skip q)
    (webhookAsked lib now filters q) := by
  refine aligned_of_means WebhookLogAdminView.listing_formed
    (fun dates => WebhookLogAdminView.conditions_means filters dates q) (fun dates => ?_)
    (fun dates => WebhookLogAdminView.tests_inClause filters dates q)
  simp [WebhookLogAdminView.tests]

theorem audit_aligned : Aligned AuditLogAdminView.listing
    (fun limit skip => AuditLogAdminView.buildFilterQuery lib now filters limit skip q)
    (auditAsked lib now filters q) := by
  have haligned : Aligned _ _
      ((AuditLogAdminView.extractQueryFilters lib now filters).map _) :=
    aligned_of_means AuditLogAdminView.listing_formed
      (fun f => AuditLogAdminView.tests_means lib f q)
      (fun f => by simp [AuditLogAdminView.tests, AuditLogAdminView.filterTests])
      (fun f => AuditLogAdminView.tests_inClause lib f q)
  rw [AuditLogAdminView.head_listing] at haligned
  exact haligned

/-- The queries of both views are read with exactly their parameters, each condition with the value
that was appended for it. With a search text or a rule the total is the number of rows that the
query without paging returns. -/
theorem logQueries_aligned {ρ : Type} (db : LogDatabase ρ) :
    Aligned WebhookLogAdminView.listing
      (fun limit skip => WebhookLogAdminView.buildFilterQuery lib now filters limit skip q)
      (webhookAsked lib now filters q) ∧
    Aligned AuditLogAdminView.listing
      (fun limit skip => AuditLogAdminView.buildFilterQuery lib now filters limit skip q)
      (auditAsked lib now filters q) ∧
    ((searchText q).isSome ∨ rulesOf filters ≠ [] →
      (∀ bound rows, webhookAsked lib now filters q = .ok bound →
        db.server.run (WebhookLogAdminView.listing.unpaged bound) = some rows →
          WebhookLogAdminView.count db lib now q filters = rows.length) ∧
      ∀ bound rows, auditAsked lib now filters q = .ok bound →
        db.server.run (AuditLogAdminView.listing.unpaged bound) = some rows →
          AuditLogAdminView.count db lib now q filters = rows.length) := by
  refine ⟨webhook_aligned lib now filters q, audit_aligned lib now filters q, fun hgiven => ⟨?_, ?_⟩⟩
  · intro bound rows hasked hrows
    exact (webhook_aligned lib now filters q).count_eq hgiven hasked hrows
  · intro bound rows hasked hrows
    exact (audit_aligned lib now filters q).count_eq hgiven hasked hrows

end views
end FastapiTemplate.AdminFilters
