import FastapiTemplate.DeviceStatements
import FastapiTemplate.ReadQueries
import FastapiTemplate.TiedPages

/-!
# The pages of webhook logs

`list_logs` orders by `created_at` and continues below the `created_at` of the last row. Nothing
makes this time unique, and the cursor is a text that the driver may refuse as a `timestamptz`.
-/

namespace FastapiTemplate.Sql.WebhookLogDAO

open SelectTexts Keyset

/-! ## What the conditions mean -/

def equals (column : String) (v : Arg) : Condition Arg := .one ⟨column, "=", v, ""⟩

def endpointTest (v : Arg) : Condition Arg := .one ⟨"endpoint_id", "=", v, "uuid"⟩

def fromTest (v : Arg) : Condition Arg := .one ⟨"created_at", ">=", v, ""⟩

def toTest (v : Arg) : Condition Arg := .one ⟨"created_at", "<=", v, ""⟩

def olderThan (cursor : Arg) : Comparison Arg := ⟨"created_at", "<", cursor, "timestamptz"⟩

def filterTests : Option WebhookLogFilterParams → List (Condition Arg)
  | none => [.always]
  | some filters =>
    [.always] ++ (((nonEmpty filters.direction).map .text).map (equals "direction")).toList ++
      (((nonEmpty filters.status).map .text).map (equals "status")).toList ++
      (((nonEmpty filters.source).map .text).map (equals "source")).toList ++
      (((nonEmpty filters.eventName).map .text).map (equals "event_name")).toList ++
      (((nonEmpty filters.endpointId).map .text).map endpointTest).toList ++
      (filters.fromDate.map fromTest).toList ++ (filters.toDate.map toTest).toList

def listTests (cursor : Option String) (filters : Option WebhookLogFilterParams) :
    List (Condition Arg) :=
  filterTests filters ++ (((nonEmpty cursor).map .text).map (fun v => .one (olderThan v))).toList

def listSelect (limit : ℤ) (cursor : Option String) (filters : Option WebhookLogFilterParams) :
    Select Arg :=
  ⟨["*"], ["webhook_logs"], listTests cursor filters, ["created_at", "DESC"], some (.int limit),
    none⟩

theorem conditions_means (filters : Option WebhookLogFilterParams) :
    (conditions filters).Means (filterTests filters) := by
  cases filters with
  | none => exact Clauses.means_always
  | some filters =>
    have hdirection : Test (equals "direction") (fun p => "direction = " ++ p) :=
      test_one (by decide) (by decide) rfl (fun _ => rfl)
    have hstatus : Test (equals "status") (fun p => "status = " ++ p) :=
      test_one (by decide) (by decide) rfl (fun _ => rfl)
    have hsource : Test (equals "source") (fun p => "source = " ++ p) :=
      test_one (by decide) (by decide) rfl (fun _ => rfl)
    have heventName : Test (equals "event_name") (fun p => "event_name = " ++ p) :=
      test_one (by decide) (by decide) rfl (fun _ => rfl)
    have hendpoint : Test endpointTest (fun p => "endpoint_id = " ++ p ++ "::uuid") := by
      refine test_one (by decide) (by decide) (by decide) (fun n => ?_)
      simp [placeholder, ← String.toList_inj, String.toList_append]
    have hfrom : Test fromTest (fun p => "created_at >= " ++ p) :=
      test_one (by decide) (by decide) rfl (fun _ => rfl)
    have hto : Test toTest (fun p => "created_at <= " ++ p) :=
      test_one (by decide) (by decide) rfl (fun _ => rfl)
    exact ((((((Clauses.means_always.pushIf hdirection _).pushIf hstatus _).pushIf
      hsource _).pushIf heventName _).pushIf hendpoint _).pushIf hfrom _).pushIf hto _

/-! ## The statement -/

theorem words_listText {where_ : String} {cs : List (Condition ℕ)}
    (hwhere : words where_ = ["AND"].intercalate (cs.map Condition.words)) (count : ℕ)
    (limit : Arg) (bound : List (Condition Arg)) :
    words ("SELECT " ++ ("* FROM webhook_logs WHERE " ++ where_ ++
      " ORDER BY created_at DESC LIMIT " ++ ("$" ++ toString (count + 1) ++ ";"))) =
      ((⟨["*"], ["webhook_logs"], bound, ["created_at", "DESC"], some limit, none⟩ :
        Select Arg).numbered cs count).words [";"] := by
  have htext : "SELECT " ++ ("* FROM webhook_logs WHERE " ++ where_ ++
      " ORDER BY created_at DESC LIMIT " ++ ("$" ++ toString (count + 1) ++ ";")) =
        "SELECT * FROM webhook_logs WHERE" ++ " " ++ where_ ++ " " ++
          "ORDER BY created_at DESC LIMIT" ++ " " ++ placeholder (count + 1) "" ++ ";" := by
    simp [placeholder, ← String.toList_inj, String.toList_append]
  have hhead : words "SELECT * FROM webhook_logs WHERE" =
      ["SELECT", "*", "FROM", "webhook_logs", "WHERE"] := by decide
  have horder : words "ORDER BY created_at DESC LIMIT" =
      orderWords ["created_at", "DESC"] ++ ["LIMIT"] := by decide
  rw [htext, words_end, words_space, words_space, words_space, hhead, horder, hwhere,
    words_isWord (isName_placeholder (count + 1) rfl).1, Select.words, Select.numbered]
  simp [numberWords]

theorem formed_listSelect (limit : ℤ) (cursor : Option String)
    (filters : Option WebhookLogFilterParams) : (listSelect limit cursor filters).Formed where
  columns := (by decide : "FROM" ∉ ["*"])
  source := (by decide : "WHERE" ∉ ["webhook_logs"])
  order := (by decide : ∀ w ∈ ["created_at", "DESC"], w ∉ clauseWords)

theorem filterTests_ne_nil (filters : Option WebhookLogFilterParams) :
    filterTests filters ≠ [] := by
  cases filters <;> simp [filterTests]

/-- The statement of `list_logs` asks for its tests and its limit. -/
theorem listLogs_asks (limit : ℤ) (cursor : Option String)
    (filters : Option WebhookLogFilterParams) :
    Asks (listLogs limit cursor filters) Dao.fetch (listSelect limit cursor filters) := by
  have hcursor : Test (fun v => .one (olderThan v))
      (fun p => "created_at < " ++ p ++ "::timestamptz") := by
    refine test_one (by decide) (by decide) (by decide) (fun n => ?_)
    simp [placeholder, ← String.toList_inj, String.toList_append]
  obtain ⟨cs, hsaid⟩ := (conditions_means filters).pushIf hcursor ((nonEmpty cursor).map .text)
  refine ⟨_, rfl, rfl, ?_⟩
  generalize (conditions filters).pushIf ((nonEmpty cursor).map .text)
    (fun p => "created_at < " ++ p ++ "::timestamptz") = where_ at hsaid ⊢
  have hlast : "".intercalate ((Clauses.mk [] where_.params).push (.int limit)
      (fun p => p ++ ";")).parts = "$" ++ toString (where_.params.length + 1) ++ ";" :=
    String.intercalate_singleton
  have hwords := words_listText hsaid.words_where where_.params.length (.int limit)
    (listTests cursor filters)
  rw [← hlast] at hwords
  have hne : listTests cursor filters ≠ [] :=
    List.append_ne_nil_of_left_ne_nil (filterTests_ne_nil filters) _
  have hprepared := hsaid.numbered.prepare hwords (.inr rfl) (formed_listSelect ..) hne
  dsimp only [Query.selectText]
  exact hprepared

/-! ## Pages -/

/-- A fixed table `webhook_logs`. `text` writes a `created_at` as a cursor, which the driver and the
server either read as the same time or refuse. -/
structure LogTable extends Replica where
  createdAt : Row → ℕ
  text : ℕ → String
  read : String → Option ℕ
  text_ne : ∀ t, text t ≠ ""
  read_text : ∀ t, ∀ t' ∈ read (text t), t' = t
  encodes_cursor : ∀ cursor, encodes (olderThan (.text cursor)) = (read cursor).isSome
  holds_cursor : ∀ cursor, ∀ t ∈ read cursor, ∀ row,
    holds (olderThan (.text cursor)) row = decide (createdAt row < t)
  sorted : ∀ rows, (sort ["created_at", "DESC"] rows).Pairwise
    (fun a b => createdAt b ≤ createdAt a)

structure PageSize where
  value : ℕ
  pos : 0 < value
  le : value ≤ 9223372036854775807

namespace LogTable

variable (d : LogTable) (e : DbError) (filters : Option WebhookLogFilterParams) (size : PageSize)

/-- A page with fewer rows than asked for is the last one. -/
def page (cursor : Option String) : Except DbError (List Row × Option String) :=
  ((listLogs size.value cursor filters).reads d.server e).map fun items =>
    (items, if items.length < size.value then none
      else items.getLast?.map (fun row => d.text (d.createdAt row)))

def matching : List Row :=
  (d.rows ["webhook_logs"]).filter (fun row => (filterTests filters).all (d.server.satisfies · row))

/-- Following the cursors to the last page returns every matching row once. -/
def ReadsEachOnce : Prop :=
  ∃ pages, Walk (d.page e filters size) none pages ∧ pages.flatten.Perm (d.matching filters)

def accepts (t : ℕ) : Bool := (d.read (d.text t)).isSome

def times : List ℕ := (sortDescending d.createdAt (d.matching filters)).map d.createdAt

variable {d}

variable (d) in
theorem orders : Orders d.createdAt (d.sort ["created_at", "DESC"]) := ⟨d.sort_perm _, d.sorted⟩

theorem numberOf_size : d.server.numberOf (some (.int size.value)) = some (some size.value) := by
  have hle : (size.value : ℤ) ≤ 9223372036854775807 := by exact_mod_cast size.le
  have hbigint : bigint (.int size.value) = some size.value :=
    (if_pos ⟨Int.natCast_nonneg _, hle⟩).trans (congrArg some (Int.toNat_natCast _))
  exact congrArg (Option.map some) hbigint

theorem run_listSelect (cursor : Option String) :
    d.server.run (listSelect size.value cursor filters) =
      if d.server.encodesAll (listTests cursor filters) then
        some ((d.server.matching ["webhook_logs"] (listTests cursor filters)
          ["created_at", "DESC"]).take size.value)
      else none := by
  rw [SelectTexts.Server.run]
  dsimp only [listSelect]
  rw [numberOf_size]
  rfl

theorem encodesAll_listTests (c : Option ℕ) :
    d.server.encodesAll (listTests (c.map d.text) filters) =
      (d.server.encodesAll (filterTests filters) && c.all d.accepts) := by
  cases c with
  | none => simp [listTests, nonEmpty]
  | some t =>
    have hcursor : (nonEmpty (some (d.text t))) = some (d.text t) := by
      simp [nonEmpty, d.text_ne t]
    rw [Option.map_some, listTests, hcursor, SelectTexts.Server.encodesAll, List.all_append]
    simp only [Option.map_some, Option.toList_some, List.all_cons, List.all_nil, Bool.and_true,
      Condition.comparisons]
    exact congrArg (_ && ·) (d.encodes_cursor (d.text t))

theorem matching_listTests {c : Option ℕ} (haccepts : c.all d.accepts = true) :
    d.server.matching ["webhook_logs"] (listTests (c.map d.text) filters) ["created_at", "DESC"] =
      d.sort ["created_at", "DESC"] (below d.createdAt (d.matching filters) c) := by
  refine congrArg (d.sort ["created_at", "DESC"]) ?_
  rw [below, matching, List.filter_filter]
  apply List.filter_congr
  intro row _
  cases c with
  | none => simp [listTests, nonEmpty]
  | some t =>
    have hcursor : (nonEmpty (some (d.text t))) = some (d.text t) := by
      simp [nonEmpty, d.text_ne t]
    obtain ⟨t', ht'⟩ := Option.isSome_iff_exists.mp (Option.all_some.symm.trans haccepts)
    have hexact : t' = t := d.read_text t t' ht'
    subst hexact
    have hholds : d.server.holds (olderThan (.text (d.text t'))) row =
        decide (d.createdAt row < t') := d.holds_cursor _ _ ht' row
    rw [Option.map_some, listTests, hcursor, List.all_append]
    simp only [Option.map_some, Option.toList_some, List.all_cons, List.all_nil, Bool.and_true,
      Option.all_some]
    rw [Bool.and_comm]
    exact congrArg (· && _) hholds

/-- A page is one below its cursor, if the driver accepts the filters. -/
theorem page_eq (c : Option ℕ) : d.page e filters size (c.map d.text) =
    ((if d.server.encodesAll (filterTests filters) then
      pageBelow d.createdAt (d.sort ["created_at", "DESC"]) d.accepts e (d.matching filters)
        size.value c
      else .error e : Except DbError (List Row × Option ℕ))).map
        (fun x => (x.1, x.2.map d.text)) := by
  rw [page, (listLogs_asks _ _ _).reads_list (by decide : ["*"] ≠ ["COUNT", "(", "*", ")"]),
    run_listSelect, encodesAll_listTests, pageBelow]
  cases d.server.encodesAll (filterTests filters) with
  | false => rfl
  | true =>
    cases haccepts : c.all d.accepts with
    | false => rfl
    | true =>
      rw [matching_listTests filters haccepts]
      simp only [Bool.and_self, if_true, Option.elim_some, Except.map]
      split_ifs
      · rfl
      · rw [Option.map_map]
        rfl

theorem walk_page_iff {pages : List (List Row)} :
    Walk (d.page e filters size) none pages ↔
      d.server.encodesAll (filterTests filters) = true ∧
        Walk (pageBelow d.createdAt (d.sort ["created_at", "DESC"]) d.accepts e
          (d.matching filters) size.value) none pages := by
  have hwalk : Walk (d.page e filters size) ((none : Option ℕ).map d.text) pages ↔ _ :=
    walk_map_iff (page_eq e filters size)
  rw [Option.map_none] at hwalk
  rw [hwalk]
  cases hencodes : d.server.encodesAll (filterTests filters) with
  | true => simp
  | false =>
    simp only [Bool.false_eq_true, if_false, false_and, iff_false]
    intro h
    cases h with
    | last h => cases h
    | next h _ => cases h

theorem below_none : below d.createdAt (d.matching filters) none = d.matching filters := by
  rw [below]
  exact List.filter_eq_self.mpr (fun _ _ => rfl)

/-- Every matching row is returned once if and only if the driver accepts the values of the filters,
and after every full page it accepts the time of the last row and the next row is older. -/
theorem readsEachOnce_iff : d.ReadsEachOnce e filters size ↔
    d.server.encodesAll (filterTests filters) = true ∧
      CutsBetween d.accepts size.value (d.times filters) := by
  have hpages : (∃ pages, Walk (pageBelow d.createdAt (d.sort ["created_at", "DESC"]) d.accepts e
      (d.matching filters) size.value) none pages ∧ pages.flatten.Perm
        (below d.createdAt (d.matching filters) none)) ↔ _ := walk_pageBelow_iff d.orders size.pos
  have htimes : (d.sort ["created_at", "DESC"] (d.matching filters)).map d.createdAt =
      d.times filters := d.orders.keys_unique orders_sortDescending
  rw [below_none, htimes, Option.all_none, eq_self_iff_true, true_and] at hpages
  rw [← hpages, ReadsEachOnce, ← exists_and_left]
  apply exists_congr
  intro pages
  rw [walk_page_iff, and_assoc]

end LogTable

/-! ## Two logs of one time -/

def newYear : ℕ := 63902822400000000

def newYearText : String := "2026-01-01T00:00:00+00:00"

def logRow (id : String) : Row :=
  [("id", .text id), ("direction", .text "INBOUND"), ("source", .text "stripe"),
    ("event_name", .text "charge.succeeded"), ("url", .text "/webhooks/inbound/stripe"),
    ("status", .text "SUCCESS"), ("payload", .text "\x7b\x7d"), ("created_at", .int newYear)]

def rowTime (row : Row) : ℕ :=
  match row.column "created_at" with
  | some (.int t) => t.toNat
  | _ => 0

def readTime (reads : Bool) (cursor : String) : Option ℕ :=
  if reads ∧ cursor = newYearText then some newYear else none

def cursorText : Arg → Option String
  | .text cursor => some cursor
  | _ => none

def isOlderThan (c : Comparison Arg) : Bool :=
  c.column = "created_at" && c.operator = "<" && c.cast = "timestamptz"

def twoLogs (reads : Bool) : LogTable where
  rows source := if source = ["webhook_logs"] then
    [logRow "8f14e45f-ceea-467f-a8c1-000000000001", logRow "8f14e45f-ceea-467f-a8c1-000000000002"]
    else []
  encodes c := !isOlderThan c || ((cursorText c.value).bind (readTime reads)).isSome
  holds c row := if isOlderThan c then
    ((cursorText c.value).bind (readTime reads)).any (rowTime row < ·)
    else row.column c.column = some c.value
  sort _ rows := sortDescending rowTime rows
  sort_perm _ rows := sortDescending_perm rows
  createdAt := rowTime
  text t := if t = newYear then newYearText else "another time"
  read := readTime reads
  text_ne t := by split_ifs <;> decide
  read_text t t' ht' := by
    unfold readTime at ht'
    split_ifs at ht' with htime hread hread
    · exact (Option.some.inj ht').symm.trans htime.symm
    · cases ht'
    · exact absurd hread.2 (by decide)
    · cases ht'
  encodes_cursor cursor := rfl
  holds_cursor cursor t ht row := by
    have hbind : (cursorText (olderThan (.text cursor)).value).bind (readTime reads) = some t := ht
    rw [if_pos (by rfl), hbind]
    rfl
  sorted := sortDescending_sorted

/-- Page by page, the second one of the logs is lost, or its page refused. -/
theorem twoLogs_notEachOnce :
    ¬ (twoLogs true).ReadsEachOnce .interface none ⟨1, by decide, by decide⟩ ∧
      ¬ (twoLogs false).ReadsEachOnce .interface none ⟨1, by decide, by decide⟩ := by
  have hlost (reads : Bool) :
      ¬ (twoLogs reads).ReadsEachOnce .interface none ⟨1, by decide, by decide⟩ := by
    rintro ⟨pages, hwalk, hread⟩
    obtain ⟨-, hwalk⟩ := (LogTable.walk_page_iff ..).mp hwalk
    rw [← LogTable.below_none] at hread
    obtain ⟨-, hcuts⟩ := (walk_pageBelow_iff (twoLogs reads).orders Nat.one_pos).mp ⟨pages, hwalk, hread⟩
    have hkeys : ((twoLogs reads).sort ["created_at", "DESC"] (below (twoLogs reads).createdAt
        ((twoLogs reads).matching none) none)).map (twoLogs reads).createdAt =
          [newYear, newYear] := by
      refine ((twoLogs reads).orders.keys_of_sorted ?_).trans ?_
      · cases reads <;> decide
      · cases reads <;> decide
    rw [hkeys] at hcuts
    exact absurd ((hcuts 0 newYear rfl (Nat.one_dvd _)).2 newYear rfl) (Nat.lt_irrefl _)
  exact ⟨hlost true, hlost false⟩

end FastapiTemplate.Sql.WebhookLogDAO
