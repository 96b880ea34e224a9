import FastapiTemplate.ReadQueries

/-!
# The count and the pages of dead letters

`count_tasks` and `list_tasks` build their statements separately. Both are read with the values that
were appended for their conditions, whichever filters, limit, cursor and offset are given.
-/

namespace FastapiTemplate.Sql.DeadLetterTaskDAO

open SelectTexts

/-! ## What the conditions mean -/

def taskNameTest (v : Arg) : Condition Arg := .one ⟨"task_name", "=", v, ""⟩

def exceptionTypeTest (v : Arg) : Condition Arg := .one ⟨"exception_type", "=", v, ""⟩

def searchTest (v : Arg) : Condition Arg :=
  .anyColumn ["task_name", "exception_message", "traceback"] "ILIKE" v

def dateFromTest (v : Arg) : Condition Arg := .one ⟨"failed_at", ">=", v, ""⟩

def dateToTest (v : Arg) : Condition Arg := .one ⟨"failed_at", "<=", v, ""⟩

def cursorTest (v : Arg) : Condition Arg := .one ⟨"id", "<", v, "uuid"⟩

def filterTests (filters : DLQTaskFilter) : List (Condition Arg) :=
  [.always] ++ (((nonEmpty filters.taskName).map .text).map taskNameTest).toList ++
    (((nonEmpty filters.exceptionType).map .text).map exceptionTypeTest).toList ++
    (((nonEmpty filters.search).map (fun s => .text ("%" ++ s ++ "%"))).map searchTest).toList ++
    (filters.dateFrom.map dateFromTest).toList ++ (filters.dateTo.map dateToTest).toList

def listTests (filters : DLQTaskFilter) (cursor : Option String) : List (Condition Arg) :=
  filterTests filters ++ (((nonEmpty cursor).map .text).map cursorTest).toList

def limitArg (limit : Option ℤ) : Option Arg := (limit.filter (0 < ·)).map .int

def offsetArg (offset : ℤ) : Option Arg := if 0 < offset then some (.int offset) else none

def listSelect (filters : DLQTaskFilter) (limit : Option ℤ) (cursor : Option String) (offset : ℤ) :
    Select Arg :=
  ⟨["*"], ["dead_letter_tasks"], listTests filters cursor, ["id", "DESC"], limitArg limit,
    offsetArg offset⟩

def countSelect (filters : DLQTaskFilter) : Select Arg :=
  ⟨["COUNT", "(", "*", ")"], ["dead_letter_tasks"], filterTests filters, [], none, none⟩

theorem conditions_means (filters : DLQTaskFilter) :
    (conditions filters).Means (filterTests filters) := by
  have htaskName : Test taskNameTest (fun p => "task_name = " ++ p) :=
    test_one (by decide) (by decide) rfl (fun _ => rfl)
  have hexceptionType : Test exceptionTypeTest (fun p => "exception_type = " ++ p) :=
    test_one (by decide) (by decide) rfl (fun _ => rfl)
  have hdateFrom : Test dateFromTest (fun p => "failed_at >= " ++ p) :=
    test_one (by decide) (by decide) rfl (fun _ => rfl)
  have hdateTo : Test dateToTest (fun p => "failed_at <= " ++ p) :=
    test_one (by decide) (by decide) rfl (fun _ => rfl)
  have hsearch : Test searchTest (fun p => "(task_name ILIKE " ++ p ++
      " OR exception_message ILIKE " ++ p ++ " OR traceback ILIKE " ++ p ++ ")") := by
    refine test_anyColumn (by decide) (by decide) (List.cons_ne_nil _ _) (fun n => ?_)
    simp [← String.toList_inj, String.toList_append]
  exact ((((Clauses.means_always.pushIf htaskName _).pushIf hexceptionType _).pushIf
    hsearch _).pushIf hdateFrom _).pushIf hdateTo _

/-! ## The statements -/

section pagination
variable (params : List Arg) (limit offset : Option Arg)

def pagination : Clauses :=
  ((Clauses.mk [] params).pushIf limit (fun p => " LIMIT " ++ p)).pushIf offset
    (fun p => " OFFSET " ++ p)

theorem pagination_params :
    (pagination params limit offset).params = params ++ (limit.toList ++ offset.toList) := by
  cases limit <;> cases offset <;> simp [pagination, Clauses.pushIf, Clauses.push]

theorem words_number (text name : String) (hname : IsWord name) (n : ℕ) :
    words (text ++ (" " ++ name ++ " " ++ ("$" ++ toString n))) =
      words text ++ numberWords name (some n) := by
  have hjoined : text ++ (" " ++ name ++ " " ++ ("$" ++ toString n)) =
      text ++ " " ++ name ++ " " ++ placeholder n "" := by
    simp only [placeholder, if_true, String.append_assoc]
  rw [hjoined, words_space, words_space, words_isWord hname,
    words_isWord (isName_placeholder n rfl).1, List.append_assoc]
  rfl

theorem words_pagination (text : String) :
    words (text ++ "".intercalate (pagination params limit offset).parts) = words text ++
      (numberWords "LIMIT" (limit.map (fun _ => params.length + 1)) ++
        numberWords "OFFSET" (offset.map (fun _ => params.length + limit.toList.length + 1))) := by
  have hlimit : (" LIMIT " : String) = " " ++ "LIMIT" ++ " " := rfl
  have hoffset : (" OFFSET " : String) = " " ++ "OFFSET" ++ " " := rfl
  cases limit with
  | none =>
    cases offset with
    | none => simp [pagination, Clauses.pushIf, numberWords]
    | some offset =>
      simp only [pagination, Clauses.pushIf, Clauses.push, List.nil_append, hoffset,
        String.intercalate_singleton]
      exact words_number text "OFFSET" (by decide) _
  | some limit =>
    cases offset with
    | none =>
      simp only [pagination, Clauses.pushIf, Clauses.push, List.nil_append, hlimit,
        String.intercalate_singleton]
      rw [words_number text "LIMIT" (by decide)]
      simp [numberWords]
    | some offset =>
      have hpieces : (pagination params (some limit) (some offset)).parts =
          [" " ++ "LIMIT" ++ " " ++ ("$" ++ toString (params.length + 1)),
            " " ++ "OFFSET" ++ " " ++ ("$" ++ toString (params.length + 1 + 1))] := by
        simp only [pagination, Clauses.pushIf, Clauses.push, List.nil_append, hlimit, hoffset,
          List.singleton_append, List.length_append, List.length_singleton]
      rw [hpieces, String.intercalate_cons_cons, String.intercalate_singleton, String.append_empty,
        ← String.append_assoc, words_number _ "OFFSET" (by decide),
        words_number _ "LIMIT" (by decide), List.append_assoc]
      rfl

end pagination

theorem listText_eq (where_ pages : String) :
    "SELECT " ++ ("* FROM dead_letter_tasks WHERE " ++ where_ ++ " ORDER BY id DESC" ++ pages) =
      "SELECT * FROM dead_letter_tasks WHERE" ++ " " ++ where_ ++ " " ++ "ORDER BY id DESC" ++
        pages := by
  simp [← String.toList_inj, String.toList_append]

/-- The words of the statement of `list_tasks`. -/
theorem words_listText {where_ : String} {cs : List (Condition ℕ)}
    (hwhere : words where_ = ["AND"].intercalate (cs.map Condition.words)) (params : List Arg)
    (limit offset : Option Arg) (bound : List (Condition Arg)) :
    words ("SELECT " ++ ("* FROM dead_letter_tasks WHERE " ++ where_ ++ " ORDER BY id DESC" ++
      "".intercalate (pagination params limit offset).parts)) =
      ((⟨["*"], ["dead_letter_tasks"], bound, ["id", "DESC"], limit, offset⟩ :
        Select Arg).numbered cs params.length).words [] := by
  have hhead : words "SELECT * FROM dead_letter_tasks WHERE" =
      ["SELECT", "*", "FROM", "dead_letter_tasks", "WHERE"] := by decide
  have horder : words "ORDER BY id DESC" = orderWords ["id", "DESC"] := by decide
  rw [listText_eq, words_pagination, words_space, words_space, hhead, horder, hwhere,
    Select.words, Select.numbered]
  simp only [List.cons_append, List.nil_append, List.append_assoc, List.append_nil]

theorem formed_listSelect (filters : DLQTaskFilter) (limit : Option ℤ) (cursor : Option String)
    (offset : ℤ) : (listSelect filters limit cursor offset).Formed where
  columns := (by decide : "FROM" ∉ ["*"])
  source := (by decide : "WHERE" ∉ ["dead_letter_tasks"])
  order := (by decide : ∀ w ∈ ["id", "DESC"], w ∉ clauseWords)

/-- The statement of `list_tasks` asks for its tests, limit and offset. -/
theorem listTasks_asks (filters : DLQTaskFilter) (limit : Option ℤ) (cursor : Option String)
    (offset : ℤ) : Asks (listTasks filters limit cursor offset) Dao.fetch
      (listSelect filters limit cursor offset) := by
  have hcursor : Test cursorTest (fun p => "id < " ++ p ++ "::uuid") := by
    refine test_one (by decide) (by decide) (by decide) (fun n => ?_)
    simp [placeholder, ← String.toList_inj, String.toList_append]
  obtain ⟨cs, hsaid⟩ := (conditions_means filters).pushIf hcursor ((nonEmpty cursor).map .text)
  refine ⟨_, rfl, rfl, ?_⟩
  generalize (conditions filters).pushIf ((nonEmpty cursor).map .text)
    (fun p => "id < " ++ p ++ "::uuid") = where_ at hsaid ⊢
  have hwords := words_listText hsaid.words_where where_.params (limitArg limit)
    (offsetArg offset) (listTests filters cursor)
  have hne : listTests filters cursor ≠ [] :=
    List.append_ne_nil_of_left_ne_nil (by simp [filterTests]) _
  have hprepared := hsaid.numbered.prepare hwords (.inl rfl) (formed_listSelect ..) hne
  rw [← pagination_params] at hprepared
  exact hprepared

/-- The statement of `count_tasks` asks for the tests of the filters. -/
theorem countTasks_asks (filters : DLQTaskFilter) :
    Asks (countTasks filters) fetchCount (countSelect filters) := by
  obtain ⟨cs, hsaid⟩ := conditions_means filters
  refine ⟨_, rfl, rfl, ?_⟩
  generalize conditions filters = clauses at hsaid ⊢
  have htext : ("SELECT " ++ ("COUNT(*) FROM dead_letter_tasks WHERE " ++
      " AND ".intercalate clauses.parts) : String) =
        "SELECT COUNT(*) FROM dead_letter_tasks WHERE" ++ " " ++
          " AND ".intercalate clauses.parts := by
    simp [← String.toList_inj, String.toList_append]
  have hhead : words "SELECT COUNT(*) FROM dead_letter_tasks WHERE" =
      ["SELECT", "COUNT", "(", "*", ")", "FROM", "dead_letter_tasks", "WHERE"] := by decide
  have hwords : words ("SELECT " ++ ("COUNT(*) FROM dead_letter_tasks WHERE " ++
      " AND ".intercalate clauses.parts)) =
        ((countSelect filters).numbered cs clauses.params.length).words [] := by
    have hwhere : words (" AND ".intercalate clauses.parts) =
        ["AND"].intercalate (cs.map Condition.words) := hsaid.words_where
    rw [htext, words_space, hhead, hwhere]
    simp [Select.words, Select.numbered, countSelect, orderWords, numberWords]
  have hformed : (countSelect filters).Formed :=
    ⟨(by decide : "FROM" ∉ ["COUNT", "(", "*", ")"]),
      (by decide : "WHERE" ∉ ["dead_letter_tasks"]), (by decide : ∀ w ∈ [], w ∉ clauseWords)⟩
  have hprepared := hsaid.numbered.prepare hwords (.inl rfl) hformed
    (by simp [countSelect, filterTests])
  have hargs : clauses.params ++
      ((countSelect filters).limit.toList ++ (countSelect filters).offset.toList) =
        clauses.params := List.append_nil _
  rw [hargs] at hprepared
  exact hprepared

/-! ## Lists, counts and pages -/

section answers
variable (r : Replica) (e : DbError) (filters : DLQTaskFilter)

theorem reads_listTasks (limit : Option ℤ) (cursor : Option String) (offset : ℤ) :
    (listTasks filters limit cursor offset).reads r.server e =
      (r.server.run (listSelect filters limit cursor offset)).elim (.error e) .ok :=
  (listTasks_asks filters limit cursor offset).reads_list
    (by decide : ["*"] ≠ ["COUNT", "(", "*", ")"])

/-- The count is that of the whole list. -/
theorem reads_countTasks : (countTasks filters).reads r.server e =
    ((listTasks filters none none 0).reads r.server e).map (fun rows => (rows.length : ℤ)) := by
  rw [(countTasks_asks filters).reads_count rfl, reads_listTasks]
  have htests : listTests filters none = filterTests filters := List.append_nil _
  have hlength : (r.server.run (countSelect filters)).map List.length =
      (r.server.run (listSelect filters none none 0)).map List.length := by
    rw [listSelect, htests]
    exact SelectTexts.Server.length_run _ _ _ _ _ _
  cases hlist : r.server.run (listSelect filters none none 0) with
  | none =>
    rw [hlist, Option.map_none, Option.map_eq_none_iff] at hlength
    rw [hlength]
    rfl
  | some rows =>
    rw [hlist] at hlength
    obtain ⟨counted, hcounted, hlength⟩ := Option.map_eq_some_iff.mp hlength
    rw [hcounted]
    exact congrArg (fun n : ℕ => Except.ok (n : ℤ)) hlength

/-- What is cut out of the rows for a limit and an offset, if the driver accepts them. -/
def cutPage (limit : Option ℤ) (offset : ℤ) (rows : List Row) : Except DbError (List Row) :=
  ((r.server.numberOf (limitArg limit)).bind fun limit =>
    (r.server.numberOf (offsetArg offset)).map fun offset =>
      SelectTexts.Server.page limit offset rows).elim (.error e) .ok

theorem reads_page (limit : Option ℤ) (cursor : Option String) (offset : ℤ) :
    (listTasks filters limit cursor offset).reads r.server e =
      ((listTasks filters none cursor 0).reads r.server e).bind (cutPage r e limit offset) := by
  rw [reads_listTasks, reads_listTasks, SelectTexts.Server.run_page]
  have hwhole : (⟨(listSelect filters limit cursor offset).columns,
      (listSelect filters limit cursor offset).source,
      (listSelect filters limit cursor offset).conditions,
      (listSelect filters limit cursor offset).order, none, none⟩ : Select Arg) =
        listSelect filters none cursor 0 := rfl
  rw [hwhole]
  cases r.server.run (listSelect filters none cursor 0) <;> rfl

variable {r e}

theorem eq_of_bigint {n m : ℕ} (h : bigint (.int n) = some m) : m = n := by
  simp only [bigint] at h
  split_ifs at h
  exact (Option.some.inj h).symm

theorem numberOf_offset {n : ℕ} {offset : Option ℕ}
    (h : r.server.numberOf (offsetArg n) = some offset) : offset.getD 0 = n := by
  unfold offsetArg at h
  split_ifs at h with hpos
  · obtain ⟨m, hm, rfl⟩ := Option.map_eq_some_iff.mp h
    exact eq_of_bigint hm
  · cases h
    rw [Option.getD_none]
    omega

/-- An offset page is the part of the rows that its number says. -/
theorem eq_of_cutPage {size i : ℕ} (hsize : 0 < size) {rows page : List Row}
    (h : cutPage r e (some size) ((i * size : ℕ) : ℤ) rows = .ok page) :
    page = (rows.drop (i * size)).take size := by
  have hlimit : limitArg (some (size : ℤ)) = some (.int size) := by
    simp [limitArg, Option.filter, hsize]
  unfold cutPage at h
  rw [hlimit] at h
  cases hnumber : r.server.numberOf (some (.int size)) with
  | none =>
    rw [hnumber] at h
    cases h
  | some limit =>
    cases hoffset : r.server.numberOf (offsetArg ((i * size : ℕ) : ℤ)) with
    | none =>
      rw [hnumber, hoffset] at h
      cases h
    | some offset =>
      rw [hnumber, hoffset] at h
      obtain ⟨m, hm, rfl⟩ := Option.map_eq_some_iff.mp hnumber
      rw [← Except.ok.inj h, ← numberOf_offset hoffset, ← eq_of_bigint hm]
      rfl

/-- The offset pages that are answered, one after another, are the rows from the start. -/
theorem flatten_pages {cursor : Option String} {rows : List Row}
    (hrows : (listTasks filters none cursor 0).reads r.server e = .ok rows) {size : ℕ}
    (hsize : 0 < size) (count : ℕ) {pages : List (List Row)}
    (hpages : (List.range count).mapM (fun i => (listTasks filters (some size) cursor
      ((i * size : ℕ) : ℤ)).reads r.server e) = .ok pages) :
    pages.flatten = rows.take (count * size) := by
  have hpage : ∀ i page, (listTasks filters (some size) cursor
      ((i * size : ℕ) : ℤ)).reads r.server e = .ok page → page = (rows.drop (i * size)).take size := by
    intro i page hpage
    rw [reads_page, hrows] at hpage
    exact eq_of_cutPage hsize hpage
  rw [← flatMap_pages, List.flatMap_def, eq_map_of_mapM hpage hpages]

end answers

/-- Both statements ask for their filters with the values that were appended for them. The count is
the length of the list without limit, cursor and offset. The answer to a limit and an offset is cut
out of the list without them, and offset pages of one size are its parts in order. -/
theorem deadLetters_countAndPages (r : Replica) (e : DbError) (filters : DLQTaskFilter) :
    Asks (countTasks filters) fetchCount (countSelect filters) ∧
    (∀ limit cursor offset, Asks (listTasks filters limit cursor offset) Dao.fetch
      (listSelect filters limit cursor offset)) ∧
    (countTasks filters).reads r.server e =
      ((listTasks filters none none 0).reads r.server e).map (fun rows => (rows.length : ℤ)) ∧
    (∀ limit cursor offset, (listTasks filters limit cursor offset).reads r.server e =
      ((listTasks filters none cursor 0).reads r.server e).bind (cutPage r e limit offset)) ∧
    ∀ cursor rows, (listTasks filters none cursor 0).reads r.server e = .ok rows →
      ∀ size count : ℕ, 0 < size → ∀ pages, (List.range count).mapM (fun i =>
        (listTasks filters (some size) cursor ((i * size : ℕ) : ℤ)).reads r.server e) = .ok pages →
          pages.flatten = rows.take (count * size) := by
  refine ⟨countTasks_asks filters, listTasks_asks filters, reads_countTasks r e filters,
    reads_page r e filters, ?_⟩
  intro cursor rows hrows size count hsize pages hpages
  exact flatten_pages filters hrows hsize count hpages

end FastapiTemplate.Sql.DeadLetterTaskDAO
