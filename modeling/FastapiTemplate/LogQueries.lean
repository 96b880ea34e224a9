import FastapiTemplate.AdminFilters
import FastapiTemplate.CutTexts
import FastapiTemplate.MigrationSections

/-!
# Queries of the log views

What `_build_filter_query` and `count` of both log views have in common: the query for a page of
rows, and the count query, whose conditions are cut out of the text of the page query.
-/

namespace FastapiTemplate.AdminFilters

open SelectTexts

/-! ## Parameters and rows -/

inductive Param
  | value (v : FilterValue)
  | uuid (n : ℕ)
  | int (n : ℤ)
  deriving DecidableEq, Repr

abbrev Query := String × List Param

def countColumns : List String := ["COUNT", "(", "*", ")"]

/-- The rows that a server has, and what `get_table_approximate_count` returns. -/
structure LogDatabase (ρ : Type) where
  server : Server Param ρ
  approximateCount : String → ℤ

/-- `db.fetchval` of a query that counts; `none` if it raises, `some none` for a null. -/
def LogDatabase.fetchval {ρ : Type} (db : LogDatabase ρ) (query : Query) : Option (Option ℤ) :=
  (prepare query.1 query.2).bind fun select =>
    if select.columns = countColumns then
      (db.server.run select).map (fun rows => some (rows.length : ℤ))
    else none

/-! ## Parts of both views -/

def searchText (q : Option String) : Option String := Sql.nonEmpty (q.map Sql.strip)

def pattern (s : String) : Param := .value (.text ("%" ++ s ++ "%"))

def pageQuery (head order : String) (c : Parts Param) (limit skip : ℤ) : Query :=
  let params := c.params ++ [.int limit, .int skip]
  (" ".intercalate [head, c.where_, order, "$" ++ toString (params.length - 1), "OFFSET",
    "$" ++ toString params.length ++ ";"], params)

def whereClause (query : String) : Option String :=
  (splitFirst "WHERE".toList query.toList).map fun x =>
    Sql.strip (String.ofList (((splitFirst "ORDER BY".toList x.2).map (·.1)).getD x.2))

/-- The count query for a page query; `none` if an exception is raised. -/
def countQuery (head : String) (query : Except PyError Query) : Option Query :=
  query.toOption.bind fun query =>
    (whereClause query.1).map fun where_ =>
      (" ".intercalate [head, where_], query.2.dropLast.dropLast)

def count {ρ : Type} (db : LogDatabase ρ) (table head : String) (query : Except PyError Query)
    (q : Option String) (rules : List FilterItem) : ℤ :=
  if (searchText q).isSome ∨ rules ≠ [] then
    match (countQuery head query).bind db.fetchval with
    | some val => val.getD 0
    | none => db.approximateCount table
  else db.approximateCount table

/-! ## What the queries ask for -/

/-- A listing with its texts up to `WHERE` and from `ORDER BY` on. -/
structure Listing where
  columns : List String
  source : List String
  order : List String
  /-- What stands before `WHERE`. -/
  before : String
  /-- The white space after it. -/
  gap : String
  /-- What follows `ORDER BY`. -/
  ordering : String
  countHead : String

def Listing.head (l : Listing) : String := l.before ++ ("WHERE" ++ l.gap)

def Listing.orderText (l : Listing) : String := "ORDER BY" ++ l.ordering

structure Listing.Formed (l : Listing) : Prop where
  head_words : words l.head = "SELECT" :: (l.columns ++ "FROM" :: (l.source ++ ["WHERE"]))
  order_words : words l.orderText = orderWords l.order ++ ["LIMIT"]
  count_words : words l.countHead =
    "SELECT" :: (countColumns ++ "FROM" :: (l.source ++ ["WHERE"]))
  columns : "FROM" ∉ l.columns
  source : "WHERE" ∉ l.source
  order : ∀ w ∈ l.order, w ∉ clauseWords
  before : 'W' ∉ l.before.toList
  gap : ∀ c ∈ l.gap.toList, Sql.isSpace c = true

def Listing.unpaged (l : Listing) (conditions : List (Condition Param)) : Select Param :=
  ⟨l.columns, l.source, conditions, l.order, none, none⟩

def Listing.page (l : Listing) (conditions : List (Condition Param)) (limit skip : ℤ) :
    Select Param :=
  ⟨l.columns, l.source, conditions, l.order, some (.int limit), some (.int skip)⟩

def Listing.count (l : Listing) (conditions : List (Condition Param)) : Select Param :=
  ⟨countColumns, l.source, conditions, [], none, none⟩

/-- Characters that a where clause has between its spaces. -/
def inClause (c : Char) : Bool := !Sql.isSpace c && c ≠ 'Y'

section queries
variable {l : Listing} {c : Parts Param} {cs : List (Condition ℕ)} {bound : List (Condition Param)}

theorem inClause_digit (c : Char) (h : c.isDigit = true) : inClause c = true := by
  have hrange : 48 ≤ c.toNat ∧ c.toNat ≤ 57 := Char.isDigit_iff_toNat.mp h
  have hspace : Sql.isSpace c = false := by
    simp only [Sql.isSpace, List.mem_cons, List.not_mem_nil, or_false, decide_eq_false_iff_not]
    omega
  have hne : c ≠ 'Y' := by
    rintro rfl
    exact absurd hrange.2 (by decide)
  simp [inClause, hspace, hne]

theorem inClause_own : ∀ c ∈ ownChars, inClause c = true ∨ c = ' ' := forall_mem_of_all (by decide)

theorem intercalate_page (head where_ order limit skip : String) :
    " ".intercalate [head, where_, order, limit, "OFFSET", skip ++ ";"] =
      head ++ " " ++ where_ ++ " " ++ order ++ " " ++ limit ++ " " ++ "OFFSET" ++ " " ++ skip ++
        ";" := by
  simp only [String.intercalate_cons_cons, String.intercalate_singleton, String.append_assoc]

theorem pageQuery_eq (head order : String) (c : Parts Param) (limit skip : ℤ) :
    pageQuery head order c limit skip = (head ++ " " ++ c.where_ ++ " " ++ order ++ " " ++
      placeholder (c.params.length + 1) "" ++ " " ++ "OFFSET" ++ " " ++
        placeholder (c.params.length + 2) "" ++ ";", c.params ++ [.int limit, .int skip]) := by
  have hlength : (c.params ++ [Param.int limit, .int skip]).length = c.params.length + 2 := by
    rw [List.length_append]
    rfl
  have hplaceholder (n : ℕ) : "$" ++ toString n = placeholder n "" := (if_pos rfl).symm
  rw [pageQuery, intercalate_page, hlength, hplaceholder, hplaceholder, Nat.add_sub_assoc (by decide)]

/-- The page query asks for the conditions with their own values. -/
theorem prepare_pageQuery (hl : l.Formed) (hsaid : c.Says cs bound) (hne : bound ≠ [])
    (limit skip : ℤ) :
    prepare (pageQuery l.head l.orderText c limit skip).1
      (pageQuery l.head l.orderText c limit skip).2 = some (l.page bound limit skip) := by
  have hwords : words (l.head ++ " " ++ c.where_ ++ " " ++ l.orderText ++ " " ++
      placeholder (c.params.length + 1) "" ++ " " ++ "OFFSET" ++ " " ++
        placeholder (c.params.length + 2) "" ++ ";") =
      ((l.page bound limit skip).numbered cs c.params.length).words [";"] := by
    rw [words_end, words_space, words_space, words_space, words_space, words_space,
      hl.head_words, hl.order_words, hsaid.words_where,
      words_isWord (isName_placeholder (c.params.length + 1) rfl).1,
      words_isWord (isName_placeholder (c.params.length + 2) rfl).1,
      words_isWord (by decide : IsWord "OFFSET"), Select.words, Select.numbered, Listing.page]
    simp [numberWords]
  have hprepared := hsaid.numbered.prepare hwords (.inr rfl)
    ⟨hl.columns, hl.source, hl.order⟩ hne
  rw [pageQuery_eq]
  dsimp only
  exact hprepared

theorem prepare_countText (hl : l.Formed) (hsaid : c.Says cs bound) (hne : bound ≠ []) :
    prepare (" ".intercalate [l.countHead, c.where_]) c.params = some (l.count bound) := by
  have hwords : words (" ".intercalate [l.countHead, c.where_]) =
      ((l.count bound).numbered cs c.params.length).words [] := by
    rw [String.intercalate_cons_cons, String.intercalate_singleton, words_space, hl.count_words,
      hsaid.words_where, Select.words, Select.numbered, Listing.count]
    simp [orderWords, numberWords]
  have hformed : (l.count bound).Formed :=
    ⟨(by decide : "FROM" ∉ countColumns), hl.source, fun _ hw => absurd hw (List.not_mem_nil)⟩
  have hprepared := hsaid.numbered.prepare hwords (.inl rfl) hformed hne
  have hparams : c.params ++ ((l.count bound).limit.toList ++ (l.count bound).offset.toList) =
      c.params := List.append_nil _
  rw [hparams] at hprepared
  exact hprepared

theorem stripChars_solid {cs : List Char} (h : Solid inClause cs) :
    Migrations.stripChars cs = cs := by
  have hspace {c : Char} (hc : inClause c = true) : Sql.isSpace c = false := by
    have hand := (Bool.and_eq_true_iff.mp hc).1
    rwa [Bool.not_eq_true'] at hand
  obtain ⟨first, hfirst, hfirstClause⟩ := h.head
  obtain ⟨last, hlast, hlastClause⟩ := h.last
  have hdrop {d : Char} {ds : List Char} (hd : d ∈ ds.head?) (hclause : inClause d = true) :
      ds.dropWhile Sql.isSpace = ds := by
    obtain ⟨rest, rfl⟩ := List.head?_eq_some_iff.mp hd
    exact List.dropWhile_cons_of_neg (by rw [hspace hclause]; exact Bool.false_ne_true)
  rw [Migrations.stripChars, hdrop hfirst hfirstClause, hdrop (d := last) _ hlastClause,
    List.reverse_reverse]
  rw [List.head?_reverse]
  exact hlast

/-- The where clause is cut out of the page query. -/
theorem whereClause_pageQuery (hl : l.Formed) (hsolid : Solid inClause c.where_.toList)
    (limit skip : ℤ) :
    whereClause (pageQuery l.head l.orderText c limit skip).1 = some c.where_ := by
  obtain ⟨tail, htext⟩ : ∃ tail, (pageQuery l.head l.orderText c limit skip).1.toList =
      l.before.toList ++ "WHERE".toList ++ (l.gap.toList ++ ' ' :: (c.where_.toList ++ [' '] ++
        "ORDER BY".toList ++ tail)) := by
    rw [pageQuery_eq]
    refine ⟨l.ordering.toList ++ (" " ++ placeholder (c.params.length + 1) "" ++ " " ++ "OFFSET" ++
      " " ++ placeholder (c.params.length + 2) "" ++ ";").toList, ?_⟩
    simp [Listing.head, Listing.orderText, String.toList_append]
  have hwhere : 'Y' ∉ l.gap.toList ++ ' ' :: (c.where_.toList ++ [' ']) := by
    have hgap : 'Y' ∉ l.gap.toList := fun hmem => absurd (hl.gap 'Y' hmem) (by decide)
    have hclause : 'Y' ∉ c.where_.toList := fun hmem => by
      rcases hsolid.all 'Y' hmem with hc | hc
      · exact absurd hc (by decide)
      · exact absurd hc (by decide)
    simp [hgap, hclause]
  have hfirst : splitFirst "WHERE".toList (pageQuery l.head l.orderText c limit skip).1.toList =
      some (l.before.toList, l.gap.toList ++ ' ' :: (c.where_.toList ++ [' '] ++
        "ORDER BY".toList ++ tail)) := by
    rw [htext]
    exact splitFirst_append "HERE".toList hl.before List.not_mem_nil _
  have hsecond : splitFirst "ORDER BY".toList (l.gap.toList ++ ' ' :: (c.where_.toList ++ [' '] ++
      "ORDER BY".toList ++ tail)) =
        some (l.gap.toList ++ ' ' :: (c.where_.toList ++ [' ']), tail) := by
    have hleft : 'Y' ∉ "ORDER B".toList := by decide
    have hcut := splitFirst_append [] hwhere hleft tail
    simpa [List.append_assoc] using hcut
  rw [whereClause, hfirst, Option.map_some, hsecond, Option.map_some, Option.getD_some]
  refine congrArg some (String.toList_inj.mp ?_)
  have hblank : ∀ c ∈ [' '], Sql.isSpace c = true := List.all_eq_true.mp (by decide)
  have hgap (spaces : List Char) (hspaces : ∀ d ∈ spaces, Sql.isSpace d = true) (ds : List Char) :
      Migrations.stripChars (spaces ++ ds) = Migrations.stripChars ds := by
    induction spaces with
    | nil => rfl
    | cons d spaces ih =>
      obtain ⟨hd, hrest⟩ := List.forall_mem_cons.mp hspaces
      rw [List.cons_append, Migrations.stripChars_cons_of_isSpace hd, ih hrest]
  rw [Migrations.toList_strip, String.toList_ofList, hgap _ hl.gap,
    Migrations.stripChars_cons_of_isSpace (by decide),
    Migrations.stripChars_append_of_isSpace hblank, stripChars_solid hsolid]

/-- The count query asks for the conditions of the page query with exactly their values. -/
theorem countQuery_pageQuery (hl : l.Formed) (hsolid : Solid inClause c.where_.toList)
    (limit skip : ℤ) :
    countQuery l.countHead (.ok (pageQuery l.head l.orderText c limit skip)) =
      some (" ".intercalate [l.countHead, c.where_], c.params) := by
  have hparams : (pageQuery l.head l.orderText c limit skip).2.dropLast.dropLast = c.params := by
    rw [pageQuery]
    simp
  rw [countQuery, Except.toOption, Option.bind_some, whereClause_pageQuery hl hsolid,
    Option.map_some, hparams]

end queries

end FastapiTemplate.AdminFilters
