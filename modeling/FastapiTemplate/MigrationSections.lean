import FastapiTemplate.MigrationFiles
import Mathlib.Data.List.TakeWhile

/-!
# The sections of a migration file

`parse_migration_sql` takes every comment that mentions `down` for the marker of the second
section. The results are about files of the form of the test: a line `-- up`, a block, a line
`-- down` and a block.
-/

namespace FastapiTemplate.Migrations

/-! ## The lines of a stripped text -/

def stripChars (cs : List Char) : List Char :=
  ((cs.dropWhile Sql.isSpace).reverse.dropWhile Sql.isSpace).reverse

theorem toList_strip (s : String) : (Sql.strip s).toList = stripChars s.toList := by
  unfold Sql.strip
  exact String.toList_ofList

theorem stripChars_cons_of_isSpace {c : Char} (hc : Sql.isSpace c = true) (cs : List Char) :
    stripChars (c :: cs) = stripChars cs := by
  unfold stripChars
  rw [List.dropWhile_cons_of_pos hc]

theorem stripChars_append_of_isSpace {spaces : List Char}
    (hspaces : ∀ c ∈ spaces, Sql.isSpace c = true) (cs : List Char) :
    stripChars (cs ++ spaces) = stripChars cs := by
  unfold stripChars
  rw [List.dropWhile_append]
  split_ifs with hempty
  · rw [List.dropWhile_eq_nil_iff.mpr hspaces, List.isEmpty_iff.mp hempty]
  · rw [List.reverse_append, List.dropWhile_append_of_pos]
    intro c hc
    exact hspaces c (List.mem_reverse.mp hc)

theorem exists_stripChars (cs : List Char) : ∃ before after,
    (∀ c ∈ before, Sql.isSpace c = true) ∧ (∀ c ∈ after, Sql.isSpace c = true) ∧
      cs = before ++ (stripChars cs ++ after) := by
  refine ⟨cs.takeWhile Sql.isSpace,
    ((cs.dropWhile Sql.isSpace).reverse.takeWhile Sql.isSpace).reverse, ?_, ?_, ?_⟩
  · intro c hc
    exact List.mem_takeWhile_imp hc
  · intro c hc
    exact List.mem_takeWhile_imp (List.mem_reverse.mp hc)
  · unfold stripChars
    rw [← List.reverse_append, List.takeWhile_append_dropWhile, List.reverse_reverse,
      List.takeWhile_append_dropWhile]

/-- The lines of a text that are not blank, each without the white space around it. -/
def contentLines (cs : List Char) : List (List Char) :=
  ((cs.splitOn '\n').map stripChars).filter (· ≠ [])

theorem contentLines_cons_of_isSpace {c : Char} (hc : Sql.isSpace c = true) (cs : List Char) :
    contentLines (c :: cs) = contentLines cs := by
  unfold contentLines
  rw [List.splitOn_cons_eq_if_modifyHead]
  split_ifs with hbreak
  · have hblank : stripChars [] = [] := rfl
    rw [List.map_cons, List.filter_cons, hblank]
    rfl
  · cases cs.splitOn '\n' with
    | nil => rfl
    | cons line lines =>
      rw [List.modifyHead_cons, List.map_cons, stripChars_cons_of_isSpace hc, List.map_cons]

theorem contentLines_append_left {spaces : List Char}
    (hspaces : ∀ c ∈ spaces, Sql.isSpace c = true) (cs : List Char) :
    contentLines (spaces ++ cs) = contentLines cs := by
  induction spaces with
  | nil => rfl
  | cons c spaces ih =>
    rw [List.cons_append, contentLines_cons_of_isSpace (hspaces c List.mem_cons_self)]
    exact ih (fun c hc => hspaces c (List.mem_cons_of_mem _ hc))

theorem contentLines_of_isSpace {spaces : List Char}
    (hspaces : ∀ c ∈ spaces, Sql.isSpace c = true) : contentLines spaces = [] := by
  have happend := contentLines_append_left hspaces []
  rwa [List.append_nil] at happend

theorem isSpace_of_stripChars_nil {cs : List Char} (h : stripChars cs = []) :
    ∀ c ∈ cs, Sql.isSpace c = true := by
  obtain ⟨before, after, hbefore, hafter, hcs⟩ := exists_stripChars cs
  rw [h, List.nil_append] at hcs
  intro c hc
  rw [hcs] at hc
  exact (List.mem_append.mp hc).elim (hbefore c) (hafter c)

/-- White space at the end lengthens the last line and adds blank ones. -/
theorem splitOn_append_of_isSpace {spaces : List Char}
    (hspaces : ∀ c ∈ spaces, Sql.isSpace c = true) (cs : List Char) :
    ∃ line more lines lines', (cs ++ spaces).splitOn '\n' = (line ++ more) :: lines ∧
      cs.splitOn '\n' = line :: lines' ∧ (∀ c ∈ more, Sql.isSpace c = true) ∧
      (lines.map stripChars).filter (· ≠ []) = (lines'.map stripChars).filter (· ≠ []) := by
  induction cs with
  | nil =>
    have hblank : ∀ line ∈ spaces.splitOn '\n', stripChars line = [] := by
      have hnil := contentLines_of_isSpace hspaces
      unfold contentLines at hnil
      intro line hline
      by_contra hne
      exact List.filter_eq_nil_iff.mp hnil _ (List.mem_map_of_mem hline) (decide_eq_true hne)
    obtain ⟨more, lines, hsplit⟩ := List.exists_cons_of_ne_nil (List.splitOn_ne_nil '\n' spaces)
    rw [hsplit] at hblank
    refine ⟨[], more, lines, [], hsplit, rfl, ?_, ?_⟩
    · exact isSpace_of_stripChars_nil (hblank more List.mem_cons_self)
    · apply List.filter_eq_nil_iff.mpr
      intro line hline hne
      obtain ⟨former, hformer, rfl⟩ := List.mem_map.mp hline
      exact of_decide_eq_true hne (hblank former (List.mem_cons_of_mem _ hformer))
  | cons c cs ih =>
    obtain ⟨line, more, lines, lines', hlong, hshort, hmore, hlines⟩ := ih
    rw [List.cons_append, List.splitOn_cons_eq_if_modifyHead, List.splitOn_cons_eq_if_modifyHead,
      hlong, hshort]
    split_ifs with hbreak
    · refine ⟨[], [], _, _, rfl, rfl, ?_, ?_⟩
      · rintro c ⟨⟩
      · rw [List.map_cons, List.map_cons, stripChars_append_of_isSpace hmore, List.filter_cons,
          List.filter_cons, hlines]
    · exact ⟨c :: line, more, lines, lines', rfl, rfl, hmore, hlines⟩

theorem contentLines_append_right {spaces : List Char}
    (hspaces : ∀ c ∈ spaces, Sql.isSpace c = true) (cs : List Char) :
    contentLines (cs ++ spaces) = contentLines cs := by
  obtain ⟨line, more, lines, lines', hlong, hshort, hmore, hlines⟩ :=
    splitOn_append_of_isSpace hspaces cs
  unfold contentLines
  rw [hlong, hshort, List.map_cons, List.map_cons, stripChars_append_of_isSpace hmore,
    List.filter_cons, List.filter_cons, hlines]

theorem contentLines_stripChars (cs : List Char) :
    contentLines (stripChars cs) = contentLines cs := by
  obtain ⟨before, after, hbefore, hafter, hcs⟩ := exists_stripChars cs
  calc contentLines (stripChars cs) = contentLines (stripChars cs ++ after) :=
        (contentLines_append_right hafter _).symm
    _ = contentLines (before ++ (stripChars cs ++ after)) :=
        (contentLines_append_left hbefore _).symm
    _ = contentLines cs := by rw [← hcs]

theorem contentLines_intercalate {lines : List String} (hlines : ∀ l ∈ lines, '\n' ∉ l.toList) :
    contentLines ("\n".intercalate lines).toList =
      (lines.map (fun l => stripChars l.toList)).filter (· ≠ []) := by
  cases lines with
  | nil => rfl
  | cons line lines =>
    unfold contentLines
    have hsplit : ("\n".intercalate (line :: lines)).toList.splitOn '\n' =
        (line :: lines).map String.toList := by
      rw [String.toList_intercalate]
      apply List.splitOn_intercalate '\n' _ (List.cons_ne_nil _ _)
      intro chars hchars
      have hmem : chars ∈ (line :: lines).map String.toList := hchars
      obtain ⟨l, hl, rfl⟩ := List.mem_map.mp hmem
      exact hlines l hl
    rw [hsplit, List.map_map]
    rfl

/-! ## The two sections -/

def isComment (line : String) : Bool := "--".toList <+: stripChars line.toList

def isSql (line : String) : Bool := stripChars line.toList ≠ [] ∧ ¬ isComment line

def mentions (word line : String) : Bool := word.toList <:+: (Sql.strip line).toLower.toList

/-- A comment that is taken for the marker of the second section. -/
def flips (line : String) : Bool := isComment line ∧ mentions "down" line

def stays (line : String) : Bool := !flips line

def isUpComment (line : String) : Bool := isComment line && mentions "up" line

theorem toLower_eq_dash_iff (c : Char) : c.toLower = '-' ↔ c = '-' := by
  constructor
  · intro h
    unfold Char.toLower at h
    split_ifs at h with hupper
    · have hval := congrArg Char.val h
      obtain ⟨hlow, hhigh⟩ := hupper
      have h1 := UInt32.le_iff_toNat_le.mp hlow
      have h2 := UInt32.le_iff_toNat_le.mp hhigh
      have hnat := congrArg UInt32.toNat hval
      rw [UInt32.toNat_add] at hnat
      change 65 ≤ c.val.toNat at h1
      change c.val.toNat ≤ 90 at h2
      change (c.val.toNat + 32) % 4294967296 = 45 at hnat
      omega
    · exact h
  · rintro rfl
    rfl

theorem dashes_prefix_toLower_iff (s : String) :
    "--".toList <+: s.toLower.toList ↔ "--".toList <+: s.toList := by
  unfold String.toLower
  rw [String.toList_map]
  change ['-', '-'] <+: _ ↔ ['-', '-'] <+: _
  cases s.toList with
  | nil => exact Iff.rfl
  | cons c cs =>
    cases cs with
    | nil => simp
    | cons d cs =>
      rw [List.map_cons, List.map_cons, List.cons_prefix_cons, List.cons_prefix_cons,
        List.cons_prefix_cons, List.cons_prefix_cons, eq_comm, toLower_eq_dash_iff, eq_comm,
        @eq_comm _ '-' d.toLower, toLower_eq_dash_iff, @eq_comm _ '-' d]
      simp only [List.nil_prefix]

theorem isComment_iff {line : String} :
    isComment line = true ↔ "--".toList <+: (Sql.strip line).toLower.toList := by
  rw [dashes_prefix_toLower_iff, toList_strip]
  exact decide_eq_true_iff

theorem mentions_iff {word line : String} : mentions word line = true ↔
    word.toList <:+: (Sql.strip line).toLower.toList := decide_eq_true_iff

theorem flips_iff {line : String} :
    flips line = true ↔ isComment line = true ∧ mentions "down" line = true := decide_eq_true_iff

theorem stays_iff {line : String} : stays line = true ↔ ¬ flips line = true := by
  unfold stays
  rw [Bool.not_eq_true', Bool.not_eq_true]

theorem isUpComment_iff {line : String} : isUpComment line = true ↔
    isComment line = true ∧ mentions "up" line = true := Bool.and_eq_true_iff

section lines
variable {line : String} {lines : List String}

theorem sections_cons_of_flips (h : flips line = true) (inUp : Bool) :
    sections inUp (line :: lines) = sections false lines := by
  obtain ⟨hcomment, hdown⟩ := flips_iff.mp h
  rw [sections]
  exact if_pos ⟨isComment_iff.mp hcomment, mentions_iff.mp hdown⟩

theorem sections_cons_of_upComment (h : stays line = true) (hup : isUpComment line = true) :
    sections true (line :: lines) = sections true lines := by
  rw [stays_iff, flips_iff, isComment_iff, mentions_iff] at h
  rw [isUpComment_iff, isComment_iff, mentions_iff] at hup
  rw [sections]
  exact (if_neg h).trans (if_pos ⟨hup.1, hup.2, rfl⟩)

theorem sections_cons_true (h : stays line = true) (hup : ¬ isUpComment line = true) :
    sections true (line :: lines) = (line :: (sections true lines).1, (sections true lines).2) := by
  rw [stays_iff, flips_iff, isComment_iff, mentions_iff] at h
  rw [isUpComment_iff, isComment_iff, mentions_iff] at hup
  rw [sections]
  exact (if_neg h).trans (if_neg (fun hall => hup ⟨hall.1, hall.2.1⟩))

theorem sections_cons_false (h : stays line = true) :
    sections false (line :: lines) = ((sections false lines).1, line :: (sections false lines).2) := by
  rw [stays_iff, flips_iff, isComment_iff, mentions_iff] at h
  rw [sections]
  exact (if_neg h).trans (if_neg (fun hall => Bool.false_ne_true hall.2.2))

end lines

theorem sections_false (lines : List String) : sections false lines = ([], lines.filter stays) := by
  induction lines with
  | nil => rfl
  | cons line lines ih =>
    by_cases hstays : stays line = true
    · rw [sections_cons_false hstays, ih, List.filter_cons_of_pos hstays]
    · have hflips := not_not.mp (fun h => hstays (stays_iff.mpr h))
      rw [sections_cons_of_flips hflips, ih, List.filter_cons_of_neg hstays]

/-- The first section ends at the first comment that mentions `down`. -/
theorem sections_true (lines : List String) : sections true lines =
    ((lines.takeWhile stays).filter (!isUpComment ·), (lines.dropWhile stays).filter stays) := by
  induction lines with
  | nil => rfl
  | cons line lines ih =>
    by_cases hstays : stays line = true
    · rw [List.takeWhile_cons_of_pos hstays, List.dropWhile_cons_of_pos hstays]
      by_cases hup : isUpComment line = true
      · rw [sections_cons_of_upComment hstays hup, ih, List.filter_cons_of_neg]
        rw [hup]
        exact Bool.false_ne_true
      · rw [sections_cons_true hstays hup, ih, List.filter_cons_of_pos]
        exact Bool.not_eq_true' _ ▸ Bool.eq_false_of_not_eq_true hup
    · have hflips := not_not.mp (fun h => hstays (stays_iff.mpr h))
      rw [sections_cons_of_flips hflips, sections_false, List.takeWhile_cons_of_neg hstays,
        List.dropWhile_cons_of_neg hstays, List.filter_cons_of_neg hstays]
      rfl

theorem not_isSql_of_isComment {line : String} (h : isComment line = true) :
    isSql line = false := by
  unfold isSql
  rw [h]
  simp

/-- Lines that are not comments are dropped nowhere. -/
theorem filter_isSql_of_comments {p : String → Bool} (hp : ∀ l, isSql l = true → p l = true)
    (lines : List String) : (lines.filter p).filter isSql = lines.filter isSql := by
  rw [List.filter_filter]
  apply List.filter_congr
  intro l _
  cases hsql : isSql l with
  | false => rfl
  | true => exact hp l hsql

theorem stays_of_isSql {l : String} (h : isSql l = true) : stays l = true := by
  apply stays_iff.mpr
  intro hflips
  rw [not_isSql_of_isComment (flips_iff.mp hflips).1] at h
  cases h

theorem not_isUpComment_of_isSql {l : String} (h : isSql l = true) : (!isUpComment l) = true := by
  rw [Bool.not_eq_true']
  by_contra hup
  have hcomment := (isUpComment_iff.mp (Bool.eq_true_of_not_eq_false hup)).1
  rw [not_isSql_of_isComment hcomment] at h
  cases h

/-! ## Files with both markers -/

def IsMarker (word line : String) : Prop := (Sql.strip line).toLower = "-- " ++ word

/-- The lines of a file with both markers, and a block behind each of them. -/
structure Sectioned (sql : String) (up down : List String) : Prop where
  exists_markers : ∃ upMarker downMarker, IsMarker "up" upMarker ∧ IsMarker "down" downMarker ∧
    splitLines [] sql.toList = upMarker :: (up ++ downMarker :: down)

/-- A text of lines of the file in their order; those that are no comments are the lines of the
block. -/
def HoldsBlock (sql text : String) (block : List String) : Prop :=
  ∃ kept, kept.Sublist (splitLines [] sql.toList) ∧ text = Sql.strip ("\n".intercalate kept) ∧
    kept.filter isSql = block.filter isSql

def SectionsSeparated (sql : String) (up down : List String) : Prop :=
  (∃ text, parseMigrationSql sql "up" = .ok text ∧ HoldsBlock sql text up) ∧
    ∃ text, parseMigrationSql sql "down" = .ok text ∧ HoldsBlock sql text down

theorem toLower_eq_self {s : String} (h : s.toList.map Char.toLower = s.toList) :
    s.toLower = s := String.toList_inj.mp (String.toList_map.trans h)

theorem IsMarker.isComment {word line : String} (h : IsMarker word line) :
    isComment line = true := by
  rw [isComment_iff, h, String.toList_append]
  exact ⟨' ' :: word.toList, rfl⟩

theorem IsMarker.flips {line : String} (h : IsMarker "down" line) : flips line = true := by
  refine flips_iff.mpr ⟨h.isComment, mentions_iff.mpr ?_⟩
  rw [h, String.toList_append]
  exact (List.suffix_append _ _).isInfix

theorem IsMarker.isUpComment {line : String} (h : IsMarker "up" line) :
    isUpComment line = true := by
  refine isUpComment_iff.mpr ⟨h.isComment, mentions_iff.mpr ?_⟩
  rw [h, String.toList_append]
  exact (List.suffix_append _ _).isInfix

theorem IsMarker.stays {line : String} (h : IsMarker "up" line) : stays line = true := by
  rw [stays_iff, flips_iff, mentions_iff, h, String.toList_append]
  rintro ⟨-, hinfix⟩
  change ['d', 'o', 'w', 'n'] <:+: ['-', '-', ' ', 'u', 'p'] at hinfix
  exact absurd hinfix (by decide)

theorem takeWhile_append_of_neg {α : Type} {p : α → Bool} {a : α} (ha : ¬ p a = true)
    (before after : List α) :
    (before ++ a :: after).takeWhile p = before.takeWhile p := by
  induction before with
  | nil => exact List.takeWhile_cons_of_neg ha
  | cons b before ih =>
    rw [List.cons_append, List.takeWhile_cons, List.takeWhile_cons, ih]

theorem dropWhile_append_of_neg {α : Type} {p : α → Bool} {a : α} (ha : ¬ p a = true)
    (before after : List α) :
    (before ++ a :: after).dropWhile p = before.dropWhile p ++ a :: after := by
  induction before with
  | nil => exact List.dropWhile_cons_of_neg ha
  | cons b before ih =>
    rw [List.cons_append, List.dropWhile_cons, List.dropWhile_cons, ih]
    split_ifs <;> rfl

section files
variable {sql : String} {up down : List String}

def keptUp (sql : String) : List String := (sections true (splitLines [] sql.toList)).1

def keptDown (sql : String) : List String := (sections true (splitLines [] sql.toList)).2

theorem keptUp_sublist (sql : String) : (keptUp sql).Sublist (splitLines [] sql.toList) := by
  unfold keptUp
  rw [sections_true]
  exact List.filter_sublist.trans (List.takeWhile_sublist _)

theorem keptDown_sublist (sql : String) : (keptDown sql).Sublist (splitLines [] sql.toList) := by
  unfold keptDown
  rw [sections_true]
  exact List.filter_sublist.trans (List.dropWhile_sublist _)

theorem parseMigrationSql_up (sql : String) :
    parseMigrationSql sql "up" = .ok (Sql.strip ("\n".intercalate (keptUp sql))) := by
  have hlower : "up".toLower = "up" := toLower_eq_self rfl
  unfold parseMigrationSql
  dsimp only
  rw [hlower]
  exact (if_neg (fun h => h.1 rfl)).trans (if_pos rfl)

theorem parseMigrationSql_down (sql : String) :
    parseMigrationSql sql "down" = .ok (Sql.strip ("\n".intercalate (keptDown sql))) := by
  have hlower : "down".toLower = "down" := toLower_eq_self rfl
  unfold parseMigrationSql
  dsimp only
  rw [hlower]
  exact (if_neg (fun h => h.2 rfl)).trans (if_neg (by decide))

theorem Sectioned.keptUp_filter (h : Sectioned sql up down) :
    (keptUp sql).filter isSql = (up.takeWhile stays).filter isSql := by
  obtain ⟨upMarker, downMarker, hup, hdown, hlines⟩ := h.exists_markers
  have hend : ¬ stays downMarker = true := fun hstays => stays_iff.mp hstays hdown.flips
  unfold keptUp
  rw [sections_true, filter_isSql_of_comments (fun l hl => not_isUpComment_of_isSql hl), hlines,
    List.takeWhile_cons_of_pos hup.stays, takeWhile_append_of_neg hend, List.filter_cons_of_neg]
  rw [not_isSql_of_isComment hup.isComment]
  exact Bool.false_ne_true

theorem Sectioned.keptDown_filter (h : Sectioned sql up down) :
    (keptDown sql).filter isSql = (up.dropWhile stays).filter isSql ++ down.filter isSql := by
  obtain ⟨upMarker, downMarker, hup, hdown, hlines⟩ := h.exists_markers
  have hend : ¬ stays downMarker = true := fun hstays => stays_iff.mp hstays hdown.flips
  unfold keptDown
  rw [sections_true, filter_isSql_of_comments (fun l hl => stays_of_isSql hl), hlines,
    List.dropWhile_cons_of_pos hup.stays, dropWhile_append_of_neg hend, List.filter_append,
    @List.filter_cons_of_neg _ _ downMarker]
  rw [not_isSql_of_isComment hdown.isComment]
  exact Bool.false_ne_true

theorem splitLines_noBreak (line cs : List Char) (hline : '\n' ∉ line) :
    ∀ l ∈ splitLines line cs, '\n' ∉ l.toList := by
  have hfirst : '\n' ∉ (String.ofList line.reverse).toList := by
    rw [String.toList_ofList]
    exact fun h => hline (List.mem_reverse.mp h)
  fun_induction splitLines line cs with
  | case1 => rintro l ⟨⟩
  | case2 line hne => exact List.forall_mem_singleton.mpr hfirst
  | case3 line cs ih =>
    exact List.forall_mem_cons.mpr ⟨hfirst, ih List.not_mem_nil List.not_mem_nil⟩
  | case4 line c cs hcr hbreak ih =>
    exact List.forall_mem_cons.mpr ⟨hfirst, ih List.not_mem_nil List.not_mem_nil⟩
  | case5 line c cs hcr hbreak ih =>
    have hc : '\n' ∉ c :: line := by
      intro hmem
      rcases List.mem_cons.mp hmem with rfl | hmem
      · exact hbreak rfl
      · exact hline hmem
    apply ih hc
    rw [String.toList_ofList]
    exact fun h => hc (List.mem_reverse.mp h)

/-- The lines that are no comments can be read off the text. -/
theorem contentLines_strip_intercalate {lines : List String}
    (hlines : ∀ l ∈ lines, '\n' ∉ l.toList) :
    (contentLines (Sql.strip ("\n".intercalate lines)).toList).filter
        (fun cs => ¬ "--".toList <+: cs) =
      (lines.filter isSql).map (fun l => stripChars l.toList) := by
  rw [toList_strip, contentLines_stripChars, contentLines_intercalate hlines, List.filter_filter,
    List.filter_map]
  apply congrArg
  apply List.filter_congr
  intro l _
  unfold isSql isComment
  simp only [Function.comp_apply, decide_not, Bool.decide_and, decide_eq_true_eq, Bool.and_comm]

theorem length_filter_isSql {lines lines' : List String}
    (hlines : ∀ l ∈ lines, '\n' ∉ l.toList) (hlines' : ∀ l ∈ lines', '\n' ∉ l.toList)
    (h : Sql.strip ("\n".intercalate lines) = Sql.strip ("\n".intercalate lines')) :
    (lines.filter isSql).length = (lines'.filter isSql).length := by
  have hsame := contentLines_strip_intercalate hlines
  rw [h, contentLines_strip_intercalate hlines'] at hsame
  have hlength := congrArg List.length hsame
  rw [List.length_map, List.length_map] at hlength
  exact hlength.symm

/-- No line of the first block behind a comment that mentions `down` is SQL. -/
def NoSqlAfterDownComment (up : List String) : Prop :=
  ∀ before line after, up = before ++ line :: after →
    isComment line = true → mentions "down" line = true → ∀ l ∈ after, ¬ isSql l = true

theorem noSqlAfterDownComment_iff :
    NoSqlAfterDownComment up ↔ (up.dropWhile stays).filter isSql = [] := by
  rw [List.filter_eq_nil_iff]
  constructor
  · intro h
    cases hdrop : up.dropWhile stays with
    | nil => rintro l ⟨⟩
    | cons line after =>
      have hstays : ¬ stays line = true := by
        intro hstays
        have hhead := List.head?_dropWhile_not stays up
        rw [hdrop] at hhead
        exact absurd hstays (by simpa using hhead)
      obtain ⟨hcomment, hdown⟩ := flips_iff.mp (not_not.mp (fun hf => hstays (stays_iff.mpr hf)))
      have hsplit : up = up.takeWhile stays ++ line :: after := by
        rw [← hdrop, List.takeWhile_append_dropWhile]
      intro l hl
      rcases List.mem_cons.mp hl with rfl | hl
      · rw [not_isSql_of_isComment hcomment]
        exact Bool.false_ne_true
      · exact h _ line after hsplit hcomment hdown l hl
  · rintro h before line after rfl hcomment hdown l hl
    apply h l
    have hstays : ¬ stays line = true := fun hstays =>
      stays_iff.mp hstays (flips_iff.mpr ⟨hcomment, hdown⟩)
    rw [dropWhile_append_of_neg hstays]
    exact List.mem_append_right _ (List.mem_cons_of_mem _ hl)

theorem Sectioned.noSql_of_holdsBlock (h : Sectioned sql up down)
    (hup : HoldsBlock sql (Sql.strip ("\n".intercalate (keptUp sql))) up) :
    (up.dropWhile stays).filter isSql = [] := by
  obtain ⟨kept, hkept, htext, hblock⟩ := hup
  have hsplit : up.filter isSql =
      (up.takeWhile stays).filter isSql ++ (up.dropWhile stays).filter isSql := by
    rw [← List.filter_append, List.takeWhile_append_dropWhile]
  have hnoBreak := splitLines_noBreak [] sql.toList List.not_mem_nil
  have hlength := length_filter_isSql
    (fun l hl => hnoBreak l ((keptUp_sublist sql).subset hl))
    (fun l hl => hnoBreak l (hkept.subset hl)) htext
  rw [h.keptUp_filter, hblock, hsplit, List.length_append] at hlength
  apply List.eq_nil_of_length_eq_zero
  omega

/-- The sections are separated exactly if no comment of the first block that mentions `down` has
SQL behind it. -/
theorem sections_separated_iff (h : Sectioned sql up down) :
    SectionsSeparated sql up down ↔ NoSqlAfterDownComment up := by
  rw [noSqlAfterDownComment_iff]
  constructor
  · rintro ⟨⟨text, htext, hup⟩, -⟩
    rw [parseMigrationSql_up, Except.ok.injEq] at htext
    rw [← htext] at hup
    exact h.noSql_of_holdsBlock hup
  · intro hnone
    have htake : (up.takeWhile stays).filter isSql = up.filter isSql := by
      conv_rhs => rw [← List.takeWhile_append_dropWhile (p := stays) (l := up)]
      rw [List.filter_append, hnone, List.append_nil]
    refine ⟨⟨_, parseMigrationSql_up sql, keptUp sql, keptUp_sublist sql, rfl, ?_⟩,
      ⟨_, parseMigrationSql_down sql, keptDown sql, keptDown_sublist sql, rfl, ?_⟩⟩
    · rw [h.keptUp_filter, htake]
    · rw [h.keptDown_filter, hnone, List.nil_append]

theorem isMarker_up : IsMarker "up" "-- up" := toLower_eq_self rfl

theorem isMarker_down : IsMarker "down" "-- down" := toLower_eq_self rfl

/-- Two tables. A comment of the first block mentions `up`. -/
def tablesFile : String :=
  "-- up\nCREATE TABLE t ();\n-- look up\nCREATE TABLE u ();\n-- down\n-- undo\nDROP TABLE u;\nDROP TABLE t;"

def tablesUp : List String := ["CREATE TABLE t ();", "-- look up", "CREATE TABLE u ();"]

def tablesDown : List String := ["-- undo", "DROP TABLE u;", "DROP TABLE t;"]

theorem tablesUp_stays : ∀ l ∈ tablesUp, stays l = true := by
  have hlookup : ¬ mentions "down" "-- look up" = true := by
    rw [mentions_iff]
    unfold String.toLower
    rw [String.toList_map, toList_strip]
    decide
  refine List.forall_mem_cons.mpr ⟨stays_of_isSql (by decide), List.forall_mem_cons.mpr ⟨?_, ?_⟩⟩
  · exact stays_iff.mpr (fun h => hlookup (flips_iff.mp h).2)
  · exact List.forall_mem_singleton.mpr (stays_of_isSql (by decide))

theorem sections_separated_tablesFile :
    Sectioned tablesFile tablesUp tablesDown ∧
      (SectionsSeparated tablesFile tablesUp tablesDown ↔ NoSqlAfterDownComment tablesUp) ∧
      SectionsSeparated tablesFile tablesUp tablesDown := by
  have hsectioned : Sectioned tablesFile tablesUp tablesDown :=
    ⟨"-- up", "-- down", isMarker_up, isMarker_down, by decide +kernel⟩
  have hiff := sections_separated_iff hsectioned
  refine ⟨hsectioned, hiff, hiff.mpr (noSqlAfterDownComment_iff.mpr ?_)⟩
  rw [List.dropWhile_eq_nil_iff.mpr tablesUp_stays]
  rfl

/-- A comment of the first block has `down` in a word. -/
def shutDownFile : String :=
  "-- up\n-- shut down jobs\nCREATE TABLE t ();\n-- down\nDROP TABLE t;"

theorem shutDown_flips : flips "-- shut down jobs" = true := by
  refine flips_iff.mpr ⟨by decide, mentions_iff.mpr ?_⟩
  unfold String.toLower
  rw [String.toList_map, toList_strip]
  exact ⟨"-- shut ".toList, " jobs".toList, by decide⟩

theorem shutDown_not_separated :
    Sectioned shutDownFile ["-- shut down jobs", "CREATE TABLE t ();"] ["DROP TABLE t;"] ∧
      parseMigrationSql shutDownFile "up" = .ok "" ∧
      parseMigrationSql shutDownFile "down" = .ok "CREATE TABLE t ();\nDROP TABLE t;" ∧
      ¬ SectionsSeparated shutDownFile ["-- shut down jobs", "CREATE TABLE t ();"]
        ["DROP TABLE t;"] := by
  have hlines : splitLines [] shutDownFile.toList = "-- up" ::
      (["-- shut down jobs", "CREATE TABLE t ();"] ++ "-- down" :: ["DROP TABLE t;"]) := by decide
  have hsectioned : Sectioned shutDownFile ["-- shut down jobs", "CREATE TABLE t ();"]
      ["DROP TABLE t;"] := ⟨"-- up", "-- down", isMarker_up, isMarker_down, hlines⟩
  have hcreate : isSql "CREATE TABLE t ();" = true := by decide
  have hdrop : isSql "DROP TABLE t;" = true := by decide
  have hsections : sections true (splitLines [] shutDownFile.toList) =
      ([], ["CREATE TABLE t ();", "DROP TABLE t;"]) := by
    rw [hlines, sections_cons_of_upComment isMarker_up.stays isMarker_up.isUpComment,
      List.cons_append, sections_cons_of_flips shutDown_flips, List.singleton_append,
      sections_cons_false (stays_of_isSql hcreate), sections_cons_of_flips isMarker_down.flips,
      sections_cons_false (stays_of_isSql hdrop), sections]
  refine ⟨hsectioned, ?_, ?_, ?_⟩
  · rw [parseMigrationSql_up, keptUp, hsections]
    exact congrArg Except.ok (by decide)
  · rw [parseMigrationSql_down, keptDown, hsections]
    exact congrArg Except.ok (by decide)
  · rintro ⟨⟨text, htext, hup⟩, -⟩
    rw [parseMigrationSql_up, Except.ok.injEq] at htext
    rw [← htext] at hup
    have hnone := hsectioned.noSql_of_holdsBlock hup
    rw [List.dropWhile_cons_of_neg (fun h => stays_iff.mp h shutDown_flips)] at hnone
    exact List.filter_eq_nil_iff.mp hnone "CREATE TABLE t ();"
      (List.mem_cons_of_mem _ List.mem_cons_self) hcreate

end files

end FastapiTemplate.Migrations
