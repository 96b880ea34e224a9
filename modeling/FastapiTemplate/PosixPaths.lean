import Mathlib.Data.List.Basic

/-!
# Paths of a POSIX file system

`join` puts two paths together as `os.path.join` does, and `normalise` gives the names of an
absolute path without `.` and `..`, as `os.path.normpath` does. A path that is joined to a directory
first leaves some directories and then goes through some names, which decide whether it ends inside.
-/

namespace FastapiTemplate.Posix

abbrev Segment := List Char

structure IsName (s : Segment) : Prop where
  nonempty : s ≠ []
  notHere : s ≠ ['.']
  notUp : s ≠ ['.', '.']
  noSlash : '/' ∉ s

structure Directory where
  names : List Segment
  isName : ∀ s ∈ names, IsName s

def Directory.path (dir : Directory) : List Char := '/' :: List.intercalate ['/'] dir.names

def isAbsolute (path : List Char) : Bool := path.head? = some '/'

def join (path sub : List Char) : List Char :=
  if isAbsolute sub then sub
  else if path = [] ∨ path.getLast? = some '/' then path ++ sub
  else path ++ '/' :: sub

/-- One segment, from the directory that the names lead to, the innermost first. -/
def follow (names : List Segment) (s : Segment) : List Segment :=
  if s = [] ∨ s = ['.'] then names else if s = ['.', '.'] then names.tail else s :: names

def normalise (path : List Char) : List Segment := ((path.splitOn '/').foldl follow []).reverse

def Inside (dir : Directory) (path : List Char) : Prop := dir.names <+: normalise path

instance (dir : Directory) (path : List Char) : Decidable (Inside dir path) :=
  inferInstanceAs (Decidable (_ <+: _))

/-! ## Leaving and entering -/

/-- How many directories are left above the start, and through which names the way goes then. -/
structure Way where
  left : ℕ
  names : List Segment

def Way.follow (way : Way) (s : Segment) : Way :=
  if s = [] ∨ s = ['.'] then way
  else if s = ['.', '.'] then
    if way.names = [] then ⟨way.left + 1, []⟩ else ⟨way.left, way.names.tail⟩
  else ⟨way.left, s :: way.names⟩

def wayOf (sub : List Char) : Way := (sub.splitOn '/').foldl Way.follow ⟨0, []⟩

/-- What is left of the names of a directory at the end of a way. -/
def Way.from (way : Way) (names : List Segment) : List Segment := way.names ++ names.drop way.left

theorem Way.from_follow (way : Way) (names : List Segment) (s : Segment) :
    (way.follow s).from names = Posix.follow (way.from names) s := by
  obtain ⟨left, entered⟩ := way
  unfold Way.follow Posix.follow
  split_ifs with hhere hup hempty
  · rfl
  · simp only at hempty
    subst hempty
    simp [Way.from]
  · obtain ⟨first, rest, rfl⟩ := List.exists_cons_of_ne_nil hempty
    rfl
  · rfl

theorem foldl_follow (segments : List Segment) (way : Way) (names : List Segment) :
    segments.foldl follow (way.from names) = (segments.foldl Way.follow way).from names := by
  induction segments generalizing way with
  | nil => rfl
  | cons s rest ih => rw [List.foldl_cons, List.foldl_cons, ← Way.from_follow, ih]

/-! ## Directories -/

theorem follow_isName {s : Segment} (hs : IsName s) (names : List Segment) :
    follow names s = s :: names := by
  simp [follow, hs.nonempty, hs.notHere, hs.notUp]

theorem foldl_follow_names {entered : List Segment} (h : ∀ s ∈ entered, IsName s)
    (names : List Segment) : entered.foldl follow names = entered.reverse ++ names := by
  induction entered generalizing names with
  | nil => rfl
  | cons s rest ih =>
    rw [List.foldl_cons, follow_isName (h s List.mem_cons_self),
      ih (fun s' hs' => h s' (List.mem_cons_of_mem s hs'))]
    simp

/-- The segments of the path, with the empty one before the first slash. -/
theorem Directory.foldl_path (dir : Directory) (rest : List Segment) :
    (dir.path.splitOn '/' ++ rest).foldl follow [] = rest.foldl follow dir.names.reverse := by
  have hpath : dir.path = [] ++ '/' :: List.intercalate ['/'] dir.names := rfl
  rw [hpath, List.splitOn_append_cons_self, List.splitOn_nil]
  cases hnames : dir.names with
  | nil => rfl
  | cons first others =>
    rw [List.splitOn_intercalate '/' (fun s hs => (dir.isName s (hnames ▸ hs)).noSlash)
      (List.cons_ne_nil _ _), List.append_assoc, List.foldl_append, List.foldl_append]
    have hisName : ∀ s ∈ first :: others, IsName s := fun s hs => dir.isName s (hnames ▸ hs)
    have hempty : [([] : Segment)].foldl follow [] = [] := rfl
    rw [hempty, foldl_follow_names hisName, List.append_nil]

theorem intercalate_slash_last {names : List Segment} (hne : names ≠ [])
    (h : ∀ s ∈ names, IsName s) :
    ∃ before c, List.intercalate ['/'] names = before ++ [c] ∧ c ≠ '/' := by
  induction names with
  | nil => exact absurd rfl hne
  | cons s rest ih =>
    have hs := h s List.mem_cons_self
    cases rest with
    | nil =>
      refine ⟨s.dropLast, s.getLast hs.nonempty, ?_, ?_⟩
      · rw [List.intercalate_singleton, List.dropLast_concat_getLast]
      · exact fun hslash => hs.noSlash (hslash ▸ List.getLast_mem hs.nonempty)
    | cons second others =>
      obtain ⟨before, c, hrest, hc⟩ := ih (List.cons_ne_nil _ _)
        (fun s' hs' => h s' (List.mem_cons_of_mem s hs'))
      refine ⟨s ++ ['/'] ++ before, c, ?_, hc⟩
      rw [List.intercalate_cons_cons, hrest]
      simp only [List.append_assoc]

/-- Below the root a slash is put in between; the root has one. -/
theorem join_cases (dir : Directory) {sub : List Char} (hsub : isAbsolute sub = false) :
    (dir.names ≠ [] ∧ join dir.path sub = dir.path ++ '/' :: sub) ∨
      dir.names = [] ∧ join dir.path sub = '/' :: sub := by
  cases hnames : dir.names with
  | nil =>
    have hpath : dir.path = ['/'] := by rw [Directory.path, hnames]; rfl
    exact .inr ⟨rfl, by simp [join, hsub, hpath]⟩
  | cons first rest =>
    left
    have hisName : ∀ s ∈ first :: rest, IsName s := fun s hs => dir.isName s (hnames ▸ hs)
    obtain ⟨before, c, hlast, hc⟩ := intercalate_slash_last (List.cons_ne_nil _ _) hisName
    have hpath : dir.path = ('/' :: before) ++ [c] := by
      rw [Directory.path, hnames, hlast]
      rfl
    have hopen : ¬ (dir.path = [] ∨ dir.path.getLast? = some '/') := by
      rw [hpath, List.getLast?_concat]
      rintro (hempty | hslash)
      · exact List.append_ne_nil_of_right_ne_nil _ (List.cons_ne_nil _ _) hempty
      · exact hc (Option.some.inj hslash)
    refine ⟨List.cons_ne_nil _ _, ?_⟩
    rw [join, hsub, if_neg Bool.false_ne_true, if_neg hopen]

def Directory.enter (dir : Directory) (names : List Segment) (h : ∀ s ∈ names, IsName s) :
    Directory where
  names := dir.names ++ names
  isName s hs := (List.mem_append.mp hs).elim (dir.isName s) (h s)

theorem intercalate_append {names others : List Segment} (hnames : names ≠ [])
    (hothers : others ≠ []) : List.intercalate ['/'] (names ++ others) =
      List.intercalate ['/'] names ++ '/' :: List.intercalate ['/'] others := by
  induction names with
  | nil => exact absurd rfl hnames
  | cons s rest ih =>
    cases rest with
    | nil =>
      obtain ⟨first, more, rfl⟩ := List.exists_cons_of_ne_nil hothers
      simp [List.intercalate_cons_cons]
    | cons second more =>
      have hrest := ih (List.cons_ne_nil _ _)
      rw [List.cons_append] at hrest
      rw [List.cons_append, List.cons_append, List.intercalate_cons_cons, hrest,
        List.intercalate_cons_cons]
      simp only [List.append_assoc]

theorem join_enter (dir : Directory) {names : List Segment} (h : ∀ s ∈ names, IsName s)
    (hne : names ≠ []) :
    join dir.path (List.intercalate ['/'] names) = (dir.enter names h).path := by
  have hsub : isAbsolute (List.intercalate ['/'] names) = false := by
    obtain ⟨first, rest, rfl⟩ := List.exists_cons_of_ne_nil hne
    have hfirst := h first List.mem_cons_self
    obtain ⟨c, cs, rfl⟩ := List.exists_cons_of_ne_nil hfirst.nonempty
    have hc : c ≠ '/' := fun hslash => hfirst.noSlash (hslash ▸ List.mem_cons_self)
    cases rest <;> simp [isAbsolute, List.intercalate_cons_cons, hc]
  rcases join_cases dir hsub with ⟨hbelow, hjoin⟩ | ⟨hroot, hjoin⟩
  · rw [hjoin]
    exact congrArg ('/' :: ·) (intercalate_append hbelow hne).symm
  · have hnames : dir.names ++ names = names := by rw [hroot, List.nil_append]
    rw [hjoin]
    exact congrArg (fun names => '/' :: List.intercalate ['/'] names) hnames.symm

theorem normalise_join (dir : Directory) {sub : List Char} (hsub : isAbsolute sub = false) :
    normalise (join dir.path sub) =
      dir.names.take (dir.names.length - (wayOf sub).left) ++ (wayOf sub).names.reverse := by
  have hfold : ((join dir.path sub).splitOn '/').foldl follow [] =
      (wayOf sub).from dir.names.reverse := by
    rw [wayOf, ← foldl_follow]
    rcases join_cases dir hsub with ⟨-, hjoin⟩ | ⟨hroot, hjoin⟩
    · rw [hjoin, List.splitOn_append_cons_self, dir.foldl_path]
      rfl
    · have hslash : '/' :: sub = [] ++ '/' :: sub := rfl
      rw [hjoin, hroot, hslash, List.splitOn_append_cons_self]
      rfl
  rw [normalise, hfold, Way.from, List.reverse_append, List.drop_reverse, List.reverse_reverse]

theorem normalise_absolute {sub : List Char} (hsub : isAbsolute sub = true) (path : List Char) :
    normalise (join path sub) = (wayOf sub).names.reverse := by
  have hfold : (sub.splitOn '/').foldl follow [] = (wayOf sub).from [] := by
    rw [wayOf, ← foldl_follow]
    rfl
  rw [join, if_pos hsub, normalise, hfold, Way.from]
  simp

/-! ## Staying inside -/

/-- The way leaves no directory, or goes back through the names of those that it left; an absolute
path leaves all of them. -/
def Stays (dir : Directory) (sub : List Char) : Prop :=
  dir.names.drop (if isAbsolute sub then 0 else dir.names.length - (wayOf sub).left) <+:
    (wayOf sub).names.reverse

theorem inside_join_iff (dir : Directory) (sub : List Char) :
    Inside dir (join dir.path sub) ↔ Stays dir sub := by
  unfold Inside Stays
  cases hsub : isAbsolute sub with
  | true => rw [normalise_absolute hsub, if_pos rfl, List.drop_zero]
  | false =>
    rw [normalise_join dir hsub, if_neg Bool.false_ne_true]
    set kept := dir.names.length - (wayOf sub).left
    conv_lhs => lhs; rw [← List.take_append_drop kept dir.names]
    exact List.prefix_append_right_inj _

end FastapiTemplate.Posix
