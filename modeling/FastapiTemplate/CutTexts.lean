import FastapiTemplate.NumberedPlaceholders

/-!
# Texts that are cut at a word

`splitFirst` cuts a text at the first occurrence of a word. The joined texts of conditions have no
characters but spaces, those of their names and a few of their own, and no space at either end, so
that they can be cut out of a query again.
-/

namespace FastapiTemplate.SelectTexts

/-! ## The first occurrence -/

def splitFirst (sep : List Char) : List Char → Option (List Char × List Char)
  | [] => if sep = [] then some ([], []) else none
  | c :: cs =>
    if sep <+: c :: cs then some ([], (c :: cs).drop sep.length)
    else (splitFirst sep cs).map (fun x => (c :: x.1, x.2))

theorem splitFirst_prefix {sep : List Char} (hne : sep ≠ []) (after : List Char) :
    splitFirst sep (sep ++ after) = some ([], after) := by
  obtain ⟨c, cs, rfl⟩ := List.exists_cons_of_ne_nil hne
  rw [List.cons_append, splitFirst, ← List.cons_append, if_pos (List.prefix_append _ _),
    List.drop_left]

/-- A character of the word that occurs neither before the word nor, in it, further to the left
marks its first occurrence. -/
theorem splitFirst_append {left : List Char} (right : List Char) {before : List Char} {c : Char}
    (hbefore : c ∉ before) (hleft : c ∉ left) (after : List Char) :
    splitFirst (left ++ c :: right) (before ++ (left ++ c :: right) ++ after) =
      some (before, after) := by
  induction before with
  | nil => exact splitFirst_prefix (List.append_ne_nil_of_right_ne_nil _ (List.cons_ne_nil _ _)) _
  | cons d before ih =>
    have hearlier : ¬ left ++ c :: right <+: d :: (before ++ (left ++ c :: right) ++ after) := by
      rintro ⟨rest, hrest⟩
      have hlonger : (left ++ [c]).length ≤ (d :: before ++ left).length := by
        simp only [List.length_append, List.length_cons, List.length_nil]
        omega
      have hprefix : left ++ [c] <+: d :: before ++ left := by
        have hword : left ++ [c] <+: d :: (before ++ (left ++ c :: right) ++ after) := by
          refine ⟨right ++ rest, ?_⟩
          rw [← hrest]
          simp only [List.append_assoc, List.cons_append, List.nil_append]
        have hstart : d :: before ++ left <+: d :: (before ++ (left ++ c :: right) ++ after) := by
          refine ⟨c :: right ++ after, ?_⟩
          simp only [List.append_assoc, List.cons_append]
        exact List.prefix_of_prefix_length_le hword hstart hlonger
      have hmem : c ∈ d :: before ++ left :=
        hprefix.subset (List.mem_append_right left List.mem_cons_self)
      rcases List.mem_append.mp hmem with hmem | hmem
      · exact hbefore hmem
      · exact hleft hmem
    rw [List.cons_append, List.cons_append, splitFirst, if_neg hearlier,
      ih (fun hmem => hbefore (List.mem_cons_of_mem _ hmem))]
    rfl

/-! ## Texts without spaces at their ends -/

/-- What is decided for each character of a text. -/
theorem forall_mem_of_all {cs : List Char} {P : Char → Prop} [DecidablePred P]
    (h : cs.all (fun c => P c) = true) : ∀ c ∈ cs, P c :=
  fun c hc => of_decide_eq_true (List.all_eq_true.mp h c hc)

/-- Spaces stand only between other characters, which satisfy `p`. -/
structure Solid (p : Char → Bool) (cs : List Char) : Prop where
  head : ∃ c ∈ cs.head?, p c = true
  last : ∃ c ∈ cs.getLast?, p c = true
  all : ∀ c ∈ cs, p c = true ∨ c = ' '

/-- The characters of conditions that are not those of names. -/
def ownChars : List Char := "$:()1=AND OR".toList

section solid
variable {p : Char → Bool}

theorem Solid.ne_nil {cs : List Char} (h : Solid p cs) : cs ≠ [] := by
  rintro rfl
  obtain ⟨c, hc, -⟩ := h.head
  cases hc

theorem solid_of_all {cs : List Char} (hne : cs ≠ []) (hall : ∀ c ∈ cs, p c = true) :
    Solid p cs where
  head := ⟨cs.head hne, List.head?_eq_some_head hne, hall _ (List.head_mem hne)⟩
  last := ⟨cs.getLast hne, List.getLast?_eq_some_getLast hne, hall _ (List.getLast_mem hne)⟩
  all c hc := .inl (hall c hc)

theorem Solid.append {a b between : List Char} (ha : Solid p a) (hb : Solid p b)
    (hbetween : ∀ c ∈ between, p c = true ∨ c = ' ') : Solid p (a ++ between ++ b) where
  head := by
    obtain ⟨c, hc, hp⟩ := ha.head
    refine ⟨c, ?_, hp⟩
    rw [List.append_assoc, List.head?_append_of_ne_nil _ ha.ne_nil]
    exact hc
  last := by
    obtain ⟨c, hc, hp⟩ := hb.last
    refine ⟨c, ?_, hp⟩
    rw [List.getLast?_append_of_ne_nil _ hb.ne_nil]
    exact hc
  all := by
    intro c hc
    rcases List.mem_append.mp hc with hc | hc
    · rcases List.mem_append.mp hc with hc | hc
      · exact ha.all c hc
      · exact hbetween c hc
    · exact hb.all c hc

theorem solid_intercalate {separator : String} {texts : List String} (hne : texts ≠ [])
    (hseparator : ∀ c ∈ separator.toList, p c = true ∨ c = ' ')
    (htexts : ∀ text ∈ texts, Solid p text.toList) : Solid p (separator.intercalate texts).toList := by
  induction texts with
  | nil => exact absurd rfl hne
  | cons text texts ih =>
    cases texts with
    | nil =>
      rw [String.intercalate_singleton]
      exact htexts text List.mem_cons_self
    | cons next texts =>
      rw [String.intercalate_cons_cons, String.toList_append, String.toList_append]
      exact (htexts text List.mem_cons_self).append
        (ih (List.cons_ne_nil _ _) (fun t ht => htexts t (List.mem_cons_of_mem _ ht))) hseparator

end solid

/-! ## Texts of conditions -/

section conditions
variable {ν : Type}

def Comparison.names (c : Comparison ν) : List String := [c.column, c.operator, c.cast]

def Condition.names (c : Condition ν) : List String := c.comparisons.flatMap Comparison.names

theorem Comparison.bind_names {params : List ν} {c : Comparison ℕ} {b : Comparison ν}
    (h : c.bind params = some b) : b.names = c.names := by
  obtain ⟨v, -, rfl⟩ := Option.map_eq_some_iff.mp h
  rfl

theorem map_eq_of_mapM {α β γ : Type} {f : α → Option β} {g : α → γ} {g' : β → γ}
    (hf : ∀ x y, f x = some y → g' y = g x) {xs : List α} {ys : List β}
    (h : xs.mapM f = some ys) : ys.map g' = xs.map g := by
  induction xs generalizing ys with
  | nil =>
    rw [← Option.some.inj h]
    rfl
  | cons x xs ih =>
    rw [List.mapM_cons] at h
    obtain ⟨y, hy, hrest⟩ := Option.bind_eq_some_iff.mp h
    obtain ⟨ys', hys', hcons⟩ := Option.bind_eq_some_iff.mp hrest
    rw [← Option.some.inj hcons, List.map_cons, List.map_cons, hf x y hy, ih hys']

theorem Condition.bind_names {params : List ν} {c : Condition ℕ} {b : Condition ν}
    (h : c.bind params = some b) : b.names = c.names := by
  cases c with
  | always =>
    rw [← Option.some.inj h]
    rfl
  | one c =>
    obtain ⟨d, hd, rfl⟩ := Option.map_eq_some_iff.mp h
    exact congrArg (· ++ []) (Comparison.bind_names hd)
  | any cs =>
    obtain ⟨ds, hds, rfl⟩ := Option.map_eq_some_iff.mp h
    have hnames := map_eq_of_mapM (fun _ _ => Comparison.bind_names) hds
    rw [names, names, comparisons, comparisons, List.flatMap_def, List.flatMap_def, hnames]

variable {p : Char → Bool} (hdigit : ∀ c, c.isDigit = true → p c = true)
  (hown : ∀ c ∈ ownChars, p c = true ∨ c = ' ')
include hdigit hown

theorem solid_placeholder (n : ℕ) {cast : String} (hcast : cast.toList.all p = true) :
    Solid p (placeholder n cast).toList := by
  have hmark (c : Char) (hc : c ∈ ['$', ':']) : p c = true := by
    have hne : ∀ c ∈ ['$', ':'], c ∈ ownChars ∧ c ≠ ' ' := forall_mem_of_all (by decide)
    exact (hown c (hne c hc).1).resolve_right (hne c hc).2
  rw [toList_placeholder]
  refine solid_of_all (List.cons_ne_nil _ _) ?_
  intro c hc
  rcases List.mem_cons.mp hc with rfl | hc
  · exact hmark '$' (by decide)
  · rcases List.mem_append.mp hc with hc | hc
    · exact hdigit c (isDigit_toDigits n c hc)
    · split_ifs at hc
      · cases hc
      · rcases List.mem_cons.mp hc with rfl | hc
        · exact hmark ':' (by decide)
        · rcases List.mem_cons.mp hc with rfl | hc
          · exact hmark ':' (by decide)
          · exact List.all_eq_true.mp hcast c hc

theorem Comparison.solid_text {c : Comparison ℕ} (hc : c.Formed)
    (hnames : ∀ name ∈ c.names, name.toList.all p = true) : Solid p c.text.toList := by
  have hname (name : String) (hformed : IsName name) (hmem : name ∈ c.names) :
      Solid p name.toList := by
    refine solid_of_all ?_ (List.all_eq_true.mp (hnames name hmem))
    intro hnil
    exact hformed.1.1 (String.toList_eq_nil_iff.mp hnil)
  have hspace : ∀ d ∈ (" " : String).toList, p d = true ∨ d = ' ' := by
    intro d hd
    exact .inr (by simpa using hd)
  rw [Comparison.text, String.toList_append, String.toList_append, String.toList_append,
    String.toList_append]
  refine (hname _ hc.1 (by simp [names])).append ?_ hspace |>.append ?_ hspace
  · exact hname _ hc.2.1 (by simp [names])
  · exact solid_placeholder hdigit hown c.value (hnames c.cast (by simp [names]))

theorem Condition.solid_text {c : Condition ℕ} (hc : c.Formed)
    (hnames : ∀ name ∈ c.names, name.toList.all p = true) : Solid p c.text.toList := by
  have hchar (c : Char) (hc : c ∈ ['(', ')', '1', '=']) : p c = true := by
    have hne : ∀ c ∈ ['(', ')', '1', '='], c ∈ ownChars ∧ c ≠ ' ' :=
      forall_mem_of_all (by decide)
    exact (hown c (hne c hc).1).resolve_right (hne c hc).2
  cases c with
  | always =>
    have hchars : ∀ c ∈ Condition.always.text.toList, c ∈ ['(', ')', '1', '='] :=
      forall_mem_of_all (by decide)
    exact solid_of_all (by decide) (fun d hd => hchar d (hchars d hd))
  | one c => exact Comparison.solid_text hdigit hown hc (by simpa [names, comparisons] using hnames)
  | any cs =>
    have hor : ∀ d ∈ (" OR " : String).toList, p d = true ∨ d = ' ' := by
      intro d hd
      have hall : ∀ d ∈ (" OR " : String).toList, d ∈ ownChars := forall_mem_of_all (by decide)
      exact hown d (hall d hd)
    have hinner : Solid p (" OR ".intercalate (cs.map Comparison.text)).toList := by
      refine solid_intercalate (by simpa using hc.1) hor ?_
      intro text htext
      obtain ⟨d, hd, rfl⟩ := List.mem_map.mp htext
      refine Comparison.solid_text hdigit hown (hc.2 d hd) (fun name hname => ?_)
      exact hnames name (List.mem_flatMap.mpr ⟨d, hd, hname⟩)
    have hbracket (d : Char) (hd : d ∈ ['(', ')', '1', '=']) : Solid p [d] := by
      refine solid_of_all (List.cons_ne_nil _ _) (fun e he => ?_)
      rw [List.mem_singleton.mp he]
      exact hchar d hd
    have hnothing : ∀ d ∈ ([] : List Char), p d = true ∨ d = ' ' := fun d hd => absurd hd (by simp)
    have hopen := (hbracket '(' (by decide)).append hinner hnothing
    have hclose := hopen.append (hbracket ')' (by decide)) hnothing
    rw [Condition.text, String.toList_append, String.toList_append]
    simpa using hclose

/-- Joined conditions have no space at their ends and no character that their names do not have. -/
theorem Parts.Says.solid {c : Parts ν} {cs : List (Condition ℕ)} {bound : List (Condition ν)}
    (h : c.Says cs bound) (hnames : ∀ b ∈ bound, ∀ name ∈ b.names, name.toList.all p = true) :
    Solid p c.where_.toList := by
  have hand : ∀ d ∈ (" AND " : String).toList, p d = true ∨ d = ' ' := by
    intro d hd
    have hall : ∀ d ∈ (" AND " : String).toList, d ∈ ownChars := forall_mem_of_all (by decide)
    exact hown d (hall d hd)
  rw [h.joined]
  refine solid_intercalate (by simpa using h.conditions_ne) hand ?_
  intro text htext
  obtain ⟨d, hd, rfl⟩ := List.mem_map.mp htext
  refine Condition.solid_text hdigit hown (h.numbered.formed d hd) ?_
  have hsame := map_eq_of_mapM (fun _ _ => Condition.bind_names) h.numbered.binds
  have hmem : d.names ∈ bound.map Condition.names := by
    rw [hsame]
    exact List.mem_map_of_mem hd
  obtain ⟨b, hb, hbd⟩ := List.mem_map.mp hmem
  rw [← hbd]
  exact hnames b hb

end conditions

end FastapiTemplate.SelectTexts
