import Mathlib.Data.List.Infix

/-!
# Patterns of `LIKE`

In a pattern `%` stands for any text, `_` for one character, and a backslash takes the next
character as it is. `ILIKE` compares characters up to their case. A text between two `%` finds the
texts that contain it if and only if it has none of these characters.
-/

namespace FastapiTemplate.LikePatterns

/-- What lower case makes of a character. It does not identify two ASCII characters, unless they are
the cases of one letter. -/
structure Folding where
  fold : Char → Char
  ascii : ∀ c d, c.toNat < 128 → d.toNat < 128 → fold c = fold d → c.toLower = d.toLower

inductive Token
  | any
  | one
  | char (c : Char)
  deriving DecidableEq, Repr

def plainToken (c : Char) : Token :=
  if c = '%' then .any else if c = '_' then .one else .char c

/-- A backslash at the end, which is an error, is kept. -/
def tokens : List Char → List Token
  | [] => []
  | [c] => [plainToken c]
  | c :: d :: cs => if c = '\\' then .char d :: tokens cs else plainToken c :: tokens (d :: cs)

variable (f : Folding)

def matchTokens : List Token → List Char → Bool
  | [], s => s.isEmpty
  | .any :: ts, s => s.tails.any (matchTokens ts)
  | .one :: _, [] => false
  | .one :: ts, _ :: s => matchTokens ts s
  | .char _ :: _, [] => false
  | .char c :: ts, d :: s => f.fold c = f.fold d && matchTokens ts s

def ilike (text pattern : String) : Bool := matchTokens f (tokens pattern.toList) text.toList

def Contains (text part : String) : Prop :=
  part.toList.map f.fold <:+: text.toList.map f.fold

instance (text part : String) : Decidable (Contains f text part) :=
  inferInstanceAs (Decidable (_ <:+: _))

def Literal (w : List Char) : Prop := '%' ∉ w ∧ '_' ∉ w ∧ '\\' ∉ w

instance (w : List Char) : Decidable (Literal w) := inferInstanceAs (Decidable (_ ∧ _))

variable {f}

theorem contains_self (text : String) : Contains f text text := List.infix_refl _

theorem contains_empty (text : String) : Contains f text "" := List.nil_infix

theorem Contains.trans {a b c : String} (h : Contains f a b) (h' : Contains f b c) :
    Contains f a c := List.IsInfix.trans h' h

theorem contains_append (text other : String) : Contains f (text ++ other) text := by
  rw [Contains, String.toList_append, List.map_append]
  exact (List.prefix_append _ _).isInfix

theorem append_contains {text part : String} (h : Contains f text part) (other : String) :
    Contains f (other ++ text) part := by
  refine Contains.trans ?_ h
  rw [Contains, String.toList_append, List.map_append]
  exact (List.suffix_append _ _).isInfix

/-! ## Texts between two `%` -/

theorem matchTokens_any {ts : List Token} {s : List Char} :
    matchTokens f (.any :: ts) s = true ↔ ∃ before after, s = before ++ after ∧
      matchTokens f ts after = true := by
  rw [matchTokens, List.any_eq_true]
  constructor
  · rintro ⟨after, hafter, hmatch⟩
    obtain ⟨before, hbefore⟩ := (List.mem_tails _ _).mp hafter
    exact ⟨before, after, hbefore.symm, hmatch⟩
  · rintro ⟨before, after, rfl, hmatch⟩
    exact ⟨after, (List.mem_tails _ _).mpr (List.suffix_append _ _), hmatch⟩

theorem tokens_literal {w : List Char} (hw : Literal w) :
    tokens (w ++ ['%']) = w.map Token.char ++ [.any] := by
  have hplain {c : Char} (hany : '%' ≠ c) (hone : '_' ≠ c) : plainToken c = .char c := by
    rw [plainToken, if_neg hany.symm, if_neg hone.symm]
  induction w with
  | nil => rfl
  | cons c w ih =>
    obtain ⟨hany, hone, hescape⟩ := hw
    rw [List.mem_cons, not_or] at hany hone hescape
    have hrest := ih ⟨hany.2, hone.2, hescape.2⟩
    obtain ⟨d, cs, hcons⟩ := List.exists_cons_of_ne_nil
      (List.append_ne_nil_of_right_ne_nil w (List.cons_ne_nil '%' []))
    rw [List.cons_append, hcons, tokens, if_neg (fun h => hescape.1 h.symm), ← hcons, hrest,
      hplain hany.1 hone.1]
    rfl

theorem matchTokens_literal {w s : List Char} :
    matchTokens f (w.map Token.char ++ [.any]) s = true ↔ w.map f.fold <+: s.map f.fold := by
  induction w generalizing s with
  | nil =>
    rw [List.map_nil, List.nil_append, matchTokens_any, List.map_nil]
    exact iff_of_true ⟨s, [], (List.append_nil s).symm, rfl⟩ List.nil_prefix
  | cons c w ih =>
    cases s with
    | nil => simp [matchTokens]
    | cons d s =>
      rw [List.map_cons, List.cons_append, matchTokens, Bool.and_eq_true, decide_eq_true_eq, ih,
        List.map_cons, List.map_cons, List.cons_prefix_cons]

def around (part : String) : String := "%" ++ part ++ "%"

theorem tokens_around (part : String) :
    tokens (around part).toList = .any :: tokens (part.toList ++ ['%']) := by
  have hchars : (around part).toList = '%' :: (part.toList ++ ['%']) := by
    simp [around, String.toList_append]
  obtain ⟨d, cs, hcons⟩ := List.exists_cons_of_ne_nil
    (List.append_ne_nil_of_right_ne_nil part.toList (List.cons_ne_nil '%' []))
  rw [hchars, hcons, tokens, if_neg (by decide)]
  rfl

theorem ilike_around_literal {part : String} (hpart : Literal part.toList) (text : String) :
    ilike f text (around part) = true ↔ Contains f text part := by
  rw [ilike, tokens_around, tokens_literal hpart, matchTokens_any, Contains]
  constructor
  · rintro ⟨before, after, hsplit, hmatch⟩
    obtain ⟨rest, hrest⟩ := matchTokens_literal.mp hmatch
    refine ⟨before.map f.fold, rest, ?_⟩
    rw [hsplit, List.map_append, ← hrest, List.append_assoc]
  · rintro ⟨before, rest, hinfix⟩
    obtain ⟨first, last, hsplit, hfirst, hlast⟩ := List.map_eq_append_iff.mp hinfix.symm
    obtain ⟨before', part', hsplit', hbefore', hpart'⟩ := List.map_eq_append_iff.mp hfirst
    refine ⟨before', part' ++ last, by rw [hsplit, hsplit', List.append_assoc], ?_⟩
    exact matchTokens_literal.mpr ⟨rest, by rw [List.map_append, hpart', hlast]⟩

/-! ## The other patterns -/

/-- A text that is found: nothing for `%` and a letter for `_`. -/
def sample : List Token → List Char
  | [] => []
  | .any :: ts => sample ts
  | .one :: ts => 'a' :: sample ts
  | .char c :: ts => c :: sample ts

theorem matchTokens_sample (ts : List Token) : matchTokens f ts (sample ts) = true := by
  induction ts with
  | nil => rfl
  | cons t ts ih =>
    cases t with
    | any => exact matchTokens_any.mpr ⟨[], sample ts, rfl, ih⟩
    | one => exact ih
    | char c => simpa [sample, matchTokens] using ih

theorem sample_plainToken (c : Char) (ts : List Token) :
    (sample (plainToken c :: ts)).length ≤ (sample ts).length + 1 := by
  unfold plainToken
  split_ifs <;> simp [sample]

theorem length_sample (w : List Char) : (sample (tokens (w ++ ['%']))).length ≤ w.length := by
  induction w using tokens.induct with
  | case1 => exact Nat.le_refl _
  | case2 c =>
    rw [List.singleton_append, tokens]
    split_ifs
    · exact Nat.le_refl _
    · exact sample_plainToken c _
  | case3 d cs ih =>
    rw [List.cons_append, List.cons_append, tokens, if_pos rfl]
    simp only [sample, List.length_cons]
    omega
  | case4 c d cs hc ih =>
    rw [List.cons_append, List.cons_append, tokens, if_neg hc]
    have hle := sample_plainToken c (tokens (d :: (cs ++ ['%'])))
    simp only [List.cons_append, List.length_cons] at ih hle ⊢
    omega

theorem fold_ne {c d : Char} (hc : c.toNat < 128) (hd : d.toNat < 128)
    (hne : c.toLower ≠ d.toLower) : f.fold c ≠ f.fold d := fun h => hne (f.ascii c d hc hd h)

/-- A sample that is the text itself shows that the text is not special. -/
theorem literal_of_sample {w : List Char}
    (h : (sample (tokens (w ++ ['%']))).map f.fold = w.map f.fold) : Literal w := by
  have hplain {c : Char} {ts : List Token} {rest : List Char} (hlength : (sample ts).length ≤ rest.length)
      (h : (sample (plainToken c :: ts)).map f.fold = (c :: rest).map f.fold) :
      c ≠ '%' ∧ c ≠ '_' ∧ (sample ts).map f.fold = rest.map f.fold := by
    unfold plainToken at h
    split_ifs at h with hany hone
    · have hlengths := congrArg List.length h
      simp only [sample, List.length_map, List.length_cons] at hlengths
      omega
    · rw [sample, List.map_cons, List.map_cons, hone] at h
      exact absurd (List.cons.inj h).1 (fold_ne (by decide) (by decide) (by decide))
    · exact ⟨hany, hone, (List.cons.inj h).2⟩
  induction w using tokens.induct with
  | case1 => decide
  | case2 c =>
    rw [List.singleton_append, tokens] at h
    split_ifs at h with hc
    · rw [hc] at h
      exact absurd (List.cons.inj h).1 (fold_ne (by decide) (by decide) (by decide))
    · obtain ⟨hany, hone, -⟩ := hplain (Nat.le_refl _) h
      simp [Literal, hc, hany, hone, eq_comm]
  | case3 d cs ih =>
    rw [List.cons_append, List.cons_append, tokens, if_pos rfl] at h
    have hlengths := congrArg List.length h
    have hle := length_sample cs
    simp only [sample, List.length_map, List.length_cons] at hlengths
    omega
  | case4 c d cs hc ih =>
    rw [List.cons_append, List.cons_append, tokens, if_neg hc] at h
    obtain ⟨hany, hone, hrest⟩ := hplain (length_sample (d :: cs)) h
    have hliteral := ih hrest
    simp only [Literal, List.mem_cons, not_or] at hliteral ⊢
    exact ⟨⟨Ne.symm hany, hliteral.1⟩, ⟨Ne.symm hone, hliteral.2.1⟩, ⟨Ne.symm hc, hliteral.2.2⟩⟩

/-- Some text is found and does not contain a part with special characters. -/
theorem exists_ilike_not_contains {part : String} (hpart : ¬ Literal part.toList) :
    ∃ text, ilike f text (around part) = true ∧ ¬ Contains f text part := by
  refine ⟨String.ofList (sample (tokens (part.toList ++ ['%']))), ?_, ?_⟩
  · rw [ilike, tokens_around, String.toList_ofList]
    exact matchTokens_any.mpr ⟨[], _, rfl, matchTokens_sample _⟩
  · intro hcontains
    rw [Contains, String.toList_ofList] at hcontains
    apply hpart
    apply literal_of_sample (f := f)
    have hle := length_sample part.toList
    refine (hcontains.eq_of_length_le ?_).symm
    rwa [List.length_map, List.length_map]

/-- What is found is found in a longer text too. -/
theorem ilike_around_cons {text part : String} (h : ilike f text (around part) = true) (c : Char) :
    ilike f (String.ofList (c :: text.toList)) (around part) = true := by
  rw [ilike, tokens_around, matchTokens_any] at h ⊢
  obtain ⟨before, after, hsplit, hmatch⟩ := h
  exact ⟨c :: before, after, by rw [String.toList_ofList, hsplit, List.cons_append], hmatch⟩

theorem exists_ilike_around (part : String) : ∃ text, ilike f text (around part) = true := by
  by_cases hpart : Literal part.toList
  · exact ⟨part, (ilike_around_literal hpart part).mpr (List.infix_refl _)⟩
  · obtain ⟨text, htext, -⟩ := exists_ilike_not_contains (f := f) hpart
    exact ⟨text, htext⟩

end FastapiTemplate.LikePatterns
