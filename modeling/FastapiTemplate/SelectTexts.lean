import Mathlib.Data.List.Basic
import Mathlib.Data.Nat.Notation

/-!
# Texts of queries with numbered placeholders

`readSelect` reads a `SELECT` whose conditions are joined by `AND`: each is `1=1`, a comparison of a
column with a placeholder, or comparisons in brackets that are joined by `OR`. What is written with
`Condition.text` is read back.
-/

namespace FastapiTemplate.SelectTexts

/-! ## Words -/

def isSpace (c : Char) : Bool := c = ' ' || c = '\n' || c = '\t' || c = '\r'

def isMark (c : Char) : Bool := c = '(' || c = ')' || c = ',' || c = ';'

def isPlain (c : Char) : Bool := !isSpace c && !isMark c

def flush (word : List Char) : List String := if word = [] then [] else [String.ofList word]

/-- The words of a text of which one word is already begun. -/
def wordsFrom : List Char → List Char → List String
  | word, [] => flush word
  | word, c :: cs =>
    if isSpace c then flush word ++ wordsFrom [] cs
    else if isMark c then flush word ++ String.ofList [c] :: wordsFrom [] cs
    else wordsFrom (word ++ [c]) cs

def words (text : String) : List String := wordsFrom [] text.toList

def IsWord (w : String) : Prop := w ≠ "" ∧ w.toList.all isPlain = true

instance (w : String) : Decidable (IsWord w) := inferInstanceAs (Decidable (_ ∧ _))

section words

theorem wordsFrom_append_space (word cs ds : List Char) {c : Char} (hc : isSpace c = true) :
    wordsFrom word (cs ++ c :: ds) = wordsFrom word cs ++ wordsFrom [] ds := by
  induction cs generalizing word with
  | nil => simp only [List.nil_append, wordsFrom, hc, if_true]
  | cons d cs ih =>
    simp only [List.cons_append, wordsFrom, ih]
    split_ifs <;> simp only [List.append_assoc, List.cons_append]

theorem wordsFrom_append_mark (word cs ds : List Char) {c : Char} (hc : isMark c = true)
    (hspace : isSpace c = false) :
    wordsFrom word (cs ++ c :: ds) =
      wordsFrom word cs ++ String.ofList [c] :: wordsFrom [] ds := by
  induction cs generalizing word with
  | nil => simp only [List.nil_append, wordsFrom, hc, hspace, Bool.false_eq_true, if_false, if_true]
  | cons d cs ih =>
    simp only [List.cons_append, wordsFrom, ih]
    split_ifs <;> simp only [List.append_assoc, List.cons_append]

theorem wordsFrom_plain (word : List Char) {cs : List Char} (h : cs.all isPlain = true) :
    wordsFrom word cs = flush (word ++ cs) := by
  induction cs generalizing word with
  | nil => rw [wordsFrom, List.append_nil]
  | cons c cs ih =>
    obtain ⟨hc, hcs⟩ := Bool.and_eq_true_iff.mp h
    obtain ⟨hspace, hmark⟩ := Bool.and_eq_true_iff.mp hc
    rw [Bool.not_eq_true'] at hspace hmark
    simp only [wordsFrom, hspace, hmark, Bool.false_eq_true, if_false]
    rw [ih _ hcs, List.append_assoc, List.singleton_append]

theorem words_space (a b : String) : words (a ++ " " ++ b) = words a ++ words b := by
  have hchars : (a ++ " " ++ b).toList = a.toList ++ ' ' :: b.toList := by
    simp [String.toList_append]
  rw [words, hchars]
  exact wordsFrom_append_space [] _ _ rfl

theorem words_open (b : String) : words ("(" ++ b) = "(" :: words b := by
  have hchars : ("(" ++ b).toList = [] ++ '(' :: b.toList := by simp [String.toList_append]
  rw [words, hchars]
  exact wordsFrom_append_mark [] _ _ rfl rfl

theorem words_close (a : String) : words (a ++ ")") = words a ++ [")"] := by
  have hchars : (a ++ ")").toList = a.toList ++ ')' :: [] := by simp [String.toList_append]
  rw [words, hchars]
  exact wordsFrom_append_mark [] _ _ rfl rfl

theorem words_end (a : String) : words (a ++ ";") = words a ++ [";"] := by
  have hchars : (a ++ ";").toList = a.toList ++ ';' :: [] := by simp [String.toList_append]
  rw [words, hchars]
  exact wordsFrom_append_mark [] _ _ rfl rfl

theorem words_isWord {w : String} (h : IsWord w) : words w = [w] := by
  have hne : w.toList ≠ [] := by
    intro hnil
    exact h.1 (String.toList_eq_nil_iff.mp hnil)
  rw [words, wordsFrom_plain [] h.2, List.nil_append, flush, if_neg hne, String.ofList_toList]

end words

/-! ## Queries -/

/-- `column operator value::cast`; without a cast this is the empty text. -/
structure Comparison (ν : Type) where
  column : String
  operator : String
  value : ν
  cast : String
  deriving DecidableEq, Repr

inductive Condition (ν : Type)
  | always
  | one (c : Comparison ν)
  | any (cs : List (Comparison ν))
  deriving DecidableEq, Repr

def Condition.comparisons {ν : Type} : Condition ν → List (Comparison ν)
  | .always => []
  | .one c => [c]
  | .any cs => cs

def Condition.anyColumn {ν : Type} (columns : List String) (operator : String) (v : ν) :
    Condition ν :=
  .any (columns.map (fun column => ⟨column, operator, v, ""⟩))

structure Select (ν : Type) where
  columns : List String
  source : List String
  conditions : List (Condition ν)
  order : List String
  limit : Option ν
  offset : Option ν
  deriving DecidableEq, Repr

/-! ## Reading -/

def readPlaceholder (word : String) : Option (ℕ × String) :=
  match word.toList with
  | '$' :: rest =>
    if rest.takeWhile Char.isDigit = [] then none
    else
      let n := Nat.ofDigitChars 10 (rest.takeWhile Char.isDigit) 0
      match rest.dropWhile Char.isDigit with
      | [] => some (n, "")
      | ':' :: ':' :: cast => some (n, String.ofList cast)
      | _ => none
  | _ => none

def readComparison : List String → Option (Comparison ℕ)
  | [column, operator, operand] =>
    (readPlaceholder operand).map (fun x => ⟨column, operator, x.1, x.2⟩)
  | _ => none

def readCondition (ws : List String) : Option (Condition ℕ) :=
  if ws = ["1=1"] then some .always
  else if ws.head? = some "(" ∧ ws.getLast? = some ")" then
    ((ws.tail.dropLast.splitOn "OR").mapM readComparison).map .any
  else (readComparison ws).map .one

/-- The words that end the conditions or the order. -/
def clauseWords : List String := ["ORDER", "LIMIT", "OFFSET", ";"]

def cut (stops ws : List String) : List String × List String :=
  (ws.takeWhile (· ∉ stops), ws.dropWhile (· ∉ stops))

def readOrder : List String → List String × List String
  | "ORDER" :: "BY" :: rest => cut clauseWords rest
  | rest => ([], rest)

def readNumber (name : String) : List String → Option (Option ℕ × List String)
  | word :: operand :: rest =>
    if word = name then (readPlaceholder operand).map (fun x => (some x.1, rest))
    else some (none, word :: operand :: rest)
  | rest => some (none, rest)

def readSelect (text : String) : Option (Select ℕ) :=
  let columns := cut ["FROM"] ((words text).drop 1)
  let source := cut ["WHERE"] (columns.2.drop 1)
  let where_ := cut clauseWords (source.2.drop 1)
  let order := readOrder where_.2
  ((where_.1.splitOn "AND").mapM readCondition).bind fun conditions =>
    (readNumber "LIMIT" order.2).bind fun limit =>
      (readNumber "OFFSET" limit.2).bind fun offset =>
        if (words text).head? = some "SELECT" ∧ (offset.2 = [] ∨ offset.2 = [";"]) then
          some ⟨columns.1, source.1, conditions, order.1, limit.1, offset.1⟩
        else none

/-! ## Writing -/

def placeholder (n : ℕ) (cast : String) : String :=
  if cast = "" then "$" ++ toString n else "$" ++ toString n ++ "::" ++ cast

def Comparison.text (c : Comparison ℕ) : String :=
  c.column ++ " " ++ c.operator ++ " " ++ placeholder c.value c.cast

def Comparison.words (c : Comparison ℕ) : List String :=
  [c.column, c.operator, placeholder c.value c.cast]

def Condition.text : Condition ℕ → String
  | .always => "1=1"
  | .one c => c.text
  | .any cs => "(" ++ " OR ".intercalate (cs.map Comparison.text) ++ ")"

def Condition.words : Condition ℕ → List String
  | .always => ["1=1"]
  | .one c => c.words
  | .any cs => "(" :: ["OR"].intercalate (cs.map Comparison.words) ++ [")"]

def keywords : List String :=
  ["FROM", "WHERE", "AND", "OR", "ORDER", "LIMIT", "OFFSET", ";", "(", ")", "1=1"]

def IsName (w : String) : Prop := IsWord w ∧ w ∉ keywords

instance (w : String) : Decidable (IsName w) := inferInstanceAs (Decidable (_ ∧ _))

def Comparison.Formed {ν : Type} (c : Comparison ν) : Prop :=
  IsName c.column ∧ IsName c.operator ∧ c.cast.toList.all isPlain = true

instance {ν : Type} (c : Comparison ν) : Decidable c.Formed :=
  inferInstanceAs (Decidable (_ ∧ _))

def Condition.Formed {ν : Type} : Condition ν → Prop
  | .always => True
  | .one c => c.Formed
  | .any cs => cs ≠ [] ∧ ∀ c ∈ cs, c.Formed

section reading

theorem isDigit_plain {c : Char} (h : c.isDigit = true) : isPlain c = true := by
  have hne : ∀ d : Char, d.isDigit = false → c ≠ d := by
    rintro d hd rfl
    rw [hd] at h
    cases h
  have hspace : isSpace c = false := by
    simp only [isSpace, hne ' ' rfl, hne '\n' rfl, hne '\t' rfl, hne '\r' rfl, decide_false,
      Bool.or_self]
  have hmark : isMark c = false := by
    simp only [isMark, hne '(' rfl, hne ')' rfl, hne ',' rfl, hne ';' rfl, decide_false,
      Bool.or_self]
  rw [isPlain, hspace, hmark]
  rfl

theorem toList_placeholder (n : ℕ) (cast : String) : (placeholder n cast).toList =
    '$' :: (Nat.toDigits 10 n ++ if cast = "" then [] else ':' :: ':' :: cast.toList) := by
  unfold placeholder
  split_ifs <;> simp [String.toList_append]

theorem isDigit_toDigits (n : ℕ) : ∀ c ∈ Nat.toDigits 10 n, c.isDigit = true := fun _ hc =>
  Nat.isDigit_of_mem_toDigits (by decide) (by decide) hc

theorem readPlaceholder_placeholder (n : ℕ) (cast : String) :
    readPlaceholder (placeholder n cast) = some (n, cast) := by
  unfold readPlaceholder
  rw [toList_placeholder]
  simp only [List.takeWhile_append_of_pos (isDigit_toDigits n),
    List.dropWhile_append_of_pos (isDigit_toDigits n)]
  by_cases hcast : cast = ""
  · subst hcast
    simp [Nat.toDigits_ne_nil, Nat.ofDigitChars_ten_toDigits]
  · have hcolon : (':').isDigit = false := rfl
    simp [hcast, hcolon, Nat.toDigits_ne_nil, Nat.ofDigitChars_ten_toDigits]

theorem placeholder_notMem_keywords (n : ℕ) (cast : String) : placeholder n cast ∉ keywords := by
  intro hmem
  have hhead : ∀ w ∈ keywords, w.toList.head? ≠ some '$' := by decide
  apply hhead _ hmem
  rw [toList_placeholder]
  rfl

theorem isName_placeholder (n : ℕ) {cast : String} (hcast : cast.toList.all isPlain = true) :
    IsName (placeholder n cast) := by
  have hplain : (placeholder n cast).toList.all isPlain = true := by
    rw [toList_placeholder, List.all_cons, List.all_append]
    have hdigits : (Nat.toDigits 10 n).all isPlain = true :=
      List.all_eq_true.mpr (fun c hc => isDigit_plain (isDigit_toDigits n c hc))
    split_ifs <;> simp [hdigits, hcast, isPlain, isSpace, isMark]
  refine ⟨⟨?_, hplain⟩, placeholder_notMem_keywords n cast⟩
  intro hempty
  have hchars := toList_placeholder n cast
  rw [hempty] at hchars
  cases hchars

theorem Comparison.words_text {c : Comparison ℕ} (h : c.Formed) :
    SelectTexts.words c.text = c.words := by
  obtain ⟨hcolumn, hoperator, hcast⟩ := h
  rw [Comparison.text, words_space, words_space, words_isWord hcolumn.1, words_isWord hoperator.1,
    words_isWord (isName_placeholder c.value hcast).1]
  rfl

/-- The words of joined texts. -/
theorem words_intercalate {keyword : String} (hkeyword : IsWord keyword) (texts : List String) :
    words ((" " ++ keyword ++ " ").intercalate texts) =
      [keyword].intercalate (texts.map words) := by
  induction texts with
  | nil => rfl
  | cons text texts ih =>
    cases texts with
    | nil => simp
    | cons next texts =>
      have hjoined : text ++ (" " ++ keyword ++ " ") ++
          (" " ++ keyword ++ " ").intercalate (next :: texts) = text ++ " " ++ keyword ++ " " ++
            (" " ++ keyword ++ " ").intercalate (next :: texts) := by
        simp only [String.append_assoc]
      rw [String.intercalate_cons_cons, hjoined, words_space, words_space, ih,
        words_isWord hkeyword]
      simp [List.intercalate_cons_cons]

theorem Condition.words_text {c : Condition ℕ} (h : c.Formed) :
    SelectTexts.words c.text = c.words := by
  cases c with
  | always => decide
  | one c => exact Comparison.words_text h
  | any cs =>
    have htexts : (cs.map Comparison.text).map SelectTexts.words = cs.map Comparison.words := by
      rw [List.map_map]
      exact List.map_congr_left (fun c hc => Comparison.words_text (h.2 c hc))
    have hor : (" OR " : String) = " " ++ "OR" ++ " " := rfl
    rw [Condition.text, words_close, words_open, hor, words_intercalate (by decide), htexts]
    rfl

/-- The words of conditions that are joined. -/
theorem words_conditions {cs : List (Condition ℕ)} (h : ∀ c ∈ cs, c.Formed) :
    words (" AND ".intercalate (cs.map Condition.text)) =
      ["AND"].intercalate (cs.map Condition.words) := by
  have hand : (" AND " : String) = " " ++ "AND" ++ " " := rfl
  have htexts : (cs.map Condition.text).map words = cs.map Condition.words := by
    rw [List.map_map]
    exact List.map_congr_left (fun c hc => Condition.words_text (h c hc))
  rw [hand, words_intercalate (by decide), htexts]

theorem readComparison_words (c : Comparison ℕ) : readComparison c.words = some c := by
  rw [Comparison.words, readComparison, readPlaceholder_placeholder]
  rfl

theorem Comparison.notMem_words {c : Comparison ℕ} (h : c.Formed) {keyword : String}
    (hkeyword : keyword ∈ keywords) : keyword ∉ c.words := by
  have hplaceholder := isName_placeholder c.value h.2.2
  intro hmem
  simp only [Comparison.words, List.mem_cons, List.not_mem_nil, or_false] at hmem
  rcases hmem with rfl | rfl | rfl
  · exact h.1.2 hkeyword
  · exact h.2.1.2 hkeyword
  · exact hplaceholder.2 hkeyword

theorem mapM_readComparison (cs : List (Comparison ℕ)) :
    (cs.map Comparison.words).mapM readComparison = some cs := by
  induction cs with
  | nil => rfl
  | cons c cs ih => rw [List.map_cons, List.mapM_cons, readComparison_words, ih]; rfl

theorem readCondition_words {c : Condition ℕ} (h : c.Formed) : readCondition c.words = some c := by
  cases c with
  | always => rfl
  | one c =>
    have hcolumn : c.column ≠ "(" := by
      intro hopen
      exact h.1.2 (hopen ▸ by decide)
    have hshort : c.words ≠ ["1=1"] := by simp [Comparison.words]
    have hhead : ¬ (c.words.head? = some "(" ∧ c.words.getLast? = some ")") := by
      rintro ⟨hopen, -⟩
      exact hcolumn (Option.some.inj hopen)
    rw [Condition.words, readCondition, if_neg hshort, if_neg hhead, readComparison_words]
    rfl
  | any cs =>
    have hshort : "(" :: ["OR"].intercalate (cs.map Comparison.words) ++ [")"] ≠ ["1=1"] := by simp
    have hbrackets : ("(" :: ["OR"].intercalate (cs.map Comparison.words) ++ [")"]).head? =
        some "(" ∧ ("(" :: ["OR"].intercalate (cs.map Comparison.words) ++ [")"]).getLast? =
          some ")" := ⟨rfl, by rw [List.getLast?_concat]⟩
    have hsplit : (["OR"].intercalate (cs.map Comparison.words)).splitOn "OR" =
        cs.map Comparison.words := by
      refine List.splitOn_intercalate "OR" ?_ (by simpa using h.1)
      intro ws hws
      obtain ⟨c, hc, rfl⟩ := List.mem_map.mp hws
      exact Comparison.notMem_words (h.2 c hc) (by decide)
    rw [Condition.words, readCondition, if_neg hshort, if_pos hbrackets, List.cons_append,
      List.tail_cons, List.dropLast_concat, hsplit, mapM_readComparison]
    rfl

theorem mapM_readCondition {cs : List (Condition ℕ)} (h : ∀ c ∈ cs, c.Formed) :
    (cs.map Condition.words).mapM readCondition = some cs := by
  induction cs with
  | nil => rfl
  | cons c cs ih =>
    obtain ⟨hc, hcs⟩ := List.forall_mem_cons.mp h
    rw [List.map_cons, List.mapM_cons, readCondition_words hc, ih hcs]
    rfl

theorem cut_append {stops a b : List String} (ha : ∀ w ∈ a, w ∉ stops)
    (hb : ∀ w ∈ b.head?, w ∈ stops) : cut stops (a ++ b) = (a, b) := by
  have ha' : ∀ w ∈ a, decide (w ∉ stops) = true := fun w hw => decide_eq_true (ha w hw)
  have hstop : b.takeWhile (· ∉ stops) = [] ∧ b.dropWhile (· ∉ stops) = b := by
    cases b with
    | nil => exact ⟨rfl, rfl⟩
    | cons w rest =>
      have hw : w ∈ stops := hb w rfl
      simp [hw]
  rw [cut, List.takeWhile_append_of_pos ha', List.dropWhile_append_of_pos ha', hstop.1, hstop.2,
    List.append_nil]

def orderWords (order : List String) : List String :=
  if order = [] then [] else "ORDER" :: "BY" :: order

def numberWords (name : String) : Option ℕ → List String
  | none => []
  | some n => [name, placeholder n ""]

theorem readOrder_orderWords {order rest : List String} (horder : ∀ w ∈ order, w ∉ clauseWords)
    (hrest : ∀ w ∈ rest.head?, w ∈ ["LIMIT", "OFFSET", ";"]) :
    readOrder (orderWords order ++ rest) = (order, rest) := by
  unfold orderWords
  split_ifs with hempty
  · subst hempty
    cases rest with
    | nil => rfl
    | cons w rest =>
      have hw : w ≠ "ORDER" := by
        rintro rfl
        exact absurd (hrest _ rfl) (by decide)
      rw [List.nil_append, readOrder]
      intro rest' hcons
      exact hw (List.cons.inj hcons).1
  · refine cut_append horder (fun w hw => ?_)
    exact List.mem_cons_of_mem _ (hrest w hw)

theorem readNumber_numberWords {name : String} (n : Option ℕ) {rest : List String}
    (hrest : rest.head? ≠ some name) :
    readNumber name (numberWords name n ++ rest) = some (n, rest) := by
  cases n with
  | none =>
    rcases rest with _ | ⟨w, _ | ⟨operand, rest⟩⟩
    · rfl
    · rfl
    · have hw : w ≠ name := fun heq => hrest (congrArg some heq)
      simp only [numberWords, List.nil_append, readNumber, if_neg hw]
  | some n =>
    simp only [numberWords, List.cons_append, List.nil_append, readNumber, if_true,
      readPlaceholder_placeholder, Option.map_some]

theorem mem_intercalate {x w : String} {ls : List (List String)} (h : w ∈ [x].intercalate ls) :
    w = x ∨ ∃ l ∈ ls, w ∈ l := by
  induction ls with
  | nil => cases h
  | cons l ls ih =>
    cases ls with
    | nil =>
      rw [List.intercalate_singleton] at h
      exact .inr ⟨l, List.mem_cons_self, h⟩
    | cons next ls =>
      rw [List.intercalate_cons_cons, List.append_assoc, List.mem_append, List.mem_append,
        List.mem_singleton] at h
      rcases h with h | h | h
      · exact .inr ⟨l, List.mem_cons_self, h⟩
      · exact .inl h
      · rcases ih h with hx | ⟨l', hl', hw⟩
        · exact .inl hx
        · exact .inr ⟨l', List.mem_cons_of_mem _ hl', hw⟩

theorem Condition.notMem_words {c : Condition ℕ} (h : c.Formed) {keyword : String}
    (hkeyword : keyword ∈ keywords) (hinner : keyword ∉ ["(", ")", "OR", "1=1"]) :
    keyword ∉ c.words := by
  simp only [List.mem_cons, List.not_mem_nil, or_false, not_or] at hinner
  obtain ⟨hopen, hclose, hor, halways⟩ := hinner
  cases c with
  | always => simpa [Condition.words] using halways
  | one c => exact Comparison.notMem_words h hkeyword
  | any cs =>
    intro hmem
    simp only [Condition.words, List.cons_append, List.mem_cons, List.mem_append,
      List.not_mem_nil, or_false] at hmem
    rcases hmem with hmem | hmem | hmem
    · exact hopen hmem
    · rcases mem_intercalate hmem with hmem | ⟨ws, hws, hmem⟩
      · exact hor hmem
      · obtain ⟨c, hc, rfl⟩ := List.mem_map.mp hws
        exact Comparison.notMem_words (h.2 c hc) hkeyword hmem
    · exact hclose hmem

/-- The words of a query with a closing mark. -/
def Select.words (q : Select ℕ) (closing : List String) : List String :=
  "SELECT" :: (q.columns ++ "FROM" :: (q.source ++ "WHERE" ::
    (["AND"].intercalate (q.conditions.map Condition.words) ++ (orderWords q.order ++
      (numberWords "LIMIT" q.limit ++ (numberWords "OFFSET" q.offset ++ closing))))))

/-- The names of the query are not mistaken for keywords. -/
structure Select.Formed {ν : Type} (q : Select ν) : Prop where
  columns : "FROM" ∉ q.columns
  source : "WHERE" ∉ q.source
  order : ∀ w ∈ q.order, w ∉ clauseWords

theorem splitOn_conditionWords {conditions : List (Condition ℕ)} (hne : conditions ≠ [])
    (hformed : ∀ c ∈ conditions, c.Formed) :
    (["AND"].intercalate (conditions.map Condition.words)).splitOn "AND" =
      conditions.map Condition.words := by
  refine List.splitOn_intercalate "AND" ?_ (by simpa using hne)
  intro ws hws
  obtain ⟨c, hc, rfl⟩ := List.mem_map.mp hws
  exact Condition.notMem_words (hformed c hc) (by decide) (by decide)

/-- No clause begins among the conditions. -/
theorem conditionWords_notMem {conditions : List (Condition ℕ)}
    (hformed : ∀ c ∈ conditions, c.Formed) :
    ∀ w ∈ ["AND"].intercalate (conditions.map Condition.words), w ∉ clauseWords := by
  intro w hw hclause
  rcases mem_intercalate hw with rfl | ⟨ws, hws, hw⟩
  · exact absurd hclause (by decide)
  · obtain ⟨c, hc, rfl⟩ := List.mem_map.mp hws
    have hkeyword : ∀ w ∈ clauseWords, w ∈ keywords ∧ w ∉ ["(", ")", "OR", "1=1"] := by decide
    exact Condition.notMem_words (hformed c hc) (hkeyword w hclause).1 (hkeyword w hclause).2 hw

section firstWord
variable {rest stops : List String} (hrest : ∀ w ∈ rest.head?, w ∈ stops)
include hrest

theorem head_numberWords (name : String) (n : Option ℕ) :
    ∀ w ∈ (numberWords name n ++ rest).head?, w ∈ name :: stops := by
  intro w hw
  cases n with
  | none => exact List.mem_cons_of_mem _ (hrest w hw)
  | some n =>
    rw [← Option.some.inj hw]
    exact List.mem_cons_self

theorem head_orderWords (order : List String) :
    ∀ w ∈ (orderWords order ++ rest).head?, w ∈ "ORDER" :: stops := by
  intro w hw
  unfold orderWords at hw
  split_ifs at hw
  · exact List.mem_cons_of_mem _ (hrest w hw)
  · rw [← Option.some.inj hw]
    exact List.mem_cons_self

end firstWord

theorem cut_at {stop : String} {ws : List String} (h : stop ∉ ws) (rest : List String) :
    cut [stop] (ws ++ stop :: rest) = (ws, stop :: rest) := by
  refine cut_append (fun w hw hstop => h (List.mem_singleton.mp hstop ▸ hw)) (fun w hw => ?_)
  rw [← Option.some.inj hw]
  exact List.mem_singleton_self stop

/-- A text with these words is read as the query. -/
theorem readSelect_of_words {text : String} {q : Select ℕ} {closing : List String}
    (hwords : words text = q.words closing) (hclosing : closing = [] ∨ closing = [";"])
    (hq : q.Formed) (hne : q.conditions ≠ []) (hformed : ∀ c ∈ q.conditions, c.Formed) :
    readSelect text = some q := by
  have hlast : ∀ w ∈ closing.head?, w ∈ [";"] := by
    rcases hclosing with rfl | rfl
    · exact nofun
    · exact fun w hw => List.mem_singleton.mpr (Option.some.inj hw).symm
  have hoffset := head_numberWords hlast "OFFSET" q.offset
  have hlimit := head_numberWords hoffset "LIMIT" q.limit
  have hclauses := head_orderWords hlimit q.order
  have hnoOffset : closing.head? ≠ some "OFFSET" := fun hw => absurd (hlast _ hw) (by decide)
  have hnoLimit : (numberWords "OFFSET" q.offset ++ closing).head? ≠ some "LIMIT" := fun hw =>
    absurd (hoffset _ hw) (by decide)
  simp only [readSelect, hwords, Select.words, List.drop_succ_cons, List.drop_zero,
    cut_at hq.columns, cut_at hq.source, cut_append (conditionWords_notMem hformed) hclauses,
    splitOn_conditionWords hne hformed, mapM_readCondition hformed, Option.bind_some,
    readOrder_orderWords hq.order hlimit, readNumber_numberWords q.limit hnoLimit,
    readNumber_numberWords q.offset hnoOffset, List.head?_cons, true_and, if_pos hclosing]

end reading

end FastapiTemplate.SelectTexts
