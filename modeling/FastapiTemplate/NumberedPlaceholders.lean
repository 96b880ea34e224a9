import FastapiTemplate.SelectTexts
import Mathlib.Order.Basic

/-!
# Placeholders and their parameters

`prepare` reads a text and puts the parameters in place of its placeholders, which have to be exactly
`$1` to `$n` for `n` parameters. `Numbered` says that conditions and parameters fit, and is kept when
conditions are added one by one, each with its own parameters. A `Server` answers what is prepared.
-/

namespace FastapiTemplate.SelectTexts

variable {ν ρ : Type}

/-! ## Binding -/

def param (params : List ν) (n : ℕ) : Option ν := if n = 0 then none else params[n - 1]?

def Comparison.bind (params : List ν) (c : Comparison ℕ) : Option (Comparison ν) :=
  (param params c.value).map (fun v => ⟨c.column, c.operator, v, c.cast⟩)

def Condition.bind (params : List ν) : Condition ℕ → Option (Condition ν)
  | .always => some .always
  | .one c => (c.bind params).map .one
  | .any cs => (cs.mapM (Comparison.bind params)).map .any

def bindNumber (params : List ν) : Option ℕ → Option (Option ν)
  | none => some none
  | some n => (param params n).map some

def Select.bind (params : List ν) (q : Select ℕ) : Option (Select ν) :=
  (q.conditions.mapM (Condition.bind params)).bind fun conditions =>
    (bindNumber params q.limit).bind fun limit =>
      (bindNumber params q.offset).map fun offset =>
        ⟨q.columns, q.source, conditions, q.order, limit, offset⟩

/-! ## Numbering -/

def Condition.placeholders (c : Condition ℕ) : List ℕ := c.comparisons.map (·.value)

def Select.placeholders (q : Select ℕ) : List ℕ :=
  q.conditions.flatMap Condition.placeholders ++ (q.limit.toList ++ q.offset.toList)

def Covers (ns : List ℕ) (k : ℕ) : Prop := ∀ n, n ∈ ns ↔ 1 ≤ n ∧ n ≤ k

instance (ns : List ℕ) (k : ℕ) : Decidable (Covers ns k) :=
  decidable_of_iff ((∀ n ∈ ns, 1 ≤ n ∧ n ≤ k) ∧ ∀ n < k, n + 1 ∈ ns) (by
    constructor
    · rintro ⟨hrange, hall⟩ n
      refine ⟨hrange n, ?_⟩
      rintro ⟨hpos, hle⟩
      have hmem := hall (n - 1) (by omega)
      rwa [Nat.sub_add_cancel hpos] at hmem
    · intro h
      exact ⟨fun n hn => (h n).mp hn, fun n hn => (h (n + 1)).mpr ⟨by omega, by omega⟩⟩)

/-- The query with its parameters, if the server knows the type of each of them. -/
def prepare (text : String) (params : List ν) : Option (Select ν) :=
  (readSelect text).bind fun q =>
    if Covers q.placeholders params.length then q.bind params else none

/-- The conditions have exactly these parameters, and mean the bound ones. -/
structure Numbered (conditions : List (Condition ℕ)) (params : List ν)
    (bound : List (Condition ν)) : Prop where
  formed : ∀ c ∈ conditions, c.Formed
  covers : Covers (conditions.flatMap Condition.placeholders) params.length
  binds : conditions.mapM (Condition.bind params) = some bound

section numbering
variable {params more : List ν}

theorem param_append {n : ℕ} (hn : n ≤ params.length) :
    param (params ++ more) n = param params n := by
  unfold param
  split_ifs with hzero
  · rfl
  · exact List.getElem?_append_left (by omega)

theorem param_concat (params : List ν) (v : ν) (more : List ν) :
    param (params ++ v :: more) (params.length + 1) = some v := by
  rw [param, if_neg (Nat.succ_ne_zero _), Nat.add_sub_cancel, List.getElem?_append_right (Nat.le_refl _),
    Nat.sub_self]
  rfl

theorem mapM_congr {α β : Type} {f g : α → Option β} {xs : List α} (h : ∀ x ∈ xs, f x = g x) :
    xs.mapM f = xs.mapM g := by
  induction xs with
  | nil => rfl
  | cons x xs ih =>
    obtain ⟨hx, hxs⟩ := List.forall_mem_cons.mp h
    rw [List.mapM_cons, List.mapM_cons, hx, ih hxs]

/-- Further parameters do not change what is bound. -/
theorem Condition.bind_append {c : Condition ℕ} (h : ∀ n ∈ c.placeholders, n ≤ params.length) :
    c.bind (params ++ more) = c.bind params := by
  have hcomparison : ∀ d ∈ c.comparisons,
      Comparison.bind (params ++ more) d = Comparison.bind params d := by
    intro d hd
    rw [Comparison.bind, Comparison.bind, param_append (h _ (List.mem_map_of_mem hd))]
  cases c with
  | always => rfl
  | one c => rw [Condition.bind, hcomparison c List.mem_cons_self, Condition.bind]
  | any cs =>
    have hall := mapM_congr hcomparison
    rw [comparisons] at hall
    rw [Condition.bind, Condition.bind, hall]

def Comparison.numbered (n : ℕ) (c : Comparison ν) : Comparison ℕ :=
  ⟨c.column, c.operator, n, c.cast⟩

def Condition.numbered (n : ℕ) : Condition ν → Condition ℕ
  | .always => .always
  | .one c => .one (c.numbered n)
  | .any cs => .any (cs.map (Comparison.numbered n))

theorem Condition.numbered_formed {c : Condition ν} (h : c.Formed) (n : ℕ) :
    (c.numbered n).Formed := by
  cases c with
  | always => trivial
  | one c => exact h
  | any cs =>
    refine ⟨by simpa [numbered] using h.1, ?_⟩
    intro d hd
    obtain ⟨c, hc, rfl⟩ := List.mem_map.mp hd
    exact h.2 c hc

theorem Condition.placeholders_numbered (c : Condition ν) (n : ℕ) :
    (c.numbered n).placeholders = c.comparisons.map (fun _ => n) := by
  cases c with
  | always => rfl
  | one c => rfl
  | any cs =>
    rw [numbered, placeholders, comparisons, List.map_map]
    rfl

theorem Condition.anyColumn_formed {columns : List String} {operator : String}
    (hcolumns : ∀ c ∈ columns, IsName c) (hoperator : IsName operator) (hne : columns ≠ []) (v : ν) :
    (anyColumn columns operator v).Formed := by
  refine ⟨by simpa using hne, ?_⟩
  intro d hd
  obtain ⟨c, hc, rfl⟩ := List.mem_map.mp hd
  exact ⟨hcolumns c hc, hoperator, rfl⟩

theorem Condition.anyColumn_value {columns : List String} {operator : String} {v : ν} :
    ∀ d ∈ (anyColumn columns operator v).comparisons, d.value = v := by
  intro d hd
  obtain ⟨c, -, rfl⟩ := List.mem_map.mp hd
  rfl

theorem Condition.text_anyColumn (columns : List String) (operator : String) (v : ν) (n : ℕ) :
    ((anyColumn columns operator v).numbered n).text =
      "(" ++ " OR ".intercalate
        (columns.map (fun c => c ++ " " ++ operator ++ " $" ++ toString n)) ++ ")" := by
  have hcomparison (c : String) : ((⟨c, operator, v, ""⟩ : Comparison ν).numbered n).text =
      c ++ " " ++ operator ++ " $" ++ toString n := by
    have hdollar : (" $" : String) = " " ++ "$" := rfl
    simp only [Comparison.numbered, Comparison.text, placeholder, if_true, hdollar,
      String.append_assoc]
  simp only [anyColumn, numbered, text, List.map_map, Function.comp_def, hcomparison]

/-- A condition on one value is bound from its number. -/
theorem Condition.bind_numbered {c : Condition ν} {v : ν} (hvalue : ∀ d ∈ c.comparisons, d.value = v)
    {n : ℕ} (hn : param params n = some v) : (c.numbered n).bind params = some c := by
  have hcomparison : ∀ d ∈ c.comparisons,
      (Comparison.bind params ∘ Comparison.numbered n) d = some d := by
    intro d hd
    rw [Function.comp_apply, Comparison.bind, Comparison.numbered, hn, Option.map_some,
      ← hvalue d hd]
  cases c with
  | always => rfl
  | one c =>
    rw [numbered, bind]
    exact congrArg (Option.map Condition.one) (hcomparison c List.mem_cons_self)
  | any cs =>
    have hall : cs.mapM (Comparison.bind params ∘ Comparison.numbered n) = some (cs.map id) :=
      (mapM_congr hcomparison).trans (List.mapM_pure (f := id))
    rw [List.map_id] at hall
    rw [numbered, bind, List.mapM_map, hall, Option.map_some]

theorem Numbered.nil : Numbered [] ([] : List ν) [] where
  formed := fun _ hc => absurd hc List.not_mem_nil
  covers := fun n => iff_of_false List.not_mem_nil (fun hn => by simp at hn; omega)
  binds := rfl

theorem Numbered.always : Numbered [.always] ([] : List ν) [.always] where
  formed := by
    intro c hc
    rw [List.mem_singleton.mp hc]
    trivial
  covers := by
    intro n
    exact iff_of_false List.not_mem_nil (fun hn => by simp at hn; omega)
  binds := rfl

/-- A condition is added with its own parameters. -/
theorem Numbered.append {conditions : List (Condition ℕ)} {bound : List (Condition ν)}
    (h : Numbered conditions params bound) {c : Condition ℕ} {b : Condition ν} (hc : c.Formed)
    (hbind : c.bind (params ++ more) = some b)
    (hrange : ∀ n ∈ c.placeholders, 1 ≤ n ∧ n ≤ params.length + more.length)
    (hnew : ∀ n, params.length < n → n ≤ params.length + more.length → n ∈ c.placeholders) :
    Numbered (conditions ++ [c]) (params ++ more) (bound ++ [b]) where
  formed := by
    intro d hd
    rcases List.mem_append.mp hd with hd | hd
    · exact h.formed d hd
    · rw [List.mem_singleton.mp hd]
      exact hc
  covers := by
    intro n
    rw [List.flatMap_append, List.flatMap_singleton, List.mem_append, h.covers n,
      List.length_append]
    constructor
    · rintro (⟨hpos, hle⟩ | hn)
      · exact ⟨hpos, by omega⟩
      · exact hrange n hn
    · rintro ⟨hpos, hle⟩
      by_cases hold : n ≤ params.length
      · exact .inl ⟨hpos, hold⟩
      · exact .inr (hnew n (by omega) hle)
  binds := by
    have hold : conditions.mapM (Condition.bind (params ++ more)) = some bound := by
      rw [← h.binds]
      refine mapM_congr (fun d hd => Condition.bind_append (fun n hn => ?_))
      exact ((h.covers n).mp (List.mem_flatMap.mpr ⟨d, hd, hn⟩)).2
    rw [List.mapM_append, hold, List.mapM_cons, hbind]
    rfl

/-- A condition on one value is added with the next number. -/
theorem Numbered.push {conditions : List (Condition ℕ)} {bound : List (Condition ν)}
    (h : Numbered conditions params bound) {b : Condition ν} {v : ν} (hb : b.Formed)
    (hvalue : ∀ d ∈ b.comparisons, d.value = v) (hne : b.comparisons ≠ []) :
    Numbered (conditions ++ [b.numbered (params.length + 1)]) (params ++ [v]) (bound ++ [b]) := by
  have hplaceholders := b.placeholders_numbered (params.length + 1)
  refine h.append (b.numbered_formed hb _) ?_ ?_ ?_
  · exact Condition.bind_numbered hvalue (param_concat params v [])
  · intro n hn
    rw [hplaceholders] at hn
    obtain ⟨d, -, rfl⟩ := List.mem_map.mp hn
    simp
  · intro n hlt hle
    have hn : n = params.length + 1 := by
      rw [List.length_singleton] at hle
      omega
    obtain ⟨d, ds, hds⟩ := List.exists_cons_of_ne_nil hne
    rw [hplaceholders, hds, hn]
    exact List.mem_cons_self

/-- The query with numbers in place of its values; the limit and the offset have the last ones. -/
def Select.numbered (q : Select ν) (conditions : List (Condition ℕ)) (count : ℕ) : Select ℕ :=
  ⟨q.columns, q.source, conditions, q.order, q.limit.map (fun _ => count + 1),
    q.offset.map (fun _ => count + q.limit.toList.length + 1)⟩

/-- A text with the words of the query is prepared as the query. -/
theorem Numbered.prepare {text : String} {q : Select ν} {conditions : List (Condition ℕ)}
    (h : Numbered conditions params q.conditions) {closing : List String}
    (hwords : words text = (q.numbered conditions params.length).words closing)
    (hclosing : closing = [] ∨ closing = [";"]) (hq : q.Formed) (hne : q.conditions ≠ []) :
    prepare text (params ++ (q.limit.toList ++ q.offset.toList)) = some q := by
  obtain ⟨columns, source, bound, order, limit, offset⟩ := q
  have hconditionsNe : conditions ≠ [] := by
    rintro rfl
    exact hne (Option.some.inj h.binds).symm
  have hread := readSelect_of_words hwords hclosing ⟨hq.columns, hq.source, hq.order⟩ hconditionsNe
    h.formed
  have hconditions : conditions.mapM
      (Condition.bind (params ++ (limit.toList ++ offset.toList))) = some bound := by
    rw [← h.binds]
    refine mapM_congr (fun d hd => Condition.bind_append (fun n hn => ?_))
    exact ((h.covers n).mp (List.mem_flatMap.mpr ⟨d, hd, hn⟩)).2
  have hcovers : Covers (Select.numbered ⟨columns, source, bound, order, limit, offset⟩ conditions
      params.length).placeholders (params ++ (limit.toList ++ offset.toList)).length := by
    intro n
    rw [Select.placeholders, List.mem_append, Select.numbered, h.covers n]
    cases limit <;> cases offset <;> simp <;> omega
  have hlimit : bindNumber (params ++ (limit.toList ++ offset.toList))
      (limit.map (fun _ => params.length + 1)) = some limit := by
    cases limit with
    | none => rfl
    | some v =>
      rw [Option.map_some, bindNumber, Option.toList_some, List.singleton_append, param_concat]
      rfl
  have hoffset : bindNumber (params ++ (limit.toList ++ offset.toList))
      (offset.map (fun _ => params.length + limit.toList.length + 1)) = some offset := by
    cases offset with
    | none => rfl
    | some v =>
      rw [Option.map_some, bindNumber, Option.toList_some, ← List.append_assoc,
        ← List.length_append, param_concat]
      rfl
  rw [SelectTexts.prepare, hread, Option.bind_some, if_pos hcovers, Select.bind]
  simp only [Select.numbered, hconditions, hlimit, hoffset, Option.bind_some, Option.map_some]

end numbering

/-! ## Parts with their values -/

/-- Parts of a text that are joined by `AND`, and the values that were appended for them. -/
structure Parts (ν : Type) where
  parts : List String
  params : List ν

structure Test (test : ν → Condition ν) (part : String → String) : Prop where
  formed : ∀ v, (test v).Formed
  value : ∀ v, ∀ d ∈ (test v).comparisons, d.value = v
  nonempty : ∀ v, (test v).comparisons ≠ []
  text : ∀ v n, part ("$" ++ toString n) = ((test v).numbered n).text

namespace Parts

def where_ (c : Parts ν) : String := " AND ".intercalate c.parts

def push (c : Parts ν) (v : ν) (part : String → String) : Parts ν :=
  ⟨c.parts ++ [part ("$" ++ toString (c.params.length + 1))], c.params ++ [v]⟩

def pushIf (c : Parts ν) (v : Option ν) (part : String → String) : Parts ν :=
  v.elim c (fun v => c.push v part)

structure Says (c : Parts ν) (conditions : List (Condition ℕ)) (bound : List (Condition ν)) :
    Prop where
  numbered : Numbered conditions c.params bound
  parts_ne : c.parts ≠ []
  conditions_ne : conditions ≠ []
  joined : c.where_ = " AND ".intercalate (conditions.map Condition.text)

def Means (c : Parts ν) (bound : List (Condition ν)) : Prop := ∃ conditions, c.Says conditions bound

variable {c : Parts ν} {bound : List (Condition ν)} {test : ν → Condition ν}
  {part : String → String}

theorem means_always : (Parts.mk ["1=1"] ([] : List ν)).Means [.always] :=
  ⟨[.always], .always, List.cons_ne_nil _ _, List.cons_ne_nil _ _, rfl⟩

theorem intercalate_concat {texts : List String} (hne : texts ≠ []) (separator text : String) :
    separator.intercalate (texts ++ [text]) = separator.intercalate texts ++ separator ++ text := by
  rw [String.intercalate_append_of_ne_nil hne (List.cons_ne_nil _ _), String.intercalate_singleton]

theorem where_concat (hne : c.parts ≠ []) (text : String) (params : List ν) :
    (Parts.mk (c.parts ++ [text]) params).where_ = c.where_ ++ " AND " ++ text :=
  intercalate_concat hne " AND " text

/-- A condition is added with its own values. -/
theorem Says.append {conditions : List (Condition ℕ)} (h : c.Says conditions bound)
    {condition : Condition ℕ} {b : Condition ν} {more : List ν}
    (hnumbered : Numbered (conditions ++ [condition]) (c.params ++ more) (bound ++ [b])) :
    (Parts.mk (c.parts ++ [condition.text]) (c.params ++ more)).Says (conditions ++ [condition])
      (bound ++ [b]) where
  numbered := hnumbered
  parts_ne := List.append_ne_nil_of_left_ne_nil h.parts_ne _
  conditions_ne := List.append_ne_nil_of_left_ne_nil h.conditions_ne _
  joined := by
    rw [where_concat h.parts_ne, h.joined, List.map_append, List.map_singleton,
      intercalate_concat (by simpa using h.conditions_ne)]

theorem Means.push (h : c.Means bound) (ht : Test test part) (v : ν) :
    (c.push v part).Means (bound ++ [test v]) := by
  obtain ⟨conditions, hsaid⟩ := h
  have hnumbered := hsaid.numbered.push (ht.formed v) (ht.value v) (ht.nonempty v)
  refine ⟨conditions ++ [(test v).numbered (c.params.length + 1)], ?_⟩
  rw [Parts.push, ht.text v]
  exact hsaid.append hnumbered

theorem Means.pushIf (h : c.Means bound) (ht : Test test part) (v : Option ν) :
    (c.pushIf v part).Means (bound ++ (v.map test).toList) := by
  cases v with
  | none =>
    rw [Option.map_none, Option.toList_none, List.append_nil]
    exact h
  | some v => exact h.push ht v

/-- Two parts may stand in one. -/
theorem Means.pushPair {test' : ν → Condition ν} {part' : String → String} (h : c.Means bound)
    (ht : Test test part) (ht' : Test test' part') (v v' : ν) :
    (Parts.mk (c.parts ++ [part ("$" ++ toString (c.params.length + 1)) ++ " AND " ++
      part' ("$" ++ toString (c.params.length + 2))]) (c.params ++ [v, v'])).Means
        (bound ++ [test v, test' v']) := by
  have hne : c.parts ≠ [] := by
    obtain ⟨_, hsaid⟩ := h
    exact hsaid.parts_ne
  obtain ⟨conditions, hnumbered, -, hconditions, hjoined⟩ := (h.push ht v).push ht' v'
  have hparams : ((c.push v part).push v' part').params = c.params ++ [v, v'] := by
    simp [Parts.push, List.append_assoc]
  have hbound : bound ++ [test v] ++ [test' v'] = bound ++ [test v, test' v'] := by
    rw [List.append_assoc, List.singleton_append]
  rw [hparams, hbound] at hnumbered
  refine ⟨conditions, hnumbered, List.append_ne_nil_of_left_ne_nil hne _, hconditions, ?_⟩
  rw [← hjoined, where_concat hne, Parts.push, where_concat (by simp [Parts.push]), Parts.push,
    where_concat hne, List.length_append, List.length_singleton]
  simp only [String.append_assoc]

/-- The comparisons in brackets may have one of two values. -/
theorem Means.pushEither (h : c.Means bound) {a b : List (Comparison ν)} {v w : ν}
    (ha : ∀ d ∈ a, d.Formed ∧ d.value = v) (hb : ∀ d ∈ b, d.Formed ∧ d.value = w) (hane : a ≠ [])
    (hbne : b ≠ []) :
    (Parts.mk (c.parts ++ [(Condition.any (a.map (Comparison.numbered (c.params.length + 1)) ++
      b.map (Comparison.numbered (c.params.length + 2)))).text]) (c.params ++ [v, w])).Means
        (bound ++ [.any (a ++ b)]) := by
  obtain ⟨conditions, hsaid⟩ := h
  have hbind {ds : List (Comparison ν)} {n : ℕ} {value : ν} (hds : ∀ d ∈ ds, d.Formed ∧ d.value = value)
      (hn : param (c.params ++ [v, w]) n = some value) :
      (ds.map (Comparison.numbered n)).mapM (Comparison.bind (c.params ++ [v, w])) = some ds := by
    have hany := Condition.bind_numbered (c := .any ds) (fun d hd => (hds d hd).2) hn
    obtain ⟨ds', hds', heq⟩ := Option.map_eq_some_iff.mp hany
    rw [hds', Condition.any.inj heq]
  have hfirst : param (c.params ++ [v, w]) (c.params.length + 1) = some v := param_concat ..
  have hsecond : param (c.params ++ [v, w]) (c.params.length + 2) = some w := by
    have hconcat := param_concat (c.params ++ [v]) w []
    rwa [List.length_append, List.append_assoc] at hconcat
  have hplaceholders : (Condition.any (a.map (Comparison.numbered (c.params.length + 1)) ++
      b.map (Comparison.numbered (c.params.length + 2)))).placeholders =
        a.map (fun _ => c.params.length + 1) ++ b.map (fun _ => c.params.length + 2) := by
    rw [Condition.placeholders, Condition.comparisons, List.map_append, List.map_map, List.map_map]
    rfl
  refine ⟨_, hsaid.append (hsaid.numbered.append ⟨?_, ?_⟩ ?_ ?_ ?_)⟩
  · simp [hane]
  · intro d hd
    rcases List.mem_append.mp hd with hd | hd
    · obtain ⟨d, hmem, rfl⟩ := List.mem_map.mp hd
      exact (ha d hmem).1
    · obtain ⟨d, hmem, rfl⟩ := List.mem_map.mp hd
      exact (hb d hmem).1
  · rw [Condition.bind, List.mapM_append, hbind ha hfirst, hbind hb hsecond]
    rfl
  · intro n hn
    rw [hplaceholders] at hn
    simp only [List.mem_append, List.mem_map] at hn
    rw [List.length_cons, List.length_singleton]
    rcases hn with ⟨d, -, rfl⟩ | ⟨d, -, rfl⟩ <;> omega
  · intro n hlt hle
    rw [List.length_cons, List.length_singleton] at hle
    rw [hplaceholders, List.mem_append, List.mem_map, List.mem_map]
    obtain ⟨d, ds, rfl⟩ := List.exists_cons_of_ne_nil hane
    obtain ⟨d', ds', rfl⟩ := List.exists_cons_of_ne_nil hbne
    by_cases hn : n = c.params.length + 1
    · exact .inl ⟨d, List.mem_cons_self, hn.symm⟩
    · exact .inr ⟨d', List.mem_cons_self, by omega⟩

end Parts

theorem test_one {column operator cast : String} {part : String → String}
    (hcolumn : IsName column) (hoperator : IsName operator)
    (hcast : cast.toList.all isPlain = true)
    (htext : ∀ n, part ("$" ++ toString n) = column ++ " " ++ operator ++ " " ++ placeholder n cast) :
    Test (fun v : ν => .one ⟨column, operator, v, cast⟩) part where
  formed _ := ⟨hcolumn, hoperator, hcast⟩
  value v d hd := by rw [List.mem_singleton.mp hd]
  nonempty _ := List.cons_ne_nil _ _
  text _ n := htext n

theorem test_anyColumn {columns : List String} {operator : String} {part : String → String}
    (hcolumns : ∀ c ∈ columns, IsName c) (hoperator : IsName operator) (hne : columns ≠ [])
    (htext : ∀ n : ℕ, part ("$" ++ toString n) = "(" ++ " OR ".intercalate
      (columns.map (fun c => c ++ " " ++ operator ++ " $" ++ toString n)) ++ ")") :
    Test (Condition.anyColumn (ν := ν) columns operator) part where
  formed := Condition.anyColumn_formed hcolumns hoperator hne
  value _ := Condition.anyColumn_value
  nonempty v := by simpa [Condition.anyColumn, Condition.comparisons] using hne
  text v n := by rw [htext, Condition.text_anyColumn]

/-- The words of joined parts. -/
theorem Parts.Says.words_where {c : Parts ν} {conditions : List (Condition ℕ)}
    {bound : List (Condition ν)} (h : c.Says conditions bound) :
    words c.where_ = ["AND"].intercalate (conditions.map Condition.words) := by
  rw [h.joined, words_conditions h.numbered.formed]

/-! ## Answers -/

/-- The rows of every source, and what the server makes of comparisons, numbers and orders. -/
structure Server (ν ρ : Type) where
  rows : List String → List ρ
  encodes : Comparison ν → Bool
  number : ν → Option ℕ
  holds : Comparison ν → ρ → Bool
  sort : List String → List ρ → List ρ
  sort_perm : ∀ order rows, (sort order rows).Perm rows

namespace Server

variable (s : Server ν ρ)

def satisfies : Condition ν → ρ → Bool
  | .always, _ => true
  | .one c, row => s.holds c row
  | .any cs, row => cs.any (s.holds · row)

def matching (source : List String) (conditions : List (Condition ν)) (order : List String) :
    List ρ :=
  s.sort order ((s.rows source).filter (fun row => conditions.all (s.satisfies · row)))

def encodesAll (conditions : List (Condition ν)) : Bool :=
  conditions.all (fun c => c.comparisons.all s.encodes)

def numberOf : Option ν → Option (Option ℕ)
  | none => some none
  | some v => (s.number v).map some

def page (limit offset : Option ℕ) (rows : List ρ) : List ρ :=
  limit.elim (rows.drop (offset.getD 0)) (fun k => (rows.drop (offset.getD 0)).take k)

def run (q : Select ν) : Option (List ρ) :=
  if s.encodesAll q.conditions then
    (s.numberOf q.limit).bind fun limit =>
      (s.numberOf q.offset).map fun offset =>
        page limit offset (s.matching q.source q.conditions q.order)
  else none

def answer (text : String) (params : List ν) : Option (List ρ) := (prepare text params).bind s.run

variable {s}

theorem length_matching (source : List String) (conditions : List (Condition ν))
    (order other : List String) :
    (s.matching source conditions order).length = (s.matching source conditions other).length := by
  rw [matching, matching, (s.sort_perm ..).length_eq, (s.sort_perm ..).length_eq]

/-- Neither the columns nor the order change the number of rows. -/
theorem length_run (columns columns' source : List String) (conditions : List (Condition ν))
    (order order' : List String) :
    (s.run ⟨columns, source, conditions, order, none, none⟩).map List.length =
      (s.run ⟨columns', source, conditions, order', none, none⟩).map List.length := by
  unfold run
  dsimp only
  split_ifs
  · exact congrArg some (length_matching source conditions order order')
  · rfl

/-- A page is cut out of the rows without limit and offset. -/
theorem run_page (q : Select ν) : s.run q =
    (s.run ⟨q.columns, q.source, q.conditions, q.order, none, none⟩).bind fun rows =>
      (s.numberOf q.limit).bind fun limit =>
        (s.numberOf q.offset).map fun offset => page limit offset rows := by
  unfold run
  dsimp only
  split_ifs <;> rfl

end Server

/-! ## Pages -/

/-- The pages of one size, one after another. -/
theorem flatMap_pages {α : Type} (rows : List α) (size count : ℕ) :
    (List.range count).flatMap (fun i => (rows.drop (i * size)).take size) =
      rows.take (count * size) := by
  induction count with
  | zero => simp
  | succ count ih =>
    rw [List.range_succ, List.flatMap_append, ih, List.flatMap_singleton, Nat.succ_mul,
      ← List.take_add]

theorem eq_map_of_mapM {α β ε : Type} {f : α → Except ε β} {g : α → β}
    (h : ∀ x y, f x = .ok y → y = g x) {xs : List α} {ys : List β} (hys : xs.mapM f = .ok ys) :
    ys = xs.map g := by
  induction xs generalizing ys with
  | nil => exact (Except.ok.inj hys).symm
  | cons x xs ih =>
    rw [List.mapM_cons] at hys
    cases hx : f x with
    | error e =>
      rw [hx] at hys
      cases hys
    | ok y =>
      cases hxs : xs.mapM f with
      | error e =>
        rw [hx, hxs] at hys
        cases hys
      | ok rest =>
        rw [hx, hxs] at hys
        rw [← Except.ok.inj hys, List.map_cons, h x y hx, ih hxs]

end FastapiTemplate.SelectTexts
