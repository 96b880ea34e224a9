import Mathlib.Data.List.Induction
import Mathlib.Data.List.Sort

/-!
# Pages by keyset

Rows in descending order of a key are read page by page, each page from the cursor that the one
before has returned. A pager `Serves` a list when every page holds the next rows and every cursor
stands at the rest. Then following the cursors reads the list once.
-/

namespace FastapiTemplate.Keyset

variable {α κ C ε : Type}

/-! ## Rows in descending order -/

section order
variable [LinearOrder κ] (key : α → κ)

def Descending (rows : List α) : Prop := rows.Pairwise (fun a b => key b < key a)

def sortDescending (rows : List α) : List α := rows.mergeSort (fun a b => key b ≤ key a)

variable {key}

theorem sortDescending_perm (rows : List α) : (sortDescending key rows).Perm rows :=
  List.mergeSort_perm rows _

theorem sortDescending_sorted (rows : List α) :
    (sortDescending key rows).Pairwise (fun a b => key b ≤ key a) := by
  have htrans : ∀ a b c : α, decide (key b ≤ key a) → decide (key c ≤ key b) →
      decide (key c ≤ key a) := by
    intro a b c hab hbc
    exact decide_eq_true ((of_decide_eq_true hbc).trans (of_decide_eq_true hab))
  have htotal : ∀ a b : α, (decide (key b ≤ key a) || decide (key a ≤ key b)) = true := by
    intro a b
    rcases le_total (key b) (key a) with h | h <;> simp [h]
  apply (List.pairwise_mergeSort htrans htotal rows).imp
  intro a b h
  exact of_decide_eq_true h

theorem sortDescending_descending {rows : List α} (hkeys : (rows.map key).Nodup) :
    Descending key (sortDescending key rows) := by
  have hnodup : ((sortDescending key rows).map key).Nodup :=
    ((sortDescending_perm rows).map key).nodup_iff.mpr hkeys
  have hne : (sortDescending key rows).Pairwise (fun a b => key a ≠ key b) :=
    List.pairwise_map.mp hnodup
  apply ((sortDescending_sorted rows).and hne).imp
  rintro a b ⟨hle, hne⟩
  exact lt_of_le_of_ne hle hne.symm

theorem Descending.eq_of_perm {rows other : List α} (h : Descending key rows)
    (h' : Descending key other) (hperm : rows.Perm other) : rows = other := by
  apply hperm.eq_of_pairwise _ h h'
  intro a b _ _ hab hba
  exact absurd (hab.trans hba) (lt_irrefl _)

theorem sortDescending_filter {rows : List α} (hkeys : (rows.map key).Nodup) (p : α → Bool) :
    sortDescending key (rows.filter p) = (sortDescending key rows).filter p := by
  have hfiltered : ((rows.filter p).map key).Nodup := hkeys.sublist (List.filter_sublist.map key)
  apply (sortDescending_descending hfiltered).eq_of_perm
  · exact (sortDescending_descending hkeys).filter p
  · exact (sortDescending_perm _).trans ((sortDescending_perm rows).filter p).symm

/-- Below a row stand the rows after it. -/
theorem Descending.filter_lt {before after : List α} {row : α}
    (h : Descending key (before ++ row :: after)) :
    (before ++ row :: after).filter (fun r => key r < key row) = after := by
  obtain ⟨-, hrow, hbefore⟩ := List.pairwise_append.mp h
  rw [List.filter_append, List.filter_cons_of_neg (by simp)]
  have hnone : before.filter (fun r => key r < key row) = [] := by
    apply List.filter_eq_nil_iff.mpr
    intro r hr hlt
    exact absurd (of_decide_eq_true hlt) (hbefore r hr row List.mem_cons_self).not_gt
  have hall : after.filter (fun r => key r < key row) = after := by
    apply List.filter_eq_self.mpr
    intro r hr
    exact decide_eq_true ((List.pairwise_cons.mp hrow).1 r hr)
  rw [hnone, hall, List.nil_append]

end order

/-! ## Following the cursors -/

/-- The pages that are read from a cursor on, up to the first page that returns no cursor. -/
inductive Walk (page : Option C → Except ε (List α × Option C)) : Option C → List (List α) → Prop
  | last {c : Option C} {items : List α} (h : page c = .ok (items, none)) : Walk page c [items]
  | next {c : Option C} {c' : C} {items : List α} {pages : List (List α)}
      (h : page c = .ok (items, some c')) (hrest : Walk page (some c') pages) :
      Walk page c (items :: pages)

section walks
variable {page : Option C → Except ε (List α × Option C)}

theorem except_map_eq_ok {β : Type} {f : α → β} {x : Except ε α} {y : β} :
    x.map f = .ok y ↔ ∃ a, x = .ok a ∧ f a = y := by
  cases x with
  | error e => simp [Except.map]
  | ok a => simp [Except.map]

theorem Walk.unique {c : Option C} {pages other : List (List α)} (h : Walk page c pages)
    (h' : Walk page c other) : pages = other := by
  induction h generalizing other with
  | last h =>
    cases h' with
    | last h' =>
      rw [h] at h'
      cases h'
      rfl
    | next h' _ =>
      rw [h] at h'
      cases h'
  | next h _ ih =>
    cases h' with
    | last h' =>
      rw [h] at h'
      cases h'
    | next h' hrest =>
      rw [h] at h'
      cases h'
      rw [ih hrest]

/-- Cursors may be written in another form. -/
theorem walk_map_iff {C' : Type} {page' : Option C' → Except ε (List α × Option C')} {text : C' → C}
    (hpage : ∀ c, page (c.map text) = (page' c).map (fun x => (x.1, x.2.map text))) {c : Option C'}
    {pages : List (List α)} : Walk page (c.map text) pages ↔ Walk page' c pages := by
  constructor
  · generalize hc : c.map text = written
    intro h
    induction h generalizing c with
    | last h =>
      subst hc
      rw [hpage] at h
      obtain ⟨⟨items, next⟩, hread, hwritten⟩ := except_map_eq_ok.mp h
      obtain ⟨rfl, hnext⟩ := Prod.mk.inj hwritten
      have hnone : next = none := Option.map_eq_none_iff.mp hnext
      subst hnone
      exact .last hread
    | next h _ ih =>
      subst hc
      rw [hpage] at h
      obtain ⟨⟨items, next⟩, hread, hwritten⟩ := except_map_eq_ok.mp h
      obtain ⟨rfl, hnext⟩ := Prod.mk.inj hwritten
      obtain ⟨c', rfl, -⟩ := Option.map_eq_some_iff.mp hnext
      exact .next hread (ih hnext)
  · intro h
    induction h with
    | last h => exact .last ((hpage _).trans (by rw [h]; rfl))
    | next h _ ih => exact .next ((hpage _).trans (by rw [h]; rfl)) ih

def FullPages (size : ℕ) (pages : List (List α)) : Prop :=
  ∀ before items after, pages = before ++ items :: after → (∃ later ∈ after, later ≠ []) →
    items.length = size

theorem FullPages.cons {size : ℕ} {items : List α} {pages : List (List α)}
    (hfull : FullPages size pages) (hitems : pages.flatten ≠ [] → items.length = size) :
    FullPages size (items :: pages) := by
  intro before found after hsplit hlater
  cases before with
  | nil =>
    obtain ⟨rfl, rfl⟩ := List.cons.inj hsplit
    obtain ⟨later, hmem, hne⟩ := hlater
    apply hitems
    intro hnil
    exact hne (List.flatten_eq_nil_iff.mp hnil later hmem)
  | cons first before =>
    obtain ⟨rfl, hrest⟩ := List.cons.inj hsplit
    exact hfull before found after hrest hlater

/-- A page holds the next rows; a cursor stands at what is left, and without one nothing is. -/
def Serves (size : ℕ) (page : Option C → Except ε (List α × Option C))
    (At : Option C → List α → Prop) : Prop :=
  ∀ c rest, At c rest → ∃ next, page c = .ok (rest.take size, next) ∧
    match next with
    | none => rest.length ≤ size
    | some c' => rest ≠ [] ∧ At (some c') (rest.drop size)

theorem Serves.walk {size : ℕ} (hsize : 0 < size) {At : Option C → List α → Prop}
    (h : Serves size page At) {c : Option C} {rest : List α} (hat : At c rest) :
    ∃ pages, Walk page c pages ∧ pages.flatten = rest ∧ FullPages size pages := by
  induction hn : rest.length using Nat.strong_induction_on generalizing c rest with
  | _ n ih =>
    obtain ⟨next, hpage, hnext⟩ := h c rest hat
    cases next with
    | none =>
      refine ⟨[rest.take size], .last hpage, ?_, ?_⟩
      · rw [List.flatten_singleton, List.take_of_length_le hnext]
      · apply FullPages.cons
        · intro before items after hsplit
          exact absurd hsplit.symm (List.append_ne_nil_of_right_ne_nil _ (List.cons_ne_nil _ _))
        · intro hne
          exact absurd List.flatten_nil hne
    | some c' =>
      obtain ⟨hne, hat'⟩ := hnext
      have hshorter : (rest.drop size).length < n := by
        have hpos := List.length_pos_of_ne_nil hne
        rw [List.length_drop]
        omega
      obtain ⟨pages, hwalk, hflatten, hfull⟩ := ih _ hshorter hat' rfl
      refine ⟨rest.take size :: pages, .next hpage hwalk, ?_, ?_⟩
      · rw [List.flatten_cons, hflatten, List.take_append_drop]
      · apply hfull.cons
        intro hleft
        rw [hflatten] at hleft
        have hlong : 0 < (rest.drop size).length := List.length_pos_of_ne_nil hleft
        rw [List.length_drop] at hlong
        rw [List.length_take]
        omega

/-! ## Cursors made from the last row -/

/-- The rows before the rest have been read, and the cursor is that of the last of them. -/
def StandsAt (cursor : α → C) (rows : List α) (c : Option C) (rest : List α) : Prop :=
  ∃ done, rows = done ++ rest ∧ c = done.getLast?.map cursor

theorem StandsAt.start (cursor : α → C) (rows : List α) : StandsAt cursor rows none rows :=
  ⟨[], rfl, rfl⟩

theorem StandsAt.next {cursor : α → C} {rows rest : List α} {c : Option C}
    (h : StandsAt cursor rows c rest) {size : ℕ} (hsize : 0 < size) (hne : rest ≠ []) :
    ∃ last, (rest.take size).getLast? = some last ∧
      StandsAt cursor rows (some (cursor last)) (rest.drop size) := by
  obtain ⟨done, rfl, rfl⟩ := h
  have htake : rest.take size ≠ [] := by
    intro hnil
    rcases List.take_eq_nil_iff.mp hnil with hzero | hnil
    · exact hsize.ne' hzero
    · exact hne hnil
  have hlast := List.getLast?_eq_some_getLast htake
  refine ⟨_, hlast, done ++ rest.take size, ?_, ?_⟩
  · rw [List.append_assoc, List.take_append_drop]
  · rw [List.getLast?_append, hlast]
    rfl

theorem filter_lt_standsAt [LinearOrder κ] {key : α → κ} {done rest : List α}
    (h : Descending key (done ++ rest)) :
    (done ++ rest).filter (fun row => (done.getLast?.map key).all (key row < ·)) = rest := by
  cases done using List.reverseRecOn with
  | nil => exact List.filter_eq_self.mpr (fun _ _ => rfl)
  | append_singleton done row =>
    rw [List.append_assoc, List.singleton_append] at h ⊢
    rw [List.getLast?_concat]
    exact h.filter_lt

/-- One row more than the page shows whether there are further rows. -/
theorem take_of_take_succ (rest : List α) (size : ℕ) :
    (if (rest.take (size + 1)).length > size then (rest.take (size + 1)).take size
      else rest.take (size + 1)) = rest.take size := by
  split_ifs with h
  · rw [List.take_take, Nat.min_eq_left (Nat.le_succ size)]
  · rw [List.length_take] at h
    rw [List.take_of_length_le (by omega), List.take_of_length_le (by omega)]

end walks

end FastapiTemplate.Keyset
