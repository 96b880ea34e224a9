import FastapiTemplate.KeysetPages

/-!
# Pages below a shared key

Rows may share a key. A page from a cursor holds the first rows below it, in descending order, and
the cursor of a full page is the key of its last row. Rows that have this key too and stand on the
next page are never read, so following the cursors reads every row if and only if no full page ends
between two rows with one key, and every cursor is accepted.
-/

namespace FastapiTemplate.Keyset

variable {α κ ε : Type} [LinearOrder κ]

/-- An order by the key; rows with one key may stand in any order. -/
structure Orders (key : α → κ) (sort : List α → List α) : Prop where
  perm : ∀ rows, (sort rows).Perm rows
  sorted : ∀ rows, (sort rows).Pairwise (fun a b => key b ≤ key a)

def below (key : α → κ) (rows : List α) (c : Option κ) : List α :=
  rows.filter (fun row => c.all (key row < ·))

/-- A page that is not full returns no cursor. -/
def pageBelow (key : α → κ) (sort : List α → List α) (accepts : κ → Bool) (e : ε) (rows : List α)
    (size : ℕ) (c : Option κ) : Except ε (List α × Option κ) :=
  if c.all accepts then
    let items := (sort (below key rows c)).take size
    .ok (items, if items.length < size then none else items.getLast?.map key)
  else .error e

/-- At the end of every full page the key is accepted and the next key is smaller. -/
def CutsBetween (accepts : κ → Bool) (size : ℕ) (keys : List κ) : Prop :=
  ∀ i k, keys[i]? = some k → size ∣ i + 1 → accepts k = true ∧ ∀ k' ∈ keys[i + 1]?, k' < k

section cuts
variable {accepts : κ → Bool} {size : ℕ}

theorem cutsBetween_short {keys : List κ} (h : keys.length < size) :
    CutsBetween accepts size keys := by
  intro i k hk hdvd
  obtain ⟨hi, -⟩ := List.getElem?_eq_some_iff.mp hk
  exact absurd (Nat.le_of_dvd (Nat.succ_pos i) hdvd) (by omega)

/-- The first full page is cut off. -/
theorem cutsBetween_append {first rest : List κ} {k : κ} (hsize : 0 < size)
    (hlength : first.length = size) (hlast : first.getLast? = some k) :
    CutsBetween accepts size (first ++ rest) ↔
      (accepts k = true ∧ ∀ k' ∈ rest.head?, k' < k) ∧ CutsBetween accepts size rest := by
  have hrest (i : ℕ) : (first ++ rest)[i + size]? = rest[i]? := by
    rw [List.getElem?_append_right (by omega), hlength, Nat.add_sub_cancel]
  have hend : (first ++ rest)[size - 1]? = some k := by
    rw [List.getElem?_append_left (by omega), ← hlast, List.getLast?_eq_getElem?, hlength]
  have hnext : (first ++ rest)[size - 1 + 1]? = rest.head? := by
    rw [Nat.sub_add_cancel hsize, ← Nat.zero_add size, hrest, List.head?_eq_getElem?]
  constructor
  · intro h
    refine ⟨?_, ?_⟩
    · have hcut := h (size - 1) k hend ⟨1, by omega⟩
      rwa [hnext] at hcut
    · intro i k' hk hdvd
      have hcut := h (i + size) k' ((hrest i).trans hk) (by
        rw [Nat.add_right_comm]
        exact Nat.dvd_add_self_right.mpr hdvd)
      rwa [Nat.add_right_comm, hrest] at hcut
  · rintro ⟨hfirst, hcuts⟩ i k' hk hdvd
    have hle : size ≤ i + 1 := Nat.le_of_dvd (Nat.succ_pos i) hdvd
    by_cases hi : i = size - 1
    · subst hi
      rw [hend] at hk
      cases hk
      rwa [hnext]
    · obtain ⟨j, rfl⟩ : ∃ j, i = j + size := ⟨i - size, by omega⟩
      rw [hrest] at hk
      rw [Nat.add_right_comm, hrest]
      refine hcuts j k' hk ?_
      rw [Nat.add_right_comm] at hdvd
      exact Nat.dvd_add_self_right.mp hdvd

end cuts

section pages
variable {key : α → κ} {sort : List α → List α} {accepts : κ → Bool} {e : ε} {rows : List α}
  {size : ℕ} {c : Option κ}

theorem mem_below {row : α} : row ∈ below key rows c ↔ row ∈ rows ∧ ∀ k ∈ c, key row < k := by
  rw [below, List.mem_filter]
  cases c <;> simp

theorem below_below {k : κ} (hk : ∀ k' ∈ c, k ≤ k') :
    below key (below key rows c) (some k) = below key rows (some k) := by
  rw [below, below, below, List.filter_filter]
  apply List.filter_congr
  intro row _
  cases c with
  | none => simp
  | some k' =>
    have hle : k ≤ k' := hk k' rfl
    simp only [Option.all_some, Bool.and_eq_left_iff_imp, decide_eq_true_eq]
    exact fun hlt => hlt.trans_le hle

theorem Orders.keys_eq (h : Orders key sort) {other : List α} (hperm : rows.Perm other) :
    (sort rows).map key = (sort other).map key := by
  have hsorted (rows : List α) : ((sort rows).map key).Pairwise (fun a b => b ≤ a) :=
    List.pairwise_map.mpr (h.sorted rows)
  have hkeys : ((sort rows).map key).Perm ((sort other).map key) :=
    (((h.perm rows).trans hperm).trans (h.perm other).symm).map key
  exact hkeys.eq_of_pairwise (fun _ _ _ _ hab hba => le_antisymm hba hab) (hsorted _) (hsorted _)

theorem Orders.keys_of_sorted (h : Orders key sort)
    (hsorted : rows.Pairwise (fun a b => key b ≤ key a)) : (sort rows).map key = rows.map key :=
  ((h.perm rows).map key).eq_of_pairwise (fun _ _ _ _ hab hba => le_antisymm hba hab)
    (List.pairwise_map.mpr (h.sorted rows)) (List.pairwise_map.mpr hsorted)

/-- The order of rows with one key does not show in the keys. -/
theorem Orders.keys_unique (h : Orders key sort) {sort' : List α → List α}
    (h' : Orders key sort') : (sort rows).map key = (sort' rows).map key := by
  rw [← h.keys_of_sorted (h'.sorted rows)]
  exact h.keys_eq (h'.perm rows).symm

theorem orders_sortDescending : Orders key (sortDescending key) :=
  ⟨sortDescending_perm, sortDescending_sorted⟩

/-- The first of sorted rows decides whether all stand below a key. -/
theorem head_lt_iff {k : κ} (hsorted : rows.Pairwise (fun a b => key b ≤ key a)) :
    (∀ k' ∈ (rows.map key).head?, k' < k) ↔ ∀ row ∈ rows, key row < k := by
  cases rows with
  | nil => simp
  | cons row rows =>
    have hle := (List.pairwise_cons.mp hsorted).1
    constructor
    · intro h other hother
      have hrow : key row < k := h _ rfl
      rcases List.mem_cons.mp hother with rfl | hother
      · exact hrow
      · exact (hle other hother).trans_lt hrow
    · intro h k' hk'
      rw [← Option.some.inj hk']
      exact h row List.mem_cons_self

theorem pageBelow_full {first rest : List α} {last : α}
    (hsorted : sort (below key rows c) = first ++ rest) (hfirst : first.length = size)
    (hlast : first.getLast? = some last) (haccepts : c.all accepts = true) :
    pageBelow key sort accepts e rows size c = .ok (first, some (key last)) := by
  have htake : (sort (below key rows c)).take size = first := by
    rw [hsorted, ← hfirst, List.take_left]
  rw [pageBelow, if_pos haccepts, htake]
  simp only [hfirst, Nat.lt_irrefl, if_false, hlast, Option.map_some]

theorem pageBelow_eq_ok {items : List α} {next : Option κ}
    (h : pageBelow key sort accepts e rows size c = .ok (items, next)) :
    c.all accepts = true ∧ items = (sort (below key rows c)).take size ∧
      next = if items.length < size then none else items.getLast?.map key := by
  unfold pageBelow at h
  split_ifs at h with haccepts
  · obtain ⟨rfl, rfl⟩ := Prod.mk.inj (Except.ok.inj h)
    exact ⟨haccepts, rfl, rfl⟩

/-- What is read from a cursor on stands below it. -/
theorem Walk.lt_cursor (horders : Orders key sort) {pages : List (List α)}
    (h : Walk (pageBelow key sort accepts e rows size) c pages) :
    ∀ row ∈ pages.flatten, ∀ k ∈ c, key row < k := by
  have hitems {c next : Option κ} {items : List α}
      (hpage : pageBelow key sort accepts e rows size c = .ok (items, next)) :
      ∀ row ∈ items, ∀ k ∈ c, key row < k := by
    intro row hrow
    rw [(pageBelow_eq_ok hpage).2.1] at hrow
    exact (mem_below.mp ((horders.perm _).mem_iff.mp (List.mem_of_mem_take hrow))).2
  induction h with
  | last hpage =>
    rw [List.flatten_singleton]
    exact hitems hpage
  | @next c c' items pages hpage _ ih =>
    intro row hrow k hk
    rw [List.flatten_cons, List.mem_append] at hrow
    rcases hrow with hrow | hrow
    · exact hitems hpage row hrow k hk
    · have hnext := (pageBelow_eq_ok hpage).2.2
      split_ifs at hnext
      obtain ⟨last, hlast, rfl⟩ := Option.map_eq_some_iff.mp hnext.symm
      exact (ih row hrow _ rfl).trans (hitems hpage last (List.mem_of_getLast? hlast) k hk)

/-- Below the last key of the first rows stand only rows after them. -/
theorem below_perm_of_sorted (horders : Orders key sort) {first rest : List α} {last : α}
    (hsorted : sort (below key rows c) = first ++ rest) (hlast : first.getLast? = some last) :
    (below key rows (some (key last))).Perm (below key rest (some (key last))) := by
  have hpairwise := horders.sorted (below key rows c)
  rw [hsorted] at hpairwise
  have hmem : last ∈ below key rows c := by
    rw [← (horders.perm _).mem_iff, hsorted]
    exact List.mem_append_left _ (List.mem_of_getLast? hlast)
  have hfirst : below key first (some (key last)) = [] := by
    apply List.filter_eq_nil_iff.mpr
    intro row hrow
    obtain ⟨before, rfl⟩ := List.getLast?_eq_some_iff.mp hlast
    rw [Option.all_some, decide_eq_true_eq, not_lt]
    rcases List.mem_append.mp hrow with hrow | hrow
    · exact (List.pairwise_append.mp (List.pairwise_append.mp hpairwise).1).2.2 row hrow last
        List.mem_cons_self
    · rw [List.mem_singleton.mp hrow]
  have hbelow : below key rows (some (key last)) =
      below key (below key rows c) (some (key last)) :=
    (below_below (fun k hk => ((mem_below.mp hmem).2 k hk).le)).symm
  have hsplit : below key (sort (below key rows c)) (some (key last)) =
      below key rest (some (key last)) := by
    rw [hsorted, below, List.filter_append]
    exact (congrArg (· ++ below key rest (some (key last))) hfirst).trans (List.nil_append _)
  rw [hbelow, ← hsplit]
  exact ((horders.perm _).filter _).symm

/-- Following the cursors reads every row once exactly if the pages are cut between keys. -/
theorem walk_pageBelow_iff (horders : Orders key sort) (hsize : 0 < size) :
    (∃ pages, Walk (pageBelow key sort accepts e rows size) c pages ∧
      pages.flatten.Perm (below key rows c)) ↔
        c.all accepts = true ∧
          CutsBetween accepts size ((sort (below key rows c)).map key) := by
  induction hn : (below key rows c).length using Nat.strong_induction_on generalizing c with
  | _ n ih =>
  have hlengthSort : (sort (below key rows c)).length = n := (horders.perm _).length_eq.trans hn
  rcases Nat.lt_or_ge n size with hshort | hfull
  · -- the only page
    have htake : (sort (below key rows c)).take size = sort (below key rows c) :=
      List.take_of_length_le (by omega)
    have hcuts : CutsBetween accepts size ((sort (below key rows c)).map key) :=
      cutsBetween_short (by rwa [List.length_map, hlengthSort])
    rw [and_iff_left hcuts]
    constructor
    · rintro ⟨pages, hwalk, -⟩
      cases hwalk with
      | last hpage => exact (pageBelow_eq_ok hpage).1
      | next hpage _ => exact (pageBelow_eq_ok hpage).1
    · intro haccepts
      refine ⟨[sort (below key rows c)], .last ?_, ?_⟩
      · rw [pageBelow, if_pos haccepts, htake]
        simp only [hlengthSort, if_pos hshort]
      · rw [List.flatten_singleton]
        exact horders.perm _
  · -- a full page
    obtain ⟨first, rest, hsorted, hfirst⟩ : ∃ first rest,
        sort (below key rows c) = first ++ rest ∧ first.length = size :=
      ⟨_, _, (List.take_append_drop size _).symm, by rw [List.length_take]; omega⟩
    obtain ⟨last, hlast⟩ : ∃ last, first.getLast? = some last := by
      have hne : first ≠ [] := List.length_pos_iff.mp (hfirst ▸ hsize)
      exact ⟨_, List.getLast?_eq_some_getLast hne⟩
    have hpage (haccepts : c.all accepts = true) : pageBelow key sort accepts e rows size c =
        .ok (first, some (key last)) := pageBelow_full hsorted hfirst hlast haccepts
    have hperm := below_perm_of_sorted horders hsorted hlast
    have hshorter : (below key rows (some (key last))).length < n := by
      rw [hperm.length_eq]
      have hle : (below key rest (some (key last))).length ≤ rest.length := List.length_filter_le _ _
      rw [hsorted, List.length_append, hfirst] at hlengthSort
      omega
    have hrows : (first ++ rest).Perm (below key rows c) := hsorted ▸ horders.perm _
    -- the rest is what stands below the cursor exactly if no key is shared
    have hrest (hlt : ∀ row ∈ rest, key row < key last) :
        (below key rows (some (key last))).Perm rest := by
      have hall : below key rest (some (key last)) = rest :=
        List.filter_eq_self.mpr (fun row hrow => decide_eq_true (hlt row hrow))
      rwa [hall] at hperm
    have hsortRest : rest.Pairwise (fun a b => key b ≤ key a) := by
      have hpairwise := horders.sorted (below key rows c)
      rw [hsorted] at hpairwise
      exact (List.pairwise_append.mp hpairwise).2.1
    have hkeys (hlt : ∀ row ∈ rest, key row < key last) :
        (sort (below key rows (some (key last)))).map key = rest.map key :=
      (horders.keys_eq (hrest hlt)).trans (horders.keys_of_sorted hsortRest)
    have hcuts : CutsBetween accepts size ((sort (below key rows c)).map key) ↔
        (accepts (key last) = true ∧ ∀ k' ∈ (rest.map key).head?, k' < key last) ∧
          CutsBetween accepts size (rest.map key) := by
      rw [hsorted, List.map_append]
      exact cutsBetween_append hsize (by rw [List.length_map, hfirst])
        (by rw [List.getLast?_map, hlast, Option.map_some])
    have ihrest := ih _ hshorter (c := some (key last)) rfl
    rw [hcuts, head_lt_iff hsortRest]
    constructor
    · rintro ⟨pages, hwalk, hread⟩
      cases hwalk with
      | last hlastPage =>
        have haccepts := (pageBelow_eq_ok hlastPage).1
        rw [hpage haccepts] at hlastPage
        cases hlastPage
      | @next _ c' items pages hfirstPage hlater =>
        have haccepts := (pageBelow_eq_ok hfirstPage).1
        rw [hpage haccepts] at hfirstPage
        cases hfirstPage
        rw [List.flatten_cons] at hread
        have hlaterRows : pages.flatten.Perm rest :=
          (List.perm_append_left_iff first).mp (hread.trans hrows.symm)
        have hlt : ∀ row ∈ rest, key row < key last := fun row hrow =>
          hlater.lt_cursor horders row (hlaterRows.mem_iff.mpr hrow) _ rfl
        obtain ⟨hcursor, hcutsRest⟩ :=
          ihrest.mp ⟨pages, hlater, hlaterRows.trans (hrest hlt).symm⟩
        rw [hkeys hlt] at hcutsRest
        exact ⟨haccepts, ⟨hcursor, hlt⟩, hcutsRest⟩
    · rintro ⟨haccepts, ⟨hcursor, hlt⟩, hcutsRest⟩
      rw [← hkeys hlt] at hcutsRest
      obtain ⟨pages, hlater, hread⟩ := ihrest.mpr ⟨hcursor, hcutsRest⟩
      refine ⟨first :: pages, .next (hpage haccepts) hlater, ?_⟩
      rw [List.flatten_cons]
      exact ((hread.trans (hrest hlt)).append_left first).trans hrows

end pages

end FastapiTemplate.Keyset
