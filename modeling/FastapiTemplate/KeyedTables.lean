import Mathlib.Data.List.Nodup

/-!
# Tables with a unique column

The rows of a table, in some order, no two of which agree in the column `key`. Each statement on
such a table is described by what it does to the row of a key.
-/

namespace FastapiTemplate

structure KeyedTable {ρ κ : Type} (key : ρ → κ) where
  rows : List ρ
  unique : (rows.map key).Nodup

namespace KeyedTable

variable {ρ κ : Type} [DecidableEq κ] {key : ρ → κ}

def empty : KeyedTable key := ⟨[], List.nodup_nil⟩

def lookup (t : KeyedTable key) (k : κ) : Option ρ := t.rows.find? (key · = k)

theorem key_of_lookup {t : KeyedTable key} {k : κ} {r : ρ} (h : t.lookup k = some r) : key r = k :=
  of_decide_eq_true (p := key r = k) (List.find?_some (p := fun r => decide (key r = k)) h)

theorem lookup_eq_some_iff {t : KeyedTable key} {k : κ} {r : ρ} :
    t.lookup k = some r ↔ r ∈ t.rows ∧ key r = k := by
  constructor
  · intro h
    exact ⟨List.mem_of_find?_eq_some h, key_of_lookup h⟩
  · rintro ⟨hmem, rfl⟩
    cases hfind : t.lookup (key r) with
    | none => exact absurd (decide_eq_true rfl) (List.find?_eq_none.mp hfind r hmem)
    | some other =>
      rw [List.inj_on_of_nodup_map t.unique (List.mem_of_find?_eq_some hfind) hmem
        (key_of_lookup hfind)]

theorem lookup_eq_none_iff {t : KeyedTable key} {k : κ} :
    t.lookup k = none ↔ ∀ r ∈ t.rows, key r ≠ k := by
  rw [lookup, List.find?_eq_none]
  simp only [decide_eq_true_eq, ne_eq]

@[simp] theorem lookup_empty (k : κ) : (empty : KeyedTable key).lookup k = none := rfl

/-! ## Statements -/

def update (t : KeyedTable key) (f : ρ → ρ) (hf : ∀ r, key (f r) = key r) : KeyedTable key where
  rows := t.rows.map f
  unique := by
    have hkeys : key ∘ f = key := funext hf
    rw [List.map_map, hkeys]
    exact t.unique

theorem lookup_update (t : KeyedTable key) (f : ρ → ρ) (hf : ∀ r, key (f r) = key r) (k : κ) :
    (t.update f hf).lookup k = (t.lookup k).map f := by
  rw [lookup, update, List.find?_map]
  simp only [Function.comp_def, hf]
  rfl

def insert (t : KeyedTable key) (r : ρ) (h : t.lookup (key r) = none) : KeyedTable key where
  rows := t.rows ++ [r]
  unique := by
    rw [List.map_append, List.map_singleton]
    refine t.unique.append (List.nodup_singleton _) (List.disjoint_singleton.mpr ?_)
    intro hmem
    obtain ⟨other, hother, heq⟩ := List.mem_map.mp hmem
    exact lookup_eq_none_iff.mp h other hother heq

theorem lookup_insert (t : KeyedTable key) (r : ρ) (h : t.lookup (key r) = none) (k : κ) :
    (t.insert r h).lookup k = if key r = k then some r else t.lookup k := by
  rw [lookup, insert, List.find?_append]
  by_cases hkey : key r = k
  · subst hkey
    have hnone : t.rows.find? (key · = key r) = none := h
    rw [hnone, Option.none_or, List.find?_singleton, decide_eq_true rfl, if_pos rfl, if_pos rfl]
  · rw [List.find?_singleton, decide_eq_false hkey, if_neg Bool.false_ne_true, Option.or_none,
      if_neg hkey]
    rfl

def filter (t : KeyedTable key) (p : ρ → Bool) : KeyedTable key where
  rows := t.rows.filter p
  unique := t.unique.sublist (List.filter_sublist.map key)

theorem lookup_filter (t : KeyedTable key) (p : ρ → Bool) (k : κ) :
    (t.filter p).lookup k = (t.lookup k).filter p := by
  refine Option.ext (fun r => ?_)
  rw [lookup_eq_some_iff, Option.filter_eq_some_iff, lookup_eq_some_iff, filter, List.mem_filter]
  tauto

def upsert (t : KeyedTable key) (r : ρ) (f : ρ → ρ) (hf : ∀ r, key (f r) = key r) :
    KeyedTable key :=
  if h : t.lookup (key r) = none then t.insert r h
  else t.update (fun old => if key old = key r then f old else old) (by
    intro old
    split_ifs
    · exact hf old
    · rfl)

theorem lookup_upsert (t : KeyedTable key) (r : ρ) (f : ρ → ρ) (hf : ∀ r, key (f r) = key r)
    (k : κ) : (t.upsert r f hf).lookup k =
      if key r = k then some ((t.lookup k).elim r f) else t.lookup k := by
  unfold upsert
  split_ifs with hnone hkey hkey
  · subst hkey
    rw [lookup_insert, if_pos rfl, hnone, Option.elim_none]
  · rw [lookup_insert, if_neg hkey]
  · subst hkey
    obtain ⟨old, hold⟩ := Option.ne_none_iff_exists'.mp hnone
    rw [lookup_update, hold, Option.map_some, if_pos (key_of_lookup hold), Option.elim_some]
  · rw [lookup_update]
    cases hold : t.lookup k with
    | none => rfl
    | some old =>
      have hne : key old ≠ key r := by
        rw [key_of_lookup hold]
        exact Ne.symm hkey
      rw [Option.map_some, if_neg hne]

theorem mem_upsert {t : KeyedTable key} {r : ρ} {f : ρ → ρ} {hf : ∀ r, key (f r) = key r} {x : ρ}
    (h : x ∈ (t.upsert r f hf).rows) : x = r ∨ x ∈ t.rows ∨ ∃ old ∈ t.rows, x = f old := by
  have hlookup : (t.upsert r f hf).lookup (key x) = some x := lookup_eq_some_iff.mpr ⟨h, rfl⟩
  rw [lookup_upsert] at hlookup
  split_ifs at hlookup
  · cases hold : t.lookup (key x) with
    | none =>
      rw [hold] at hlookup
      exact .inl (Option.some.inj hlookup).symm
    | some old =>
      rw [hold] at hlookup
      exact .inr (.inr ⟨old, (lookup_eq_some_iff.mp hold).1, (Option.some.inj hlookup).symm⟩)
  · exact .inr (.inl (lookup_eq_some_iff.mp hlookup).1)

end KeyedTable

end FastapiTemplate
