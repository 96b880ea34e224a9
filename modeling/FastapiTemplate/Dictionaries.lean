import FastapiTemplate.PythonValues
import Mathlib.Data.List.Induction
import Mathlib.Data.List.Nodup

/-!
# Dictionaries

A dictionary is the list of its items, in the order of their first insertion. `dictOf` is what a
dictionary comprehension gives for a list of items.
-/

namespace FastapiTemplate

variable {κ ν μ : Type} [DecidableEq κ]

/-- The dictionary with these items; a later item replaces the value of an equal key. -/
def dictOf (items : List (κ × ν)) : List (κ × ν) := items.foldl setItem []

section setItem
variable (items : List (κ × ν)) (x : κ × ν)

theorem any_key_iff (key : κ) :
    items.any (·.1 = key) = true ↔ key ∈ items.map (·.1) := by
  simp [List.any_eq_true, List.mem_map]

theorem keys_setItem : (setItem items x).map (·.1) =
    if x.1 ∈ items.map (·.1) then items.map (·.1) else items.map (·.1) ++ [x.1] := by
  rw [setItem]
  simp only [any_key_iff]
  split_ifs
  · rw [List.map_map]
    refine List.map_congr_left (fun y _ => ?_)
    rw [Function.comp_apply]
    split_ifs with hkey
    · exact hkey.symm
    · rfl
  · rw [List.map_append, List.map_singleton]

theorem mem_of_mem_setItem {y : κ × ν} (h : y ∈ setItem items x) : y = x ∨ y ∈ items := by
  rw [setItem] at h
  split_ifs at h
  · obtain ⟨z, hz, rfl⟩ := List.mem_map.mp h
    split_ifs
    · exact .inl rfl
    · exact .inr hz
  · rcases List.mem_append.mp h with h | h
    · exact .inr h
    · exact .inl (List.mem_singleton.mp h)

theorem map_setItem (g : ν → μ) : (setItem items x).map (Prod.map id g) =
    setItem (items.map (Prod.map id g)) (Prod.map id g x) := by
  have hkeys : (items.map (Prod.map id g)).map (·.1) = items.map (·.1) := by
    rw [List.map_map]
    rfl
  rw [setItem, setItem]
  simp only [any_key_iff, hkeys, Prod.map_fst, id_eq]
  split_ifs
  · rw [List.map_map, List.map_map]
    refine List.map_congr_left (fun y _ => ?_)
    simp only [Function.comp_apply, Prod.map_fst, id_eq]
    split_ifs <;> rfl
  · rw [List.map_append, List.map_singleton]

theorem setItem_of_not_mem (h : x.1 ∉ items.map (·.1)) : setItem items x = items ++ [x] := by
  rw [setItem, if_neg (fun hany => h ((any_key_iff items x.1).mp hany))]

end setItem

section dictOf

theorem dictOf_concat (items : List (κ × ν)) (x : κ × ν) :
    dictOf (items ++ [x]) = setItem (dictOf items) x := by
  rw [dictOf, List.foldl_concat, dictOf]

theorem nodup_dictOf (items : List (κ × ν)) : ((dictOf items).map (·.1)).Nodup := by
  induction items using List.reverseRecOn with
  | nil => exact List.nodup_nil
  | append_singleton items x ih =>
    rw [dictOf_concat, keys_setItem]
    split_ifs with hkey
    · exact ih
    · exact ih.append (List.nodup_singleton _) (by simpa using hkey)

theorem mem_of_mem_dictOf {items : List (κ × ν)} {y : κ × ν} (h : y ∈ dictOf items) :
    y ∈ items := by
  induction items using List.reverseRecOn with
  | nil => cases h
  | append_singleton items x ih =>
    rw [dictOf_concat] at h
    rcases mem_of_mem_setItem _ x h with rfl | h
    · exact List.mem_append_right _ (List.mem_singleton_self _)
    · exact List.mem_append_left _ (ih h)

theorem map_dictOf (items : List (κ × ν)) (g : ν → μ) :
    (dictOf items).map (Prod.map id g) = dictOf (items.map (Prod.map id g)) := by
  induction items using List.reverseRecOn with
  | nil => rfl
  | append_singleton items x ih =>
    rw [dictOf_concat, map_setItem, ih, List.map_append, List.map_singleton, dictOf_concat]

/-- Items with distinct keys are a dictionary already. -/
theorem dictOf_of_nodup {items : List (κ × ν)} (h : (items.map (·.1)).Nodup) :
    dictOf items = items := by
  induction items using List.reverseRecOn with
  | nil => rfl
  | append_singleton items x ih =>
    rw [List.map_append, List.map_singleton] at h
    have hnot : x.1 ∉ items.map (·.1) :=
      fun hmem => (List.disjoint_of_nodup_append h) hmem (List.mem_singleton_self _)
    rw [dictOf_concat, ih (List.nodup_append'.mp h).1, setItem_of_not_mem _ _ hnot]

end dictOf

end FastapiTemplate
