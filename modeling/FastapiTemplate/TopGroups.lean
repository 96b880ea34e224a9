import Mathlib.Algebra.BigOperators.Group.List.Lemmas
import Mathlib.Algebra.Order.BigOperators.Group.List
import Mathlib.Algebra.Order.Ring.Nat
import Mathlib.Data.List.Count

/-!
# The largest groups

`SELECT key, COUNT(*) .. GROUP BY key ORDER BY count DESC LIMIT n`: each key with its number, the
largest numbers first. Keys of equal number come in any order, so that the limit may cut among them.
-/

namespace FastapiTemplate.TopGroups

variable {κ : Type} [DecidableEq κ]

def groupCounts (keys : List κ) : List (κ × ℕ) := keys.dedup.map (fun k => (k, keys.count k))

def IsTop (limit : ℕ) (keys : List κ) (result : List (κ × ℕ)) : Prop :=
  ∃ groups : List (κ × ℕ), groups.Perm (groupCounts keys) ∧ groups.Pairwise (fun a b => b.2 ≤ a.2) ∧
    result = groups.take limit

/-- Groups of equal number in the order in which they are formed. -/
def top (limit : ℕ) (keys : List κ) : List (κ × ℕ) :=
  ((groupCounts keys).mergeSort (fun a b => b.2 ≤ a.2)).take limit

section groups
variable (keys : List κ)

theorem keys_groupCounts : (groupCounts keys).map (·.1) = keys.dedup := by
  rw [groupCounts, List.map_map]
  exact List.map_id' keys.dedup

theorem sum_groupCounts : ((groupCounts keys).map (·.2)).sum = keys.length := by
  rw [groupCounts, List.map_map]
  exact List.sum_map_count_dedup_eq_length keys

theorem pos_of_mem_groupCounts {x : κ × ℕ} (h : x ∈ groupCounts keys) :
    x.2 = keys.count x.1 ∧ 0 < x.2 := by
  obtain ⟨k, hk, rfl⟩ := List.mem_map.mp h
  exact ⟨rfl, List.count_pos_iff.mpr (List.mem_dedup.mp hk)⟩

theorem isTop_top (limit : ℕ) : IsTop limit keys (top limit keys) := by
  refine ⟨_, List.mergeSort_perm _ _, ?_, rfl⟩
  have htrans (a b c : κ × ℕ) (hab : decide (b.2 ≤ a.2)) (hbc : decide (c.2 ≤ b.2)) :
      decide (c.2 ≤ a.2) :=
    decide_eq_true ((of_decide_eq_true hbc).trans (of_decide_eq_true hab))
  have htotal (a b : κ × ℕ) : (decide (b.2 ≤ a.2) || decide (a.2 ≤ b.2)) = true := by
    rcases le_total b.2 a.2 with h | h <;> simp [h]
  exact (List.pairwise_mergeSort htrans htotal _).imp (fun h => of_decide_eq_true h)

end groups

namespace IsTop

variable {limit : ℕ} {keys : List κ} {result : List (κ × ℕ)}

theorem count_eq (h : IsTop limit keys result) {x : κ × ℕ} (hx : x ∈ result) :
    x.2 = keys.count x.1 ∧ 0 < x.2 := by
  obtain ⟨groups, hperm, -, rfl⟩ := h
  exact pos_of_mem_groupCounts keys (hperm.mem_iff.mp (List.mem_of_mem_take hx))

theorem nodup (h : IsTop limit keys result) : (result.map (·.1)).Nodup := by
  obtain ⟨groups, hperm, -, rfl⟩ := h
  have hgroups : (groups.map (·.1)).Nodup := by
    rw [(hperm.map _).nodup_iff, keys_groupCounts]
    exact keys.nodup_dedup
  exact hgroups.sublist ((List.take_sublist limit groups).map _)

theorem length_eq (h : IsTop limit keys result) : result.length = min limit keys.dedup.length := by
  obtain ⟨groups, hperm, -, rfl⟩ := h
  rw [List.length_take, hperm.length_eq, groupCounts, List.length_map]

theorem sorted (h : IsTop limit keys result) : result.Pairwise (fun a b => b.2 ≤ a.2) := by
  obtain ⟨groups, -, hsorted, rfl⟩ := h
  exact hsorted.sublist (List.take_sublist limit groups)

/-- A key that is left out is not in the majority of those that are not. -/
theorem count_le_of_not_mem (h : IsTop limit keys result) {k : κ} (hk : k ∈ keys)
    (hout : k ∉ result.map (·.1)) {x : κ × ℕ} (hx : x ∈ result) : keys.count k ≤ x.2 := by
  obtain ⟨groups, hperm, hsorted, rfl⟩ := h
  have hmem : (k, keys.count k) ∈ groups :=
    hperm.mem_iff.mpr (List.mem_map.mpr ⟨k, List.mem_dedup.mpr hk, rfl⟩)
  rw [← List.take_append_drop limit groups] at hmem hsorted
  rcases List.mem_append.mp hmem with hmem | hmem
  · exact absurd (List.mem_map.mpr ⟨_, hmem, rfl⟩) hout
  · exact (List.pairwise_append.mp hsorted).2.2 x hx _ hmem

/-- The numbers add up to that of all keys exactly if no key is left out. -/
theorem sum_eq_iff (h : IsTop limit keys result) :
    (result.map (·.2)).sum = keys.length ↔ keys.dedup.length ≤ limit := by
  obtain ⟨groups, hperm, -, rfl⟩ := h
  have hlength : groups.length = keys.dedup.length := by
    rw [hperm.length_eq, groupCounts, List.length_map]
  have hsum : ((groups.take limit).map (·.2)).sum + ((groups.drop limit).map (·.2)).sum =
      keys.length := by
    rw [← List.sum_append, ← List.map_append, List.take_append_drop, (hperm.map _).sum_eq,
      sum_groupCounts]
  constructor
  · intro heq
    have hzero : ((groups.drop limit).map (·.2)).sum = 0 := by omega
    by_contra hlimit
    obtain ⟨x, hx⟩ : ∃ x, x ∈ groups.drop limit :=
      List.exists_mem_of_length_pos (by rw [List.length_drop]; omega)
    have hpos := (pos_of_mem_groupCounts keys (hperm.mem_iff.mp (List.mem_of_mem_drop hx))).2
    have hmem := List.mem_map_of_mem (f := (·.2)) hx
    have hle := List.single_le_sum (fun n _ => Nat.zero_le n) _ hmem
    omega
  · intro hlimit
    rw [List.take_of_length_le (by omega), (hperm.map _).sum_eq, sum_groupCounts]

theorem sum_le (h : IsTop limit keys result) : (result.map (·.2)).sum ≤ keys.length := by
  obtain ⟨groups, hperm, -, rfl⟩ := h
  rw [← sum_groupCounts keys, ← (hperm.map _).sum_eq]
  exact ((List.take_sublist limit groups).map _).sum_le_sum (fun n _ => Nat.zero_le n)

/-- Under an injective renaming the largest groups stay the largest. -/
theorem of_map {μ : Type} [DecidableEq μ] {f : κ → μ} (g : μ → κ) {groups : List (μ × ℕ)}
    (hf : Function.LeftInverse g f) (h : IsTop limit (keys.map f) groups) :
    IsTop limit keys (groups.map (fun group => (g group.1, group.2))) := by
  obtain ⟨all, hperm, hsorted, rfl⟩ := h
  have hinj : Function.Injective f := hf.injective
  refine ⟨all.map (fun group => (g group.1, group.2)), ?_, ?_, List.map_take⟩
  · have hgroups : (groupCounts (keys.map f)).map (fun group => (g group.1, group.2)) =
        groupCounts keys := by
      rw [groupCounts, groupCounts, List.dedup_map_of_injective hinj, List.map_map, List.map_map]
      refine List.map_congr_left (fun k _ => ?_)
      simp only [Function.comp_apply, hf k, List.count_map_of_injective _ f hinj]
    rw [← hgroups]
    exact hperm.map _
  · exact hsorted.map _ (fun _ _ hle => hle)

end IsTop

end FastapiTemplate.TopGroups
