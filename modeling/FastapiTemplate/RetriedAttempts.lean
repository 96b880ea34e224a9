import Mathlib.Data.List.Basic
import Mathlib.Data.Nat.Notation

/-!
# Retried attempts

An attempt that fails is followed by the next one, as long as there is one.
-/

namespace FastapiTemplate.RetriedAttempts

variable {α β : Type} (attempt : α → β) (failed : β → Bool)

def made : List α → List β
  | [] => []
  | a :: rest => if failed (attempt a) then attempt a :: made rest else [attempt a]

theorem made_cons_of_failed {a : α} (h : failed (attempt a) = true) (rest : List α) :
    made attempt failed (a :: rest) = attempt a :: made attempt failed rest := by
  rw [made, if_pos h]

theorem made_cons_of_not_failed {a : α} (h : failed (attempt a) = false) (rest : List α) :
    made attempt failed (a :: rest) = [attempt a] := by
  rw [made, if_neg (Bool.eq_false_iff.mp h)]

theorem exists_of_mem_made {as : List α} {b : β} (h : b ∈ made attempt failed as) :
    ∃ a ∈ as, attempt a = b := by
  induction as with
  | nil => cases h
  | cons a rest ih =>
    rw [made] at h
    split_ifs at h
    · rcases List.mem_cons.mp h with rfl | h
      · exact ⟨a, List.mem_cons_self, rfl⟩
      · obtain ⟨a', ha', rfl⟩ := ih h
        exact ⟨a', List.mem_cons_of_mem a ha', rfl⟩
    · exact ⟨a, List.mem_cons_self, (List.mem_singleton.mp h).symm⟩

end FastapiTemplate.RetriedAttempts
