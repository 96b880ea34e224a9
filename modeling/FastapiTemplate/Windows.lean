import Mathlib.Data.Int.Order.Basic
import Mathlib.Data.List.Basic
import Mathlib.Order.Basic
import Mathlib.Tactic.SplitIfs

/-!
# Windows of bounds

Starts and ends of a window are given one after another. The window is what satisfies all of them;
a reader that keeps only the last one of each side has the same window if and only if these are the
strictest, or both windows are empty.
-/

namespace FastapiTemplate.Windows

variable (starts ends : List ℤ) (now width : ℤ)

/-- The ends that bound a window; without any it ends now. -/
def endsOrNow : List ℤ := if ends = [] then [now] else ends

/-- All bounds hold, and without a start the window goes back from its end. -/
def InWindow (t : ℤ) : Prop :=
  (∀ l ∈ starts, l ≤ t) ∧ (∀ u ∈ endsOrNow ends now, t ≤ u) ∧
    (starts = [] → ∃ u ∈ endsOrNow ends now, u - width ≤ t)

instance (t : ℤ) : Decidable (InWindow starts ends now width t) :=
  inferInstanceAs (Decidable (_ ∧ _ ∧ _))

def lastEnd : ℤ := ends.getLast?.getD now

def lastStart : ℤ := starts.getLast?.getD (lastEnd ends now - width)

def InLastWindow (t : ℤ) : Prop := lastStart starts ends now width ≤ t ∧ t ≤ lastEnd ends now

def LastStrictest : Prop :=
  (∀ l ∈ starts.getLast?, ∀ l' ∈ starts, l' ≤ l) ∧ ∀ u ∈ ends.getLast?, ∀ u' ∈ ends, u ≤ u'

def LastCrossed : Prop := ∃ l ∈ starts.getLast?, lastEnd ends now < l

def Crossed : Prop := ∃ l ∈ starts, ∃ u ∈ endsOrNow ends now, u < l

variable {starts ends now width}

theorem lastEnd_mem : lastEnd ends now ∈ endsOrNow ends now := by
  rw [lastEnd, endsOrNow]
  split_ifs with hends
  · subst hends
    exact List.mem_singleton_self now
  · rw [List.getLast?_eq_some_getLast hends, Option.getD_some]
    exact List.getLast_mem hends

theorem lastEnd_le (h : LastStrictest starts ends) : ∀ u ∈ endsOrNow ends now, lastEnd ends now ≤ u := by
  intro u hu
  rw [endsOrNow] at hu
  split_ifs at hu with hends
  · subst hends
    rw [List.mem_singleton.mp hu]
    exact Int.le_refl _
  · rw [lastEnd, List.getLast?_eq_some_getLast hends, Option.getD_some]
    exact h.2 _ (List.getLast?_eq_some_getLast hends) u hu

theorem exists_least {us : List ℤ} (hne : us ≠ []) : ∃ m ∈ us, ∀ u ∈ us, m ≤ u := by
  induction us with
  | nil => exact absurd rfl hne
  | cons u us ih =>
    by_cases hus : us = []
    · subst hus
      exact ⟨u, List.mem_cons_self, by simp⟩
    · obtain ⟨m, hm, hle⟩ := ih hus
      rcases Int.le_total u m with hum | hmu
      · refine ⟨u, List.mem_cons_self, List.forall_mem_cons.mpr ⟨Int.le_refl _, ?_⟩⟩
        exact fun w hw => hum.trans (hle w hw)
      · exact ⟨m, List.mem_cons_of_mem _ hm, List.forall_mem_cons.mpr ⟨hmu, hle⟩⟩

theorem inLastWindow_empty (hwidth : 0 ≤ width) :
    (∀ t, ¬ InLastWindow starts ends now width t) ↔ LastCrossed starts ends now := by
  have hempty : (∀ t, ¬ InLastWindow starts ends now width t) ↔
      lastEnd ends now < lastStart starts ends now width := by
    constructor
    · intro h
      by_contra hle
      exact h _ ⟨Int.not_lt.mp hle, Int.le_refl _⟩
    · rintro hlt t ⟨hstart, hend⟩
      exact absurd (hstart.trans hend) (Int.not_le.mpr hlt)
  rw [hempty, lastStart, LastCrossed]
  cases starts.getLast? with
  | none =>
    simp only [Option.getD_none, Option.mem_def, reduceCtorEq, false_and, exists_false, iff_false]
    omega
  | some l => simp

theorem inWindow_empty (hwidth : 0 ≤ width) :
    (∀ t, ¬ InWindow starts ends now width t) ↔ Crossed starts ends now := by
  constructor
  · intro h
    by_contra hnone
    have hle : ∀ l ∈ starts, ∀ u ∈ endsOrNow ends now, l ≤ u := by
      intro l hl u hu
      by_contra hlt
      exact hnone ⟨l, hl, u, hu, Int.not_le.mp hlt⟩
    obtain ⟨m, hm, hleast⟩ := exists_least (List.ne_nil_of_mem lastEnd_mem :
      endsOrNow ends now ≠ [])
    exact h m ⟨fun l hl => hle l hl m hm, hleast, fun _ => ⟨m, hm, by omega⟩⟩
  · rintro ⟨l, hl, u, hu, hlt⟩ t ⟨hstarts, hends, -⟩
    exact absurd ((hstarts l hl).trans (hends u hu)) (Int.not_le.mpr hlt)

theorem inWindow_of_lastStrictest (h : LastStrictest starts ends) (t : ℤ) :
    InLastWindow starts ends now width t ↔ InWindow starts ends now width t := by
  have hends : t ≤ lastEnd ends now ↔ ∀ u ∈ endsOrNow ends now, t ≤ u :=
    ⟨fun ht u hu => ht.trans (lastEnd_le h u hu), fun ht => ht _ lastEnd_mem⟩
  rw [InLastWindow, InWindow, hends, lastStart]
  cases hlast : starts.getLast? with
  | none =>
    rw [List.getLast?_eq_none_iff.mp hlast]
    have hstart : lastEnd ends now - width ≤ t ↔ ∃ u ∈ endsOrNow ends now, u - width ≤ t := by
      constructor
      · exact fun hstart => ⟨_, lastEnd_mem, hstart⟩
      · rintro ⟨u, hu, hstart⟩
        have hle : lastEnd ends now ≤ u := lastEnd_le h u hu
        omega
    rw [Option.getD_none, hstart]
    simp [and_comm]
  | some l =>
    have hne : starts ≠ [] := by
      rintro rfl
      cases hlast
    have hmem : l ∈ starts := List.mem_of_getLast? hlast
    simp only [Option.getD_some, hne, false_implies, and_true]
    refine and_congr_left (fun _ => ⟨fun hl l' hl' => ?_, fun hall => hall l hmem⟩)
    exact (h.1 l hlast l' hl').trans hl

/-- The last bounds give the window if they are the strictest, or both windows are empty. -/
theorem lastWindow_iff :
    (∀ t, InLastWindow starts ends now width t ↔ InWindow starts ends now width t) ↔
      LastStrictest starts ends ∨ ((∀ t, ¬ InLastWindow starts ends now width t) ∧
        ∀ t, ¬ InWindow starts ends now width t) := by
  constructor
  · intro h
    by_cases hempty : ∀ t, ¬ InLastWindow starts ends now width t
    · exact .inr ⟨hempty, fun t => (not_congr (h t)).mp (hempty t)⟩
    · obtain ⟨t, ht⟩ := not_forall.mp hempty
      have hle : lastStart starts ends now width ≤ lastEnd ends now := by
        obtain ⟨hstart, hend⟩ := not_not.mp ht
        exact hstart.trans hend
      refine .inl ⟨?_, ?_⟩
      · intro l hl l' hl'
        have hstart : lastStart starts ends now width = l := by
          rw [lastStart, Option.mem_def.mp hl, Option.getD_some]
        have hwindow := (h l).mp ⟨hstart.le, hstart ▸ hle⟩
        exact hwindow.1 l' hl'
      · intro u hu u' hu'
        have hend : lastEnd ends now = u := by
          rw [lastEnd, Option.mem_def.mp hu, Option.getD_some]
        have hwindow := (h u).mp ⟨hend ▸ hle, hend.ge⟩
        refine hwindow.2.1 u' ?_
        rwa [endsOrNow, if_neg (List.ne_nil_of_mem hu')]
  · rintro (h | ⟨hlast, hall⟩) t
    · exact inWindow_of_lastStrictest h t
    · exact iff_of_false (hlast t) (hall t)

end FastapiTemplate.Windows
