import FastapiTemplate.ExpiringStore
import FastapiTemplate.ProgramPool
import Mathlib.Data.List.Infix

/-!
# Stores that share one space of keys

Texts that begin with one of several literals tell which it is, where no literal is a prefix of
another, so families of keys with such literals keep out of each other's way. Programs that call
a store of their own then run as well over their family of a common store.
-/

namespace FastapiTemplate

/-! ## Prefix-free literals -/

section literals
variable {ι α : Type} {literal : ι → List α}

def PrefixFree (literal : ι → List α) : Prop := ∀ i j, literal i <+: literal j → i = j

/-- Literal and rest can be read back. -/
theorem PrefixFree.append_inj (h : PrefixFree literal) {i j : ι} {rest rest' : List α}
    (heq : literal i ++ rest = literal j ++ rest') : i = j ∧ rest = rest' := by
  have hi : literal i <+: literal j ++ rest' := heq ▸ List.prefix_append _ _
  obtain rfl : i = j := by
    rcases List.prefix_or_prefix_of_prefix hi (List.prefix_append _ _) with hprefix | hprefix
    · exact h i j hprefix
    · exact (h j i hprefix).symm
  exact ⟨rfl, List.append_cancel_left heq⟩

end literals

/-! ## Families of entries -/

namespace ExpiringStore

variable {K J V W : Type}

/-- The entries of a family of keys, as far as they can be read. -/
def family (name : J → K) (decode : V → Option W) (st : ExpiringStore K V) : ExpiringStore J W :=
  fun j => (st (name j)).bind (fun e => (decode e.value).map (fun w => ⟨w, e.expiresAt⟩))

section family
variable {name : J → K} {decode : V → Option W} (st : ExpiringStore K V)

theorem get_family (now : ℕ) (j : J) :
    (family name decode st).get now j = (st.get now (name j)).bind decode := by
  unfold get family
  cases st (name j) with
  | none => rfl
  | some e =>
    rw [Option.bind_some]
    cases hw : decode e.value with
    | none =>
      dsimp only
      split_ifs
      · exact hw.symm
      · rfl
    | some w =>
      by_cases halive : aliveAt now e = true
      · have halive' : aliveAt now (⟨w, e.expiresAt⟩ : StoreEntry W) = true := halive
        simp only [Option.map_some, if_pos halive, if_pos halive', Option.bind_some, hw]
      · have halive' : ¬ aliveAt now (⟨w, e.expiresAt⟩ : StoreEntry W) = true := halive
        simp only [Option.map_some, if_neg halive, if_neg halive', Option.bind_none]

variable [DecidableEq K]

/-- What is written outside of the family does not show. -/
theorem family_update_of_notMem {k : K} (hk : ∀ j, name j ≠ k) (entry : Option (StoreEntry V)) :
    family name decode (Function.update st k entry) = family name decode st := by
  funext j
  rw [family, Function.update_of_ne (hk j), family]

variable [DecidableEq J] (hname : Function.Injective name)
include hname

theorem family_set {encode : W → V} (hdecode : ∀ w, decode (encode w) = some w) (j : J) (w : W)
    (expiresAt : Option ℕ) : family name decode (st.set (name j) (encode w) expiresAt) =
      (family name decode st).set j w expiresAt := by
  funext i
  by_cases hi : i = j
  · subst hi
    rw [set_self, family, set_self, Option.bind_some, hdecode, Option.map_some]
  · rw [set_of_ne _ hi, family, set_of_ne _ (hname.ne hi), family]

theorem family_delete (j : J) :
    family name decode (st.delete (name j)) = (family name decode st).delete j := by
  funext i
  by_cases hi : i = j
  · subst hi
    rw [delete_self, family, delete_self, Option.bind_none]
  · rw [delete_of_ne _ hi, family, delete_of_ne _ (hname.ne hi), family]

end family
end ExpiringStore

/-! ## Pools over a view of the state -/

section views
variable {C : Type} {R : C → Type} {ε α T E E' σ τ : Type}

def Pool.over (view : σ → τ) (p : Pool C R ε α T σ) : Pool C R ε α T τ := ⟨view p.state, p.threads⟩

/-- The moves that are left when the environment is seen through `see`. -/
def PoolMove.seen (see : E → Option E') : PoolMove T E → Option (PoolMove T E')
  | .spawn tag => some (.spawn tag)
  | .advance i => some (.advance i)
  | .environment e => (see e).map .environment

/-- `S` behaves as `S'` does on the view of its state: calls are answered alike, and what the
environment does is either the same or not to be seen. -/
structure PoolSystem.Refines (S : PoolSystem C R ε α T E σ) (S' : PoolSystem C R ε α T E' τ)
    (view : σ → τ) (see : E → Option E') : Prop where
  program : S.program = S'.program
  answer : ∀ c s, (S.handler c s).1 = (S'.handler c (view s)).1
  state : ∀ c s, view (S.handler c s).2 = (S'.handler c (view s)).2
  environment : ∀ e s, view (S.environment e s) =
    match see e with
    | none => view s
    | some e' => S'.environment e' (view s)

namespace PoolSystem.Refines

variable {S : PoolSystem C R ε α T E σ} {S' : PoolSystem C R ε α T E' τ} {view : σ → τ}
  {see : E → Option E'}

theorem step (h : S.Refines S' view see) (p : Pool C R ε α T σ) (m : PoolMove T E) :
    (S.step p m).over view = run S'.step (p.over view) (m.seen see).toList := by
  cases m with
  | spawn tag =>
    change (⟨view p.state, p.threads ++ [⟨tag, [], S.program tag⟩]⟩ : Pool C R ε α T τ) =
      ⟨view p.state, p.threads ++ [⟨tag, [], S'.program tag⟩]⟩
    rw [h.program]
  | environment e =>
    have henvironment := h.environment e p.state
    rw [PoolMove.seen]
    cases hsee : see e with
    | none =>
      rw [hsee] at henvironment
      exact congrArg (fun s => (⟨s, p.threads⟩ : Pool C R ε α T τ)) henvironment
    | some e' =>
      rw [hsee] at henvironment
      exact congrArg (fun s => (⟨s, p.threads⟩ : Pool C R ε α T τ)) henvironment
  | advance i =>
    change (S.step p (.advance i)).over view = S'.step (p.over view) (.advance i)
    have hthreads : (p.over view).threads = p.threads := rfl
    cases hth : p.threads[i]? with
    | none => simp only [PoolSystem.step, hthreads, hth]
    | some th =>
      cases hrest : th.rest with
      | pure a => simp only [PoolSystem.step, hthreads, hth, hrest]
      | raise e => simp only [PoolSystem.step, hthreads, hth, hrest]
      | call c next =>
        rw [S.step_advance hth hrest, S'.step_advance (hthreads ▸ hth) hrest, Pool.over, h.state,
          h.answer]
        rfl

/-- A run is a run on the view, without the moves that are not to be seen. -/
theorem run (h : S.Refines S' view see) (p : Pool C R ε α T σ) (ms : List (PoolMove T E)) :
    (FastapiTemplate.run S.step p ms).over view =
      FastapiTemplate.run S'.step (p.over view) (ms.filterMap (PoolMove.seen see)) := by
  induction ms generalizing p with
  | nil => rfl
  | cons m ms ih =>
    rw [run_cons, ih, h.step, ← run_append]
    cases hm : m.seen see with
    | none => rw [List.filterMap_cons_none hm]; rfl
    | some m' => rw [List.filterMap_cons_some hm]; rfl

end PoolSystem.Refines
end views
end FastapiTemplate
