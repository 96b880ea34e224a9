import Mathlib.Data.Nat.Notation
import Mathlib.Logic.Function.Basic

/-!
# Key-value stores whose entries expire

An entry may carry the instant from which on it no longer exists. Reading needs
the current instant; writing replaces value and expiry together. An expired
entry may stay in the representation, but no read returns it.
-/

namespace FastapiTemplate

structure StoreEntry (V : Type) where
  value : V
  expiresAt : Option ℕ
  deriving DecidableEq, Repr

abbrev ExpiringStore (K V : Type) := K → Option (StoreEntry V)

namespace ExpiringStore

variable {K V : Type}

def empty : ExpiringStore K V := fun _ => none

/-- An entry is alive strictly before its expiry. -/
def aliveAt (now : ℕ) (e : StoreEntry V) : Bool :=
  match e.expiresAt with
  | none => true
  | some t => now < t

def get (st : ExpiringStore K V) (now : ℕ) (k : K) : Option V :=
  match st k with
  | none => none
  | some e => if aliveAt now e then some e.value else none

@[simp] theorem empty_apply (k : K) : (empty : ExpiringStore K V) k = none := rfl

@[simp] theorem get_empty (now : ℕ) (k : K) : get (empty : ExpiringStore K V) now k = none := rfl

theorem get_eq_none_of_apply {st : ExpiringStore K V} {k : K} (h : st k = none) (now : ℕ) :
    st.get now k = none := by simp [get, h]

theorem get_congr {st st' : ExpiringStore K V} {k : K} (h : st k = st' k) (now : ℕ) :
    st.get now k = st'.get now k := by simp [get, h]

theorem get_eq_some_iff {st : ExpiringStore K V} {now : ℕ} {k : K} {v : V} :
    st.get now k = some v ↔ ∃ e, st k = some e ∧ aliveAt now e = true ∧ e.value = v := by
  unfold get
  cases hk : st k with
  | none => simp
  | some e => by_cases ha : aliveAt now e = true <;> simp [ha]

/-- What is alive later was alive earlier. -/
theorem aliveAt_antitone {t u : ℕ} (htu : t ≤ u) {e : StoreEntry V} (h : aliveAt u e = true) :
    aliveAt t e = true := by
  unfold aliveAt at *
  cases he : e.expiresAt with
  | none => rfl
  | some x =>
    rw [he] at h
    simp only [decide_eq_true_eq] at h ⊢
    omega

section write
variable [DecidableEq K]

def set (st : ExpiringStore K V) (k : K) (v : V) (expiresAt : Option ℕ) : ExpiringStore K V :=
  Function.update st k (some ⟨v, expiresAt⟩)

def delete (st : ExpiringStore K V) (k : K) : ExpiringStore K V :=
  Function.update st k none

@[simp] theorem set_self (st : ExpiringStore K V) (k : K) (v : V) (t : Option ℕ) :
    st.set k v t k = some ⟨v, t⟩ := Function.update_self ..

theorem set_of_ne (st : ExpiringStore K V) {k k' : K} (h : k' ≠ k) (v : V) (t : Option ℕ) :
    st.set k v t k' = st k' := Function.update_of_ne h ..

@[simp] theorem delete_self (st : ExpiringStore K V) (k : K) : st.delete k k = none :=
  Function.update_self ..

theorem delete_of_ne (st : ExpiringStore K V) {k k' : K} (h : k' ≠ k) :
    st.delete k k' = st k' := Function.update_of_ne h ..

@[simp] theorem get_set_of_ne (st : ExpiringStore K V) {k k' : K} (h : k' ≠ k) (v : V)
    (t : Option ℕ) (now : ℕ) : (st.set k v t).get now k' = st.get now k' :=
  get_congr (st.set_of_ne h v t) now

@[simp] theorem get_delete_of_ne (st : ExpiringStore K V) {k k' : K} (h : k' ≠ k) (now : ℕ) :
    (st.delete k).get now k' = st.get now k' :=
  get_congr (st.delete_of_ne h) now

/-- A timed entry is read exactly before its expiry. -/
theorem get_set_self_some (st : ExpiringStore K V) (k : K) (v : V) (t now : ℕ) :
    (st.set k v (some t)).get now k = if now < t then some v else none := by
  simp [get, aliveAt]

end write
end ExpiringStore
end FastapiTemplate
