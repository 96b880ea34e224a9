import Mathlib.Algebra.Order.Ring.Rat
import Mathlib.Data.List.Basic

/-!
# The connection pools

The class variables of `DataBase` in `api/core/database.py` and the choice of a pool.
`secrets.choice` is left to the caller, who is given the pools to choose from.
-/

namespace FastapiTemplate.Sql

abbrev PoolId := ℕ

structure PoolMeta where
  pool : PoolId
  healthy : Bool
  lastLatency : Option ℚ
  deriving DecidableEq, Repr

structure DataBase where
  writePool : Option PoolId
  readPoolsByRegion : List (String × List PoolMeta)
  regionPriority : List String
  deriving Repr

namespace DataBase

variable (db : DataBase)

def metas (region : String) : List PoolMeta :=
  match db.readPoolsByRegion.find? (·.1 = region) with
  | some entry => entry.2
  | none => []

def anyHealthy (region : String) : Bool := (db.metas region).any (·.healthy)

def averageLatency (metas : List PoolMeta) : Option ℚ :=
  match (metas.filter (·.healthy)).filterMap (·.lastLatency) with
  | [] => none
  | latencies => some (latencies.sum / latencies.length)

/-- The region of the lowest average latency, the first of several. -/
def lowestLatency (entries : List (String × List PoolMeta)) : Option (String × ℚ) :=
  entries.foldl (fun best entry =>
    match averageLatency entry.2, best with
    | none, _ => best
    | some avg, none => some (entry.1, avg)
    | some avg, some lowest => if avg < lowest.2 then some (entry.1, avg) else some lowest) none

def chooseRegion (clientRegion : Option String) : Option String :=
  match clientRegion.filter (fun region => region ≠ "" ∧ db.anyHealthy region) with
  | some region => some region
  | none =>
    match db.regionPriority.find? db.anyHealthy with
    | some region => some region
    | none =>
      match (lowestLatency db.readPoolsByRegion).filter (·.1 ≠ "") with
      | some (region, _) => some region
      | none => (db.readPoolsByRegion.find? (·.2 ≠ [])).map (·.1)

/-- The name of the region that the pool is filed under; an empty name counts as none. -/
def regionNameForPool (pool : PoolId) (default : String) : String :=
  match db.readPoolsByRegion.find? (·.2.any (·.pool = pool)) with
  | some (region, _) => if region = "" then default else region
  | none => default

/-- The pools that `_select_read_pool` chooses from: all those of the region, the unhealthy ones
too, if one of them is healthy. -/
def candidates (region : String) : List PoolMeta :=
  if db.anyHealthy region then db.metas region
  else
    let all := db.readPoolsByRegion.flatMap (·.2)
    let allHealthy := all.filter (·.healthy)
    if allHealthy ≠ [] then allHealthy else all

/-! ## Which pools are chosen -/

def IsReadPool (pool : PoolId) : Prop := ∃ entry ∈ db.readPoolsByRegion, ∃ m ∈ entry.2, m.pool = pool

def HasReadPool : Prop := ∃ entry ∈ db.readPoolsByRegion, entry.2 ≠ []

def Distinct : Prop := ∀ pool, db.IsReadPool pool → db.writePool ≠ some pool

variable {db}

theorem mem_metas {region : String} {m : PoolMeta} (h : m ∈ db.metas region) :
    ∃ entry ∈ db.readPoolsByRegion, m ∈ entry.2 := by
  unfold metas at h
  cases hfind : db.readPoolsByRegion.find? (·.1 = region) with
  | none =>
    rw [hfind] at h
    cases h
  | some entry =>
    rw [hfind] at h
    exact ⟨entry, List.mem_of_find?_eq_some hfind, h⟩

theorem isReadPool_of_candidates {region : String} {m : PoolMeta} (h : m ∈ db.candidates region) :
    db.IsReadPool m.pool := by
  have hall {m : PoolMeta} (hm : m ∈ db.readPoolsByRegion.flatMap (·.2)) : db.IsReadPool m.pool := by
    obtain ⟨entry, hentry, hmem⟩ := List.mem_flatMap.mp hm
    exact ⟨entry, hentry, m, hmem, rfl⟩
  unfold candidates at h
  by_cases hany : db.anyHealthy region
  · rw [if_pos hany] at h
    obtain ⟨entry, hentry, hmem⟩ := mem_metas h
    exact ⟨entry, hentry, m, hmem, rfl⟩
  · rw [if_neg hany] at h
    dsimp only at h
    split at h
    · exact hall (List.mem_filter.mp h).1
    · exact hall h

theorem hasReadPool_of_anyHealthy {region : String} (h : db.anyHealthy region) : db.HasReadPool := by
  obtain ⟨m, hm, -⟩ := List.any_eq_true.mp h
  obtain ⟨entry, hentry, hmem⟩ := mem_metas hm
  exact ⟨entry, hentry, List.ne_nil_of_mem hmem⟩

theorem candidates_ne_nil (h : db.HasReadPool) (region : String) : db.candidates region ≠ [] := by
  unfold candidates
  by_cases hany : db.anyHealthy region
  · rw [if_pos hany]
    obtain ⟨m, hm, -⟩ := List.any_eq_true.mp hany
    exact List.ne_nil_of_mem hm
  · rw [if_neg hany]
    dsimp only
    split
    · assumption
    · obtain ⟨entry, hentry, hne⟩ := h
      obtain ⟨m, hm⟩ := List.exists_mem_of_ne_nil _ hne
      exact List.ne_nil_of_mem (List.mem_flatMap.mpr ⟨entry, hentry, hm⟩)

theorem averageLatency_nil : averageLatency [] = none := rfl

/-- A region has the lowest latency only if a pool is configured. -/
theorem lowestLatency_eq_none {entries : List (String × List PoolMeta)}
    (h : ∀ entry ∈ entries, entry.2 = []) : lowestLatency entries = none := by
  unfold lowestLatency
  induction entries with
  | nil => rfl
  | cons entry entries ih =>
    rw [List.foldl_cons, h entry List.mem_cons_self, averageLatency_nil]
    exact ih (fun e he => h e (List.mem_cons_of_mem _ he))

/-- A region is chosen exactly if some read pool is configured. -/
theorem chooseRegion_isSome_iff {clientRegion : Option String} :
    (db.chooseRegion clientRegion).isSome ↔ db.HasReadPool := by
  constructor
  · intro h
    by_contra hnone
    have hempty : ∀ entry ∈ db.readPoolsByRegion, entry.2 = [] := by
      intro entry hentry
      by_contra hne
      exact hnone ⟨entry, hentry, hne⟩
    have hunhealthy : ∀ region, db.anyHealthy region = false := by
      intro region
      by_contra hany
      exact hnone (hasReadPool_of_anyHealthy (Bool.eq_true_of_not_eq_false hany))
    have hclient : clientRegion.filter (fun region => region ≠ "" ∧ db.anyHealthy region) = none := by
      cases clientRegion with
      | none => rfl
      | some region => simp [Option.filter, hunhealthy]
    have hpriority : db.regionPriority.find? db.anyHealthy = none :=
      List.find?_eq_none.mpr (fun region _ => by rw [hunhealthy]; exact nofun)
    have hlast : db.readPoolsByRegion.find? (·.2 ≠ []) = none := by
      apply List.find?_eq_none.mpr
      intro entry hentry
      rw [hempty entry hentry]
      simp
    unfold chooseRegion at h
    rw [hclient, hpriority, lowestLatency_eq_none hempty, hlast] at h
    cases h
  · rintro ⟨entry, hentry, hne⟩
    have hlast : (db.readPoolsByRegion.find? (·.2 ≠ [])).isSome :=
      List.find?_isSome.mpr ⟨entry, hentry, by simpa using hne⟩
    unfold chooseRegion
    split
    · rfl
    · split
      · rfl
      · split
        · rfl
        · rwa [Option.isSome_map]

theorem hasReadPool_of_chooseRegion {clientRegion : Option String} {region : String}
    (h : db.chooseRegion clientRegion = some region) : db.HasReadPool := by
  apply chooseRegion_isSome_iff.mp
  exact Option.isSome_of_eq_some h

end DataBase

/-! ## Two configurations -/

def primaryOnly : DataBase where
  writePool := some 0
  readPoolsByRegion := []
  regionPriority := []

def replicated : DataBase where
  writePool := some 0
  readPoolsByRegion := [("eu", [⟨1, true, none⟩])]
  regionPriority := ["eu"]

end FastapiTemplate.Sql
