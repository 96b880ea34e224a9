import FastapiTemplate.ReadPoolSelection

/-!
# The region that is reported with a pool

`_select_read_pool` returns the region that `_choose_region` settled on, also when this region has
no healthy pool and the pool is drawn from all regions instead.
-/

namespace FastapiTemplate.Sql

namespace DataBase

variable (db : DataBase)

def RegisteredUnder (pool : PoolId) (region : String) : Prop :=
  ∃ entry ∈ db.readPoolsByRegion, entry.1 = region ∧ ∃ m ∈ entry.2, m.pool = pool

/-- What is drawn for a region without a healthy pool: a healthy pool of any region, or any pool
if none is healthy. -/
def Substitute (pool : PoolId) : Prop :=
  db.MarkedHealthy pool ∨ (∀ other, ¬ db.MarkedHealthy other) ∧ db.IsReadPool pool

variable {db}

theorem registeredUnder_of_metas {region : String} {m : PoolMeta} (h : m ∈ db.metas region) :
    db.RegisteredUnder m.pool region := by
  unfold metas at h
  cases hfind : db.readPoolsByRegion.find? (·.1 = region) with
  | none =>
    rw [hfind] at h
    cases h
  | some entry =>
    rw [hfind] at h
    have hname := List.find?_some hfind
    exact ⟨entry, List.mem_of_find?_eq_some hfind, by simpa using hname, m, h, rfl⟩

theorem mem_all {m : PoolMeta} : m ∈ db.readPoolsByRegion.flatMap (·.2) ↔
    ∃ entry ∈ db.readPoolsByRegion, m ∈ entry.2 := List.mem_flatMap

/-- Without a healthy pool in the region, the substitutes are offered. -/
theorem candidates_substitute_iff {region : String} (hany : ¬ db.anyHealthy region = true)
    {pool : PoolId} : (∃ m ∈ db.candidates region, m.pool = pool) ↔ db.Substitute pool := by
  unfold candidates
  rw [if_neg hany]
  dsimp only
  by_cases hhealthy : (db.readPoolsByRegion.flatMap (·.2)).filter (·.healthy) = []
  · rw [if_neg (not_not.mpr hhealthy)]
    have hnone (other : PoolId) : ¬ db.MarkedHealthy other := by
      rintro ⟨entry, hentry, m, hm, -, hflag⟩
      have hmem : m ∈ (db.readPoolsByRegion.flatMap (·.2)).filter (·.healthy) :=
        List.mem_filter.mpr ⟨mem_all.mpr ⟨entry, hentry, hm⟩, hflag⟩
      rw [hhealthy] at hmem
      cases hmem
    constructor
    · rintro ⟨m, hm, rfl⟩
      obtain ⟨entry, hentry, hmem⟩ := mem_all.mp hm
      exact .inr ⟨hnone, entry, hentry, m, hmem, rfl⟩
    · rintro (hmarked | ⟨-, entry, hentry, m, hm, rfl⟩)
      · exact absurd hmarked (hnone pool)
      · exact ⟨m, mem_all.mpr ⟨entry, hentry, hm⟩, rfl⟩
  · rw [if_pos hhealthy]
    constructor
    · rintro ⟨m, hm, rfl⟩
      obtain ⟨hmem, hflag⟩ := List.mem_filter.mp hm
      obtain ⟨entry, hentry, hm⟩ := mem_all.mp hmem
      exact .inl ⟨entry, hentry, m, hm, rfl, hflag⟩
    · rintro (⟨entry, hentry, m, hm, rfl, hflag⟩ | ⟨hnone, -⟩)
      · exact ⟨m, List.mem_filter.mpr ⟨mem_all.mpr ⟨entry, hentry, hm⟩, hflag⟩, rfl⟩
      · obtain ⟨m, hm⟩ := List.exists_mem_of_ne_nil _ hhealthy
        obtain ⟨hmem, hflag⟩ := List.mem_filter.mp hm
        obtain ⟨entry, hentry, hm⟩ := mem_all.mp hmem
        exact absurd ⟨entry, hentry, m, hm, rfl, hflag⟩ (hnone m.pool)

theorem candidates_registered_iff {region : String} :
    (∀ m ∈ db.candidates region, db.RegisteredUnder m.pool region) ↔
      db.anyHealthy region = true ∨ ∀ pool, db.Substitute pool → db.RegisteredUnder pool region := by
  by_cases hany : db.anyHealthy region = true
  · refine iff_of_true (fun m hm => ?_) (.inl hany)
    unfold candidates at hm
    rw [if_pos hany] at hm
    exact registeredUnder_of_metas hm
  · rw [or_iff_right hany]
    constructor
    · intro h pool hpool
      obtain ⟨m, hm, rfl⟩ := (candidates_substitute_iff hany).mpr hpool
      exact h m hm
    · intro h m hm
      exact h m.pool ((candidates_substitute_iff hany).mp ⟨m, hm, rfl⟩)

end DataBase

/-- Whatever is chosen, a read pool that is returned is registered under the region that is
returned with it. -/
def ReportsRegion (db : DataBase) (ctx : RequestContext) : Prop :=
  ∀ {σ : Type} (handler : (c : DbOp) → σ → c.Answer × σ) (s : σ), ChoosesInRange handler →
    ∀ pool region t, (selectReadPool db ctx).execute handler s = (.ok (pool, region), t) →
      db.IsReadPool pool → db.RegisteredUnder pool region

section labels
variable {db : DataBase} {ctx : RequestContext}

theorem reportsRegion_iff {region : String}
    (hregion : db.chooseRegion ctx.clientRegion = some region) :
    ReportsRegion db ctx ↔ ∀ m ∈ db.candidates region, db.RegisteredUnder m.pool region := by
  constructor
  · intro h m hm
    obtain ⟨k, t, hpick⟩ := exists_pick hregion hm
    exact h (pick k) () (pick_choosesInRange k) _ _ _ hpick (DataBase.isReadPool_of_candidates hm)
  · intro h σ handler s hrange pool name t hexecute _
    obtain ⟨m, hm, t', hcandidate⟩ := exists_candidate hregion hrange s
    rw [hcandidate] at hexecute
    obtain ⟨hresult, -⟩ := Prod.mk.inj hexecute
    cases hresult
    exact h m hm

/-- The label is right exactly if the region that serves the read has a healthy pool, or what is
drawn instead is registered under it. -/
theorem reported_region_is_pools_iff : ReportsRegion db ctx ↔
    ∀ region, db.ServedFrom ctx.clientRegion region →
      db.anyHealthy region = true ∨
        ∀ pool, db.Substitute pool → db.RegisteredUnder pool region := by
  cases hregion : db.chooseRegion ctx.clientRegion with
  | none =>
    have hnone : ¬ db.HasReadPool := by
      rw [← @DataBase.chooseRegion_isSome_iff db ctx.clientRegion, hregion]
      exact Bool.false_ne_true
    refine iff_of_true ?_ ?_
    · rintro σ handler s - pool name t - ⟨entry, hentry, m, hm, -⟩
      exact absurd ⟨entry, hentry, List.ne_nil_of_mem hm⟩ hnone
    · intro region hserved
      rw [← DataBase.chooseRegion_eq_some_iff, hregion] at hserved
      cases hserved
  | some region =>
    rw [reportsRegion_iff hregion, DataBase.candidates_registered_iff,
      DataBase.forall_servedFrom_iff hregion]

def outage : DataBase where
  writePool := some 0
  readPoolsByRegion := [("eu", [⟨1, false, none⟩]), ("us", [⟨2, false, none⟩])]
  regionPriority := ["eu", "us"]

theorem outage_reports_other_region :
    (selectReadPool outage anonymous).execute (pick 1) () = (.ok (2, "eu"), ()) ∧
      outage.IsReadPool 2 ∧ ¬ outage.RegisteredUnder 2 "eu" ∧ ¬ ReportsRegion outage anonymous := by
  have hexecute : (selectReadPool outage anonymous).execute (pick 1) () = (.ok (2, "eu"), ()) := rfl
  have hread : outage.IsReadPool 2 := by
    simp [DataBase.IsReadPool, outage]
  have hother : ¬ outage.RegisteredUnder 2 "eu" := by
    simp [DataBase.RegisteredUnder, outage]
  refine ⟨hexecute, hread, hother, ?_⟩
  intro h
  exact hother (h (pick 1) () (pick_choosesInRange 1) _ _ _ hexecute hread)

end labels

end FastapiTemplate.Sql
