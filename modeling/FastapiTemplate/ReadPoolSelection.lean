import FastapiTemplate.DatabaseHelpers
import Mathlib.Data.List.Induction

/-!
# Healthy pools for reads

The region that `_choose_region` settles on is described by the four rungs of its docstring.
`_select_read_pool` filters the healthy pools of this region only to see whether there are any,
and then chooses among all its pools.
-/

namespace FastapiTemplate.Sql

namespace DataBase

variable (db : DataBase) (clientRegion : Option String)

def MarkedHealthy (pool : PoolId) : Prop :=
  ∃ entry ∈ db.readPoolsByRegion, ∃ m ∈ entry.2, m.pool = pool ∧ m.healthy = true

/-! ## The region of a read -/

/-- No region before it has an average latency as low, and no region after it a lower one. -/
structure Fastest (entries : List (String × List PoolMeta)) (region : String) (avg : ℚ) : Prop where
  exists_split : ∃ before metas after, entries = before ++ (region, metas) :: after ∧
    averageLatency metas = some avg ∧
    (∀ entry ∈ before, ∀ other, averageLatency entry.2 = some other → avg < other) ∧
    ∀ entry ∈ after, ∀ other, averageLatency entry.2 = some other → avg ≤ other

def ClientHealthy (region : String) : Prop :=
  clientRegion = some region ∧ region ≠ "" ∧ db.anyHealthy region = true

def ClientUnhealthy : Prop := ∀ region, ¬ db.ClientHealthy clientRegion region

def PriorityUnhealthy : Prop := ∀ region ∈ db.regionPriority, db.anyHealthy region = false

inductive ServedFrom : String → Prop
  | client {region : String} (h : db.ClientHealthy clientRegion region) : ServedFrom region
  | priority {region : String} {before after : List String}
      (hclient : db.ClientUnhealthy clientRegion)
      (hlist : db.regionPriority = before ++ region :: after)
      (hbefore : ∀ other ∈ before, db.anyHealthy other = false)
      (hhealthy : db.anyHealthy region = true) : ServedFrom region
  | latency {region : String} {avg : ℚ} (hclient : db.ClientUnhealthy clientRegion)
      (hpriority : db.PriorityUnhealthy) (hfastest : Fastest db.readPoolsByRegion region avg)
      (hname : region ≠ "") : ServedFrom region
  | lastResort {region : String} {before after : List (String × List PoolMeta)}
      {metas : List PoolMeta} (hclient : db.ClientUnhealthy clientRegion)
      (hpriority : db.PriorityUnhealthy)
      (hfastest : ∀ other avg, Fastest db.readPoolsByRegion other avg → other = "")
      (hentries : db.readPoolsByRegion = before ++ (region, metas) :: after)
      (hbefore : ∀ entry ∈ before, entry.2 = []) (hmetas : metas ≠ []) : ServedFrom region

variable {db clientRegion}

/-! ## The region of the lowest latency -/

theorem lowestLatency_append_singleton (entries : List (String × List PoolMeta))
    (entry : String × List PoolMeta) :
    lowestLatency (entries ++ [entry]) =
      match averageLatency entry.2, lowestLatency entries with
      | none, best => best
      | some avg, none => some (entry.1, avg)
      | some avg, some lowest => if avg < lowest.2 then some (entry.1, avg) else some lowest := by
  unfold lowestLatency
  rw [List.foldl_append, List.foldl_cons, List.foldl_nil]
  generalize List.foldl _ none entries = best
  cases averageLatency entry.2 <;> cases best <;> rfl

theorem Fastest.append {entries : List (String × List PoolMeta)} {region : String} {avg : ℚ}
    (h : Fastest entries region avg) {entry : String × List PoolMeta}
    (hentry : ∀ other, averageLatency entry.2 = some other → avg ≤ other) :
    Fastest (entries ++ [entry]) region avg := by
  obtain ⟨before, metas, after, rfl, havg, hbefore, hafter⟩ := h.exists_split
  refine ⟨before, metas, after ++ [entry], by simp, havg, hbefore, ?_⟩
  intro e he
  rcases List.mem_append.mp he with he | he
  · exact hafter e he
  · rw [List.mem_singleton.mp he]
    exact hentry

theorem Fastest.le {entries : List (String × List PoolMeta)} {region : String} {avg : ℚ}
    (h : Fastest entries region avg) {entry : String × List PoolMeta} (hentry : entry ∈ entries)
    {other : ℚ} (hother : averageLatency entry.2 = some other) : avg ≤ other := by
  obtain ⟨before, metas, after, rfl, havg, hbefore, hafter⟩ := h.exists_split
  rcases List.mem_append.mp hentry with hmem | hmem
  · exact (hbefore entry hmem other hother).le
  · rcases List.mem_cons.mp hmem with rfl | hmem
    · rw [havg] at hother
      exact (Option.some.inj hother).le
    · exact hafter entry hmem other hother

/-- What the loop over the regions has found after each of them. -/
theorem lowestLatency_spec (entries : List (String × List PoolMeta)) :
    match lowestLatency entries with
    | none => ∀ entry ∈ entries, averageLatency entry.2 = none
    | some best => Fastest entries best.1 best.2 := by
  induction entries using List.reverseRecOn with
  | nil => exact nofun
  | append_singleton entries entry ih =>
    rw [lowestLatency_append_singleton]
    cases havg : averageLatency entry.2 with
    | none =>
      cases hlowest : lowestLatency entries with
      | none =>
        rw [hlowest] at ih
        intro e he
        rcases List.mem_append.mp he with he | he
        · exact ih e he
        · rwa [List.mem_singleton.mp he]
      | some best =>
        rw [hlowest] at ih
        apply ih.append
        intro other hother
        rw [havg] at hother
        cases hother
    | some avg =>
      cases hlowest : lowestLatency entries with
      | none =>
        rw [hlowest] at ih
        refine ⟨entries, entry.2, [], rfl, havg, ?_, nofun⟩
        intro e he other hother
        rw [ih e he] at hother
        cases hother
      | some best =>
        rw [hlowest] at ih
        by_cases hlt : avg < best.2
        · dsimp only
          rw [if_pos hlt]
          refine ⟨entries, entry.2, [], rfl, havg, ?_, nofun⟩
          intro e he other hother
          exact hlt.trans_le (ih.le he hother)
        · dsimp only
          rw [if_neg hlt]
          apply ih.append
          intro other hother
          rw [havg] at hother
          exact (not_lt.mp hlt).trans (Option.some.inj hother).le

/-- Two elements of a list, neither of which stands before the other, are one. -/
theorem eq_of_splits {α : Type} {before after before' after' : List α} {a b : α}
    (h : before ++ a :: after = before' ++ b :: after') (hb : b ∉ before) (ha : a ∉ before') :
    a = b := by
  rcases List.append_eq_append_iff.mp h with ⟨mid, rfl, hafter⟩ | ⟨mid, rfl, hafter⟩
  · cases mid with
    | nil => exact (List.cons.inj hafter).1
    | cons x mid =>
      rw [(List.cons.inj hafter).1] at ha
      exact absurd (List.mem_append_right _ List.mem_cons_self) ha
  · cases mid with
    | nil => exact (List.cons.inj hafter).1.symm
    | cons x mid =>
      rw [(List.cons.inj hafter).1] at hb
      exact absurd (List.mem_append_right _ List.mem_cons_self) hb

/-- Of two fastest regions neither stands before the other. -/
theorem Fastest.unique {entries : List (String × List PoolMeta)} {region other : String}
    {avg lowest : ℚ} (h : Fastest entries region avg) (h' : Fastest entries other lowest) :
    region = other ∧ avg = lowest := by
  have hother := h'
  obtain ⟨before, metas, after, rfl, havg, hbefore, -⟩ := h.exists_split
  obtain ⟨before', metas', after', hsplit, havg', hbefore', -⟩ := h'.exists_split
  have heq : avg = lowest := by
    apply le_antisymm
    · have hmem : (other, metas') ∈ before ++ (region, metas) :: after := by
        rw [hsplit]
        exact List.mem_append_right _ List.mem_cons_self
      exact h.le hmem havg'
    · exact hother.le (List.mem_append_right _ List.mem_cons_self) havg
  subst heq
  have hentry : (region, metas) = (other, metas') := by
    apply eq_of_splits hsplit
    · intro hmem
      exact absurd (hbefore _ hmem _ havg') (lt_irrefl _)
    · intro hmem
      exact absurd (hbefore' _ hmem _ havg) (lt_irrefl _)
  exact ⟨congrArg (·.1) hentry, rfl⟩

theorem lowestLatency_eq_some_iff {entries : List (String × List PoolMeta)}
    {best : String × ℚ} : lowestLatency entries = some best ↔ Fastest entries best.1 best.2 := by
  have hspec := lowestLatency_spec entries
  constructor
  · intro h
    rwa [h] at hspec
  · intro h
    cases hlowest : lowestLatency entries with
    | none =>
      rw [hlowest] at hspec
      obtain ⟨before, metas, after, rfl, havg, -⟩ := h.exists_split
      rw [hspec _ (List.mem_append_right _ List.mem_cons_self)] at havg
      cases havg
    | some found =>
      rw [hlowest] at hspec
      obtain ⟨hname, havg⟩ := hspec.unique h
      exact congrArg some (Prod.ext hname havg)

/-! ## The choice of the region -/

theorem clientUnhealthy_iff : db.ClientUnhealthy clientRegion ↔
    clientRegion.filter (fun region => region ≠ "" ∧ db.anyHealthy region) = none := by
  rw [Option.filter_eq_none_iff]
  constructor
  · intro h region hregion hand
    exact h region ⟨hregion, (decide_eq_true_iff.mp hand).1, (decide_eq_true_iff.mp hand).2⟩
  · rintro h region ⟨hregion, hname, hhealthy⟩
    exact h region hregion (decide_eq_true_iff.mpr ⟨hname, hhealthy⟩)

theorem priorityUnhealthy_iff :
    db.PriorityUnhealthy ↔ db.regionPriority.find? db.anyHealthy = none := by
  rw [List.find?_eq_none]
  constructor
  · intro h region hregion
    rw [h region hregion]
    exact nofun
  · intro h region hregion
    exact Bool.eq_false_of_not_eq_true (h region hregion)

theorem servedFrom_of_chooseRegion {region : String}
    (h : db.chooseRegion clientRegion = some region) : db.ServedFrom clientRegion region := by
  unfold chooseRegion at h
  split at h
  · rename_i found hfound
    obtain ⟨hsome, hand⟩ := Option.filter_eq_some_iff.mp hfound
    cases h
    exact .client ⟨hsome, (decide_eq_true_iff.mp hand).1, (decide_eq_true_iff.mp hand).2⟩
  · rename_i hnone
    have hclient := clientUnhealthy_iff.mpr hnone
    split at h
    · rename_i found hfound
      obtain ⟨hhealthy, before, after, hlist, hbefore⟩ := List.find?_eq_some_iff_append.mp hfound
      cases h
      apply ServedFrom.priority hclient hlist _ hhealthy
      intro other hother
      exact Bool.eq_false_of_not_eq_true' (hbefore other hother)
    · rename_i hfind
      have hpriority := priorityUnhealthy_iff.mpr hfind
      split at h
      · rename_i found avg hfound
        obtain ⟨hlowest, hname⟩ := Option.filter_eq_some_iff.mp hfound
        cases h
        exact .latency hclient hpriority (lowestLatency_eq_some_iff.mp hlowest)
          (decide_eq_true_iff.mp hname)
      · rename_i hlowest
        obtain ⟨⟨name, metas⟩, hfound, rfl⟩ := Option.map_eq_some_iff.mp h
        obtain ⟨hmetas, before, after, hentries, hbefore⟩ :=
          List.find?_eq_some_iff_append.mp hfound
        apply ServedFrom.lastResort hclient hpriority _ hentries _ (decide_eq_true_iff.mp hmetas)
        · intro other avg hfastest
          have hsome : lowestLatency db.readPoolsByRegion = some (other, avg) :=
            lowestLatency_eq_some_iff.mpr hfastest
          by_contra hne
          rw [hsome] at hlowest
          have := Option.filter_eq_none_iff.mp hlowest (other, avg) rfl
          exact this (decide_eq_true_iff.mpr hne)
        · intro entry hentry
          simpa using hbefore entry hentry

theorem find?_eq_some_of_split {α : Type} {p : α → Bool} {before after : List α} {a : α}
    (hbefore : ∀ x ∈ before, p x = false) (ha : p a = true) :
    (before ++ a :: after).find? p = some a := by
  apply List.find?_eq_some_iff_append.mpr
  refine ⟨ha, before, after, rfl, ?_⟩
  intro x hx
  rw [hbefore x hx]
  rfl

theorem chooseRegion_of_servedFrom {region : String} (h : db.ServedFrom clientRegion region) :
    db.chooseRegion clientRegion = some region := by
  unfold chooseRegion
  cases h with
  | client h =>
    obtain ⟨rfl, hname, hhealthy⟩ := h
    have hfilter : (some region).filter (fun region => region ≠ "" ∧ db.anyHealthy region) =
        some region :=
      Option.filter_eq_some_iff.mpr ⟨rfl, decide_eq_true_iff.mpr ⟨hname, hhealthy⟩⟩
    rw [hfilter]
  | priority hclient hlist hbefore hhealthy =>
    rw [clientUnhealthy_iff.mp hclient, hlist, find?_eq_some_of_split hbefore hhealthy]
  | @latency avg hclient hpriority hfastest hname =>
    have hlowest : lowestLatency db.readPoolsByRegion = some (region, avg) :=
      lowestLatency_eq_some_iff.mpr hfastest
    have hfilter : (some (region, avg)).filter (fun best : String × ℚ => best.1 ≠ "") =
        some (region, avg) :=
      Option.filter_eq_some_iff.mpr ⟨rfl, decide_eq_true_iff.mpr hname⟩
    rw [clientUnhealthy_iff.mp hclient, priorityUnhealthy_iff.mp hpriority, hlowest, hfilter]
  | @lastResort before after metas hclient hpriority hfastest hentries hbefore hmetas =>
    have hfilter : (lowestLatency db.readPoolsByRegion).filter (·.1 ≠ "") = none := by
      apply Option.filter_eq_none_iff.mpr
      intro best hbest hname
      exact decide_eq_true_iff.mp hname (hfastest _ _ (lowestLatency_eq_some_iff.mp hbest))
    have hfind : (before ++ (region, metas) :: after).find? (·.2 ≠ []) = some (region, metas) := by
      apply find?_eq_some_of_split
      · intro entry hentry
        simpa using hbefore entry hentry
      · exact decide_eq_true_iff.mpr hmetas
    rw [clientUnhealthy_iff.mp hclient, priorityUnhealthy_iff.mp hpriority, hfilter, hentries, hfind]
    rfl

theorem chooseRegion_eq_some_iff {region : String} :
    db.chooseRegion clientRegion = some region ↔ db.ServedFrom clientRegion region :=
  ⟨servedFrom_of_chooseRegion, chooseRegion_of_servedFrom⟩

/-! ## The pools that are offered -/

variable (db) in
def Unmixed (region : String) : Prop :=
  db.anyHealthy region = true → ∀ m ∈ db.metas region, db.MarkedHealthy m.pool

theorem candidates_markedHealthy_iff {pool : PoolId} (hpool : db.MarkedHealthy pool)
    (region : String) :
    (∀ m ∈ db.candidates region, db.MarkedHealthy m.pool) ↔ db.Unmixed region := by
  unfold candidates Unmixed
  by_cases hany : db.anyHealthy region = true
  · rw [if_pos hany]
    exact ⟨fun h _ => h, fun h => h hany⟩
  · rw [if_neg hany]
    dsimp only
    have hne : (db.readPoolsByRegion.flatMap (·.2)).filter (·.healthy) ≠ [] := by
      obtain ⟨entry, hentry, m, hm, -, hhealthy⟩ := hpool
      apply List.ne_nil_of_mem
      exact List.mem_filter.mpr ⟨List.mem_flatMap.mpr ⟨entry, hentry, hm⟩, hhealthy⟩
    rw [if_pos hne]
    constructor
    · intro _ h
      exact absurd h hany
    · intro _ m hm
      obtain ⟨hmem, hhealthy⟩ := List.mem_filter.mp hm
      obtain ⟨entry, hentry, hm⟩ := List.mem_flatMap.mp hmem
      exact ⟨entry, hentry, m, hm, rfl, hhealthy⟩

end DataBase

/-! ## The random choice -/

def ChoosesInRange {σ : Type} (handler : (c : DbOp) → σ → c.Answer × σ) : Prop :=
  ∀ n s, 0 < n → (handler (.choice n) s).1 < n

/-- Whatever is chosen, a pool is returned that is marked healthy. -/
def SelectsHealthy (db : DataBase) (ctx : RequestContext) : Prop :=
  ∀ {σ : Type} (handler : (c : DbOp) → σ → c.Answer × σ) (s : σ), ChoosesInRange handler →
    ∃ pool region t, (selectReadPool db ctx).execute handler s = (.ok (pool, region), t) ∧
      db.MarkedHealthy pool

section selection
variable {db : DataBase} {ctx : RequestContext}

theorem DataBase.MarkedHealthy.hasReadPool {pool : PoolId} (h : db.MarkedHealthy pool) :
    db.HasReadPool := by
  obtain ⟨entry, hentry, m, hm, -⟩ := h
  exact ⟨entry, hentry, List.ne_nil_of_mem hm⟩

theorem execute_selectReadPool {σ : Type} {handler : (c : DbOp) → σ → c.Answer × σ} {s : σ}
    {region : String} (hregion : db.chooseRegion ctx.clientRegion = some region) {m : PoolMeta}
    (hm : (db.candidates region)[(handler (.choice (db.candidates region).length) s).1]? = some m) :
    (selectReadPool db ctx).execute handler s =
      (.ok (m.pool, region), (handler (.choice (db.candidates region).length) s).2) := by
  unfold selectReadPool
  rw [hregion]
  dsimp only
  rw [Program.execute_perform_bind, hm]
  rfl

def pick (k : ℕ) : (c : DbOp) → Unit → c.Answer × Unit
  | .attempt, s => ((), s)
  | .choice n, s => (k % n, s)
  | .acquire _, s => (.error .os, s)
  | .release _, s => ((), s)
  | .begin _, s => (.error .os, s)
  | .commit _, s => (.error .os, s)
  | .rollback _, s => ((), s)
  | .setConfig .., s => (.error .os, s)
  | .explain .., s => (.error .os, s)
  | .statement .., s => (.error .os, s)

theorem pick_choosesInRange (k : ℕ) : ChoosesInRange (pick k) := fun _ _ hn => Nat.mod_lt _ hn

/-- Every candidate can be chosen. -/
theorem exists_pick {region : String} (hregion : db.chooseRegion ctx.clientRegion = some region)
    {m : PoolMeta} (hm : m ∈ db.candidates region) :
    ∃ k t, (selectReadPool db ctx).execute (pick k) () = (.ok (m.pool, region), t) := by
  obtain ⟨k, hk, rfl⟩ := List.mem_iff_getElem.mp hm
  have hget : (db.candidates region)[((pick k) (.choice (db.candidates region).length) ()).1]? =
      some (db.candidates region)[k] := by
    change (db.candidates region)[k % (db.candidates region).length]? = _
    rw [Nat.mod_eq_of_lt hk]
    exact List.getElem?_eq_getElem hk
  exact ⟨k, _, execute_selectReadPool hregion hget⟩

/-- What is chosen is a candidate. -/
theorem exists_candidate {region : String} (hregion : db.chooseRegion ctx.clientRegion = some region)
    {σ : Type} {handler : (c : DbOp) → σ → c.Answer × σ} (hrange : ChoosesInRange handler) (s : σ) :
    ∃ m ∈ db.candidates region, ∃ t,
      (selectReadPool db ctx).execute handler s = (.ok (m.pool, region), t) := by
  have hread : db.HasReadPool := DataBase.hasReadPool_of_chooseRegion hregion
  have hpos : 0 < (db.candidates region).length :=
    List.length_pos_of_ne_nil (DataBase.candidates_ne_nil hread region)
  have hlt := hrange _ s hpos
  exact ⟨_, List.getElem_mem hlt, _, execute_selectReadPool hregion (List.getElem?_eq_getElem hlt)⟩

theorem DataBase.forall_servedFrom_iff {region : String} {P : String → Prop}
    (hregion : db.chooseRegion ctx.clientRegion = some region) :
    (∀ other, db.ServedFrom ctx.clientRegion other → P other) ↔ P region := by
  constructor
  · intro h
    exact h region (DataBase.chooseRegion_eq_some_iff.mp hregion)
  · intro h other hother
    rw [← DataBase.chooseRegion_eq_some_iff, hregion] at hother
    cases hother
    exact h

theorem selectsHealthy_iff {region : String}
    (hregion : db.chooseRegion ctx.clientRegion = some region) :
    SelectsHealthy db ctx ↔ ∀ m ∈ db.candidates region, db.MarkedHealthy m.pool := by
  constructor
  · intro h m hm
    obtain ⟨k, t, hpick⟩ := exists_pick hregion hm
    obtain ⟨pool, name, t', hexecute, hhealthy⟩ := h (pick k) () (pick_choosesInRange k)
    rw [hpick] at hexecute
    obtain ⟨hresult, -⟩ := Prod.mk.inj hexecute
    cases hresult
    exact hhealthy
  · intro h σ handler s hrange
    obtain ⟨m, hm, t, hexecute⟩ := exists_candidate hregion hrange s
    exact ⟨_, _, _, hexecute, h m hm⟩

def degraded : DataBase where
  writePool := some 0
  readPoolsByRegion := [("eu", [⟨1, true, some (1 / 10)⟩, ⟨2, false, some (1 / 10)⟩])]
  regionPriority := ["eu"]

end selection

end FastapiTemplate.Sql
