import FastapiTemplate.ReadPoolSelection

/-!
# A pool for every read

`create_pool` with replicas that connect or fail, the updates of health flags and latencies after
it, and the selection of a read pool with every lookup, average and random choice that could
raise.
-/

namespace FastapiTemplate.Sql

def DbError.isPostgresOrOs : DbError → Bool
  | .cannotConnectNow => true
  | .connectionDoesNotExist => true
  | .os => true
  | .postgres => true
  | _ => false

/-! ## The pools that are created -/

/-- The value of a region in `read_uris`; `none` stands for anything that is not a string. -/
inductive ReadUris
  | one (uri : Option String)
  | many (uris : List (Option String))
  deriving DecidableEq, Repr

def ReadUris.toList : ReadUris → List (Option String)
  | .one uri => [uri]
  | .many uris => uris

namespace DataBase

def setDefault (db : DataBase) (region : String) : DataBase :=
  if db.readPoolsByRegion.any (·.1 = region) then db
  else { db with readPoolsByRegion := db.readPoolsByRegion ++ [(region, [])] }

def appendPool (db : DataBase) (region : String) (pool : PoolId) : DataBase :=
  { db with readPoolsByRegion := db.readPoolsByRegion.map (fun entry =>
      if entry.1 = region then (entry.1, entry.2 ++ [⟨pool, true, none⟩]) else entry) }

section creation
variable {σ : Type} (connect : String → σ → Except DbError PoolId × σ)

/-- What is raised, the class variables and the world after it. -/
abbrev Created (σ : Type) := Option DbError × DataBase × σ

def createReadPools (region : String) : List (Option String) → DataBase → σ → Created σ
  | [], db, s => (none, db, s)
  | none :: uris, db, s => createReadPools region uris db s
  | some uri :: uris, db, s =>
    match connect uri s with
    | (.ok pool, t) => createReadPools region uris (db.appendPool region pool) t
    | (.error e, t) =>
      if e.isPostgresOrOs then createReadPools region uris db t else (some e, db, t)

def createRegions : List (String × ReadUris) → DataBase → σ → Created σ
  | [], db, s => (none, db, s)
  | (region, uris) :: rest, db, s =>
    match createReadPools connect region uris.toList (db.setDefault region) s with
    | (none, db', t) => createRegions rest db' t
    | (some e, db', t) => (some e, db', t)

/-- Without any region, reads go to the write pool under `global`. -/
def withGlobal (db : DataBase) (pool : PoolId) : DataBase :=
  if db.readPoolsByRegion = [] then
    { db with readPoolsByRegion := [("global", [⟨pool, true, none⟩])] }
  else db

/-- `settings.REGION_PRIORITY`, or all regions in their order. -/
def withPriority (db : DataBase) (setting : List String) : DataBase :=
  { db with regionPriority :=
      if setting = [] then db.readPoolsByRegion.map (·.1) else setting }

/-- The class variables keep what was assigned before an exception. -/
def createPool (writeUri : String) (readUris : List (String × ReadUris))
    (setting : List String) (db : DataBase) (s : σ) : Created σ :=
  match connect writeUri s with
  | (.error e, t) => (some e, db, t)
  | (.ok pool, t) =>
    match createRegions connect readUris
        { db with writePool := some pool, readPoolsByRegion := [] } t with
    | (some e, db', u) => (some e, db', u)
    | (none, db', u) => (none, (db'.withGlobal pool).withPriority setting, u)

end creation

def Holds (db : DataBase) (pool : PoolId) : Prop := db.writePool = some pool ∨ db.IsReadPool pool

theorem IsReadPool.setDefault {db : DataBase} {region : String} {pool : PoolId}
    (h : (db.setDefault region).IsReadPool pool) : db.IsReadPool pool := by
  unfold DataBase.setDefault at h
  split_ifs at h
  · exact h
  · obtain ⟨entry, hentry, m, hm, rfl⟩ := h
    rcases List.mem_append.mp hentry with hentry | hentry
    · exact ⟨entry, hentry, m, hm, rfl⟩
    · rw [List.mem_singleton.mp hentry] at hm
      cases hm

theorem IsReadPool.appendPool {db : DataBase} {region : String} {added pool : PoolId}
    (h : (db.appendPool region added).IsReadPool pool) : db.IsReadPool pool ∨ pool = added := by
  obtain ⟨entry, hentry, m, hm, rfl⟩ := h
  obtain ⟨former, hformer, rfl⟩ := List.mem_map.mp hentry
  split_ifs at hm
  · rcases List.mem_append.mp hm with hm | hm
    · exact .inl ⟨former, hformer, m, hm, rfl⟩
    · rw [List.mem_singleton.mp hm]
      exact .inr rfl
  · exact .inl ⟨former, hformer, m, hm, rfl⟩

theorem Holds.withGlobal {db : DataBase} {write pool : PoolId} (hwrite : db.writePool = some write)
    (h : (db.withGlobal write).Holds pool) : db.Holds pool := by
  unfold DataBase.withGlobal at h
  split_ifs at h
  · rcases h with h | ⟨entry, hentry, m, hm, rfl⟩
    · exact .inl h
    · rw [List.mem_singleton.mp hentry] at hm
      rw [List.mem_singleton.mp hm]
      exact .inl hwrite
  · exact h

section creation
variable {σ : Type} (connect : String → σ → Except DbError PoolId × σ)

def Connected (pool : PoolId) : Prop := ∃ uri s, (connect uri s).1 = .ok pool

variable {connect}

theorem createReadPools_spec {region : String} (uris : List (Option String)) (db : DataBase)
    (s : σ) :
    (createReadPools connect region uris db s).2.1.writePool = db.writePool ∧
      ∀ pool, (createReadPools connect region uris db s).2.1.IsReadPool pool →
        db.IsReadPool pool ∨ Connected connect pool := by
  induction uris generalizing db s with
  | nil => exact ⟨rfl, fun _ h => .inl h⟩
  | cons uri uris ih =>
    cases uri with
    | none => exact ih db s
    | some uri =>
      unfold createReadPools
      rcases hconnect : connect uri s with ⟨e | pool, t⟩
      · dsimp only
        split_ifs
        · exact ih db t
        · exact ⟨rfl, fun _ h => .inl h⟩
      · obtain ⟨hwrite, hpools⟩ := ih (db.appendPool region pool) t
        refine ⟨hwrite, fun other hother => ?_⟩
        rcases hpools other hother with h | h
        · rcases h.appendPool with h | rfl
          · exact .inl h
          · exact .inr ⟨uri, s, by rw [hconnect]⟩
        · exact .inr h

theorem createRegions_spec (regions : List (String × ReadUris)) (db : DataBase) (s : σ) :
    (createRegions connect regions db s).2.1.writePool = db.writePool ∧
      ∀ pool, (createRegions connect regions db s).2.1.IsReadPool pool →
        db.IsReadPool pool ∨ Connected connect pool := by
  induction regions generalizing db s with
  | nil => exact ⟨rfl, fun _ h => .inl h⟩
  | cons entry regions ih =>
    obtain ⟨region, uris⟩ := entry
    have hdefault : (db.setDefault region).writePool = db.writePool := by
      unfold setDefault
      split_ifs <;> rfl
    obtain ⟨hwrite, hpools⟩ := createReadPools_spec uris.toList (db.setDefault region) s
    have hregion (pool : PoolId) (h : (createReadPools connect region uris.toList
        (db.setDefault region) s).2.1.IsReadPool pool) :
        db.IsReadPool pool ∨ Connected connect pool :=
      (hpools pool h).imp_left IsReadPool.setDefault
    unfold createRegions
    rcases hcreated : createReadPools connect region uris.toList (db.setDefault region) s
      with ⟨_ | e, db', t⟩
    · rw [hcreated] at hwrite hregion
      obtain ⟨hrest, hpools'⟩ := ih db' t
      refine ⟨hrest.trans (hwrite.trans hdefault), fun pool hpool => ?_⟩
      rcases hpools' pool hpool with h | h
      · exact hregion pool h
      · exact .inr h
    · rw [hcreated] at hwrite hregion
      exact ⟨hwrite.trans hdefault, hregion⟩

/-- The configuration that `create_pool` leaves consists of pools that were connected, or it is
the former one. -/
theorem createPool_holds {writeUri : String} {readUris : List (String × ReadUris)}
    {setting : List String} {db : DataBase} {s : σ} {pool : PoolId}
    (h : (createPool connect writeUri readUris setting db s).2.1.Holds pool) :
    db.Holds pool ∨ Connected connect pool := by
  unfold createPool at h
  rcases hconnect : connect writeUri s with ⟨e | write, t⟩
  · rw [hconnect] at h
    exact .inl h
  · rw [hconnect] at h
    dsimp only at h
    have hconnected : Connected connect write := ⟨writeUri, s, by rw [hconnect]⟩
    obtain ⟨hwrite, hpools⟩ := @createRegions_spec _ connect readUris
      { db with writePool := some write, readPoolsByRegion := [] } t
    have hregions (h : (createRegions connect readUris
        { db with writePool := some write, readPoolsByRegion := [] } t).2.1.Holds pool) :
        db.Holds pool ∨ Connected connect pool := by
      rcases h with h | h
      · rw [hwrite] at h
        cases h
        exact .inr hconnected
      · rcases hpools pool h with ⟨entry, hentry, -⟩ | h
        · cases hentry
        · exact .inr h
    rcases hcreated : createRegions connect readUris
      { db with writePool := some write, readPoolsByRegion := [] } t with ⟨_ | e, db', u⟩
    · rw [hcreated] at h hregions hwrite
      exact hregions (Holds.withGlobal hwrite h)
    · rw [hcreated] at h hregions
      exact hregions h

end creation

/-! ## The updates -/

inductive Update
  /-- the flag and the latency of the pool at a position of the region at a position -/
  | probed (region position : ℕ) (healthy : Bool) (latency : Option ℚ)
  | priority (regions : List String)
  deriving DecidableEq, Repr

def setMeta (db : DataBase) (region position : ℕ) (f : PoolMeta → PoolMeta) : DataBase :=
  { db with readPoolsByRegion :=
      db.readPoolsByRegion.modify region (fun entry => (entry.1, entry.2.modify position f)) }

def update (db : DataBase) : Update → DataBase
  | .probed region position healthy latency =>
    db.setMeta region position (fun m => { m with healthy := healthy, lastLatency := latency })
  | .priority regions => { db with regionPriority := regions }

def updates (db : DataBase) (us : List Update) : DataBase := us.foldl update db

theorem IsReadPool.of_setMeta {db : DataBase} {region position : ℕ} {f : PoolMeta → PoolMeta}
    (hf : ∀ m, (f m).pool = m.pool) {pool : PoolId}
    (h : (db.setMeta region position f).IsReadPool pool) : db.IsReadPool pool := by
  obtain ⟨entry, hentry, m, hm, rfl⟩ := h
  obtain ⟨r, hr⟩ := List.mem_iff_getElem?.mp hentry
  obtain ⟨i, hi⟩ := List.mem_iff_getElem?.mp hm
  simp only [setMeta, List.getElem?_modify, Option.map_eq_map, Option.map_eq_some_iff] at hr
  obtain ⟨former, hformer, rfl⟩ := hr
  have hmem := List.mem_of_getElem? hformer
  split_ifs at hi
  · simp only [List.getElem?_modify, Option.map_eq_map, Option.map_eq_some_iff] at hi
    obtain ⟨old, hold, rfl⟩ := hi
    refine ⟨former, hmem, old, List.mem_of_getElem? hold, ?_⟩
    split_ifs
    · exact (hf old).symm
    · rfl
  · exact ⟨former, hmem, m, List.mem_of_getElem? hi, rfl⟩

theorem writePool_update (db : DataBase) (u : Update) : (db.update u).writePool = db.writePool := by
  cases u <;> rfl

theorem Holds.of_update {db : DataBase} {u : Update} {pool : PoolId}
    (h : (db.update u).Holds pool) : db.Holds pool := by
  rcases h with h | h
  · exact .inl (by rwa [writePool_update] at h)
  · cases u with
    | probed region position healthy latency =>
      exact .inr (IsReadPool.of_setMeta
        (f := fun m => { m with healthy := healthy, lastLatency := latency }) (fun _ => rfl) h)
    | priority regions => exact .inr h

theorem writePool_updates (us : List Update) (db : DataBase) :
    (db.updates us).writePool = db.writePool := by
  induction us generalizing db with
  | nil => rfl
  | cons u us ih => exact (ih (db.update u)).trans (writePool_update db u)

theorem Holds.of_updates {us : List Update} {db : DataBase} {pool : PoolId}
    (h : (db.updates us).Holds pool) : db.Holds pool := by
  induction us generalizing db with
  | nil => exact h
  | cons u us ih => exact (ih h).of_update

/-! ## The selection -/

end DataBase

inductive SelectionError
  | key (region : String)
  | type
  | zeroDivision
  | emptySequence
  | runtime (message : String)
  deriving DecidableEq, Repr

abbrev Draw := (n : ℕ) → 0 < n → Fin n

namespace DataBase

def lookup (db : DataBase) (region : String) : Except SelectionError (List PoolMeta) :=
  match db.readPoolsByRegion.find? (·.1 = region) with
  | some entry => .ok entry.2
  | none => .error (.key region)

def addLatency (total : ℚ) (m : PoolMeta) : Except SelectionError ℚ :=
  match m.lastLatency with
  | some latency => .ok (total + latency)
  | none => .error .type

def divide (total : ℚ) (n : ℕ) : Except SelectionError ℚ :=
  if n = 0 then .error .zeroDivision else .ok (total / n)

def average (healthy : List PoolMeta) : Except SelectionError ℚ := do
  divide (← healthy.foldlM addLatency 0) healthy.length

/-- The loop over the regions, with the best region so far. -/
def lowestAverage : List (String × List PoolMeta) → Option (String × ℚ) →
    Except SelectionError (Option (String × ℚ))
  | [], best => .ok best
  | entry :: entries, best =>
    let healthy := entry.2.filter (fun m => m.healthy && m.lastLatency.isSome)
    if healthy = [] then lowestAverage entries best
    else do
      let avg ← average healthy
      lowestAverage entries
        (if best.all (fun lowest => avg < lowest.2) then some (entry.1, avg) else best)

def clientMatch (db : DataBase) : Option String → Except SelectionError (Option String)
  | none => .ok none
  | some region =>
    if region ≠ "" ∧ db.readPoolsByRegion.any (·.1 = region) then do
      let metas ← db.lookup region
      .ok (if metas.any (·.healthy) then some region else none)
    else .ok none

def chosenRegion (db : DataBase) (clientRegion : Option String) :
    Except SelectionError (Option String) := do
  match ← db.clientMatch clientRegion with
  | some region => .ok (some region)
  | none =>
    match db.regionPriority.find? db.anyHealthy with
    | some region => .ok (some region)
    | none =>
      match (← lowestAverage db.readPoolsByRegion none).filter (·.1 ≠ "") with
      | some best => .ok (some best.1)
      | none => .ok ((db.readPoolsByRegion.find? (·.2 ≠ [])).map (·.1))

def randomChoice (draw : Draw) (metas : List PoolMeta) : Except SelectionError PoolMeta :=
  if h : 0 < metas.length then .ok (metas[draw metas.length h]) else .error .emptySequence

def readPool (db : DataBase) (clientRegion : Option String) (draw : Draw) :
    Except SelectionError (PoolId × String) := do
  match ← db.chosenRegion clientRegion with
  | none =>
    match db.writePool with
    | some pool => .ok (pool, db.regionNameForPool pool "primary_fallback")
    | none => .error (.runtime "No DB pools available")
  | some region => do
    let m ← randomChoice draw (db.candidates region)
    .ok (m.pool, region)

theorem foldlM_addLatency (metas : List PoolMeta) (total : ℚ)
    (h : ∀ m ∈ metas, m.lastLatency.isSome) :
    metas.foldlM addLatency total = .ok (total + (metas.filterMap (·.lastLatency)).sum) := by
  induction metas generalizing total with
  | nil => exact congrArg Except.ok (add_zero total).symm
  | cons m metas ih =>
    obtain ⟨latency, hlatency⟩ := Option.isSome_iff_exists.mp (h m List.mem_cons_self)
    have hadd : addLatency total m = .ok (total + latency) := by
      unfold addLatency
      rw [hlatency]
    rw [List.foldlM_cons, hadd, List.filterMap_cons, hlatency]
    exact (ih _ (fun m' hm' => h m' (List.mem_cons_of_mem _ hm'))).trans
      (congrArg Except.ok (by rw [List.sum_cons, add_assoc]))

theorem filterMap_length_of_isSome {metas : List PoolMeta}
    (h : ∀ m ∈ metas, m.lastLatency.isSome) :
    (metas.filterMap (·.lastLatency)).length = metas.length := by
  induction metas with
  | nil => rfl
  | cons m metas ih =>
    obtain ⟨latency, hlatency⟩ := Option.isSome_iff_exists.mp (h m List.mem_cons_self)
    rw [List.filterMap_cons, hlatency, List.length_cons, List.length_cons,
      ih (fun m' hm' => h m' (List.mem_cons_of_mem _ hm'))]

theorem filterMap_measured (metas : List PoolMeta) :
    (metas.filter (fun m => m.healthy && m.lastLatency.isSome)).filterMap (·.lastLatency) =
      (metas.filter (·.healthy)).filterMap (·.lastLatency) := by
  induction metas with
  | nil => rfl
  | cons m metas ih =>
    cases hhealthy : m.healthy <;> cases hlatency : m.lastLatency <;>
      simp [hhealthy, hlatency, ih]

theorem averageLatency_of_measured_nil {metas : List PoolMeta}
    (h : metas.filter (fun m => m.healthy && m.lastLatency.isSome) = []) :
    averageLatency metas = none := by
  unfold averageLatency
  rw [← filterMap_measured, h]
  rfl

/-- The average of measured pools is not divided by zero. -/
theorem average_measured {metas : List PoolMeta}
    (h : metas.filter (fun m => m.healthy && m.lastLatency.isSome) ≠ []) :
    ∃ avg, average (metas.filter (fun m => m.healthy && m.lastLatency.isSome)) = .ok avg ∧
      averageLatency metas = some avg := by
  have hmeasured : ∀ m ∈ metas.filter (fun m => m.healthy && m.lastLatency.isSome),
      m.lastLatency.isSome := by
    intro m hm
    exact (Bool.and_eq_true_iff.mp (List.mem_filter.mp hm).2).2
  have hsum := foldlM_addLatency _ 0 hmeasured
  have hlength := filterMap_length_of_isSome hmeasured
  have hpos := List.length_pos_of_ne_nil h
  unfold averageLatency
  rw [← filterMap_measured metas]
  generalize metas.filter (fun m => m.healthy && m.lastLatency.isSome) = measured at *
  cases hlatencies : measured.filterMap (·.lastLatency) with
  | nil =>
    rw [hlatencies, List.length_nil] at hlength
    omega
  | cons latency latencies =>
    refine ⟨(latency :: latencies).sum / (latency :: latencies).length, ?_, rfl⟩
    unfold average
    rw [hsum, ← hlatencies, hlength, zero_add]
    exact if_neg hpos.ne'

def faster (best : Option (String × ℚ)) (entry : String × List PoolMeta) : Option (String × ℚ) :=
  match averageLatency entry.2, best with
  | none, _ => best
  | some avg, none => some (entry.1, avg)
  | some avg, some lowest => if avg < lowest.2 then some (entry.1, avg) else some lowest

theorem faster_of_none {entry : String × List PoolMeta} (h : averageLatency entry.2 = none)
    (best : Option (String × ℚ)) : faster best entry = best := by
  unfold faster
  rw [h]

theorem faster_of_some {entry : String × List PoolMeta} {avg : ℚ}
    (h : averageLatency entry.2 = some avg) (best : Option (String × ℚ)) : faster best entry =
      if best.all (fun lowest => avg < lowest.2) then some (entry.1, avg) else best := by
  unfold faster
  rw [h]
  cases best with
  | none => rfl
  | some lowest => simp only [Option.all_some, decide_eq_true_eq]

theorem lowestAverage_eq (entries : List (String × List PoolMeta)) (best : Option (String × ℚ)) :
    lowestAverage entries best = .ok (entries.foldl faster best) := by
  induction entries generalizing best with
  | nil => rfl
  | cons entry entries ih =>
    unfold lowestAverage
    rw [List.foldl_cons]
    dsimp only
    by_cases hnil : entry.2.filter (fun m => m.healthy && m.lastLatency.isSome) = []
    · rw [if_pos hnil, ih, faster_of_none (averageLatency_of_measured_nil hnil)]
    · obtain ⟨avg, havg, hlatency⟩ := average_measured hnil
      rw [if_neg hnil, havg, faster_of_some hlatency]
      exact ih _

theorem lowestLatency_eq_foldl (entries : List (String × List PoolMeta)) :
    lowestLatency entries = entries.foldl faster none := rfl

theorem lookup_of_any {db : DataBase} {region : String}
    (h : db.readPoolsByRegion.any (·.1 = region) = true) :
    db.lookup region = .ok (db.metas region) := by
  obtain ⟨entry, hentry, hname⟩ := List.any_eq_true.mp h
  have hsome : (db.readPoolsByRegion.find? (·.1 = region)).isSome :=
    List.find?_isSome.mpr ⟨entry, hentry, hname⟩
  obtain ⟨found, hfound⟩ := Option.isSome_iff_exists.mp hsome
  unfold lookup metas
  rw [hfound]

theorem anyHealthy_of_not_any {db : DataBase} {region : String}
    (h : ¬ db.readPoolsByRegion.any (·.1 = region) = true) : db.anyHealthy region = false := by
  have hfind : db.readPoolsByRegion.find? (·.1 = region) = none := by
    apply List.find?_eq_none.mpr
    intro entry hentry hname
    exact h (List.any_eq_true.mpr ⟨entry, hentry, hname⟩)
  unfold anyHealthy metas
  rw [hfind]
  rfl

theorem clientMatch_eq (db : DataBase) (clientRegion : Option String) :
    db.clientMatch clientRegion =
      .ok (clientRegion.filter (fun region => region ≠ "" ∧ db.anyHealthy region)) := by
  cases clientRegion with
  | none => rfl
  | some region =>
    unfold clientMatch
    dsimp only
    rw [Option.filter_some]
    by_cases hany : db.readPoolsByRegion.any (·.1 = region) = true
    · by_cases hname : region = ""
      · simp [hname]
      · rw [if_pos ⟨hname, hany⟩, lookup_of_any hany]
        by_cases hhealthy : db.anyHealthy region = true
        · rw [if_pos (decide_eq_true ⟨hname, hhealthy⟩)]
          exact congrArg Except.ok (if_pos hhealthy)
        · rw [if_neg (fun hand => hhealthy (decide_eq_true_iff.mp hand).2)]
          exact congrArg Except.ok (if_neg hhealthy)
    · rw [if_neg (fun hand => hany hand.2), anyHealthy_of_not_any hany]
      simp

/-- No lookup, average or division on the way to the region raises. -/
theorem chosenRegion_eq (db : DataBase) (clientRegion : Option String) :
    db.chosenRegion clientRegion = .ok (db.chooseRegion clientRegion) := by
  unfold chosenRegion chooseRegion
  rw [clientMatch_eq, lowestAverage_eq, ← lowestLatency_eq_foldl]
  dsimp only [bind, Except.bind]
  cases clientRegion.filter (fun region => region ≠ "" ∧ db.anyHealthy region) with
  | some region => rfl
  | none =>
    dsimp only
    cases db.regionPriority.find? db.anyHealthy with
    | some region => rfl
    | none =>
      dsimp only
      cases (lowestLatency db.readPoolsByRegion).filter (·.1 ≠ "") <;> rfl

theorem randomChoice_of_ne_nil {metas : List PoolMeta} (h : metas ≠ []) (draw : Draw) :
    ∃ m ∈ metas, randomChoice draw metas = .ok m := by
  have hpos := List.length_pos_of_ne_nil h
  exact ⟨_, List.getElem_mem (draw _ hpos).isLt, dif_pos hpos⟩

/-- Nothing raises while there is a write pool. -/
theorem readPool_isOk {db : DataBase} (hwrite : db.writePool ≠ none)
    (clientRegion : Option String) (draw : Draw) :
    ∃ pool region, db.readPool clientRegion draw = .ok (pool, region) ∧ db.Holds pool := by
  unfold readPool
  rw [chosenRegion_eq]
  dsimp only [bind, Except.bind]
  cases hregion : db.chooseRegion clientRegion with
  | none =>
    obtain ⟨pool, hpool⟩ := Option.ne_none_iff_exists'.mp hwrite
    rw [hpool]
    exact ⟨pool, _, rfl, .inl hpool⟩
  | some region =>
    have hne := candidates_ne_nil (hasReadPool_of_chooseRegion hregion) region
    obtain ⟨m, hm, hchoice⟩ := randomChoice_of_ne_nil hne draw
    dsimp only
    rw [hchoice]
    exact ⟨m.pool, region, rfl, .inr (isReadPool_of_candidates hm)⟩

def drawn {σ : Type} {handler : (c : DbOp) → σ → c.Answer × σ} (h : ChoosesInRange handler)
    (s : σ) : Draw := fun n hn => ⟨(handler (.choice n) s).1, h n s hn⟩

/-- The helpers are given the pool that the selection with all its checks returns. -/
theorem execute_getPool {σ : Type} {handler : (c : DbOp) → σ → c.Answer × σ}
    (h : ChoosesInRange handler) (s : σ) {db : DataBase} {ctx : RequestContext}
    {result : PoolId × String} (hresult : db.readPool ctx.clientRegion (drawn h s) = .ok result) :
    ∃ t, (getPool db ctx false).execute handler s = (.ok result, t) := by
  unfold readPool at hresult
  rw [chosenRegion_eq] at hresult
  dsimp only [bind, Except.bind] at hresult
  cases hregion : db.chooseRegion ctx.clientRegion with
  | none =>
    rw [hregion] at hresult
    unfold getPool selectReadPool
    rw [if_neg Bool.false_ne_true, hregion]
    cases hwrite : db.writePool with
    | none =>
      rw [hwrite] at hresult
      cases hresult
    | some pool =>
      rw [hwrite] at hresult
      cases hresult
      exact ⟨s, rfl⟩
  | some region =>
    rw [hregion] at hresult
    have hpos := List.length_pos_of_ne_nil
      (candidates_ne_nil (hasReadPool_of_chooseRegion hregion) region)
    unfold randomChoice at hresult
    dsimp only at hresult
    rw [dif_pos hpos] at hresult
    cases hresult
    exact ⟨_, execute_selectReadPool hregion (List.getElem?_eq_getElem (h _ s hpos))⟩

section availability
variable {σ : Type} (connect : String → σ → Except DbError PoolId × σ)

/-- After any outcome of `create_pool` that leaves a write pool, and any updates, a read is given
a pool of the configuration. -/
theorem read_pool_available (writeUri : String) (readUris : List (String × ReadUris))
    (setting : List String) (db : DataBase) (s : σ)
    (hwrite : (createPool connect writeUri readUris setting db s).2.1.writePool ≠ none)
    (us : List Update) (clientRegion : Option String) (draw : Draw) :
    ∃ pool region,
      ((createPool connect writeUri readUris setting db s).2.1.updates us).readPool clientRegion
        draw = .ok (pool, region) ∧
      (createPool connect writeUri readUris setting db s).2.1.Holds pool ∧
      (db.Holds pool ∨ Connected connect pool) := by
  have hlater : ((createPool connect writeUri readUris setting db s).2.1.updates us).writePool ≠
      none := by
    rwa [writePool_updates]
  obtain ⟨pool, region, hread, hholds⟩ := readPool_isOk hlater clientRegion draw
  exact ⟨pool, region, hread, hholds.of_updates, createPool_holds hholds.of_updates⟩

end availability

def unconfigured : DataBase := ⟨none, [], []⟩

def connectPrimary : String → Unit → Except DbError PoolId × Unit
  | "primary", s => (.ok 0, s)
  | _, s => (.error .os, s)

theorem read_pool_available_outage :
    (createPool connectPrimary "primary" [("eu", .many [some "replica", none])] [] unconfigured
      ()).2.1.writePool ≠ none ∧
    ∃ pool region,
      ((createPool connectPrimary "primary" [("eu", .many [some "replica", none])] [] unconfigured
        ()).2.1.updates [.probed 0 0 true none]).readPool (some "eu") (fun _ h => ⟨0, h⟩) =
        .ok (pool, region) ∧
      (createPool connectPrimary "primary" [("eu", .many [some "replica", none])] [] unconfigured
        ()).2.1.Holds pool ∧
      (unconfigured.Holds pool ∨ Connected connectPrimary pool) := by
  have hwrite : (createPool connectPrimary "primary" [("eu", .many [some "replica", none])] []
      unconfigured ()).2.1.writePool ≠ none := Option.some_ne_none 0
  exact ⟨hwrite, read_pool_available connectPrimary "primary" _ [] unconfigured () hwrite
    [.probed 0 0 true none] (some "eu") _⟩

end DataBase

end FastapiTemplate.Sql
