import FastapiTemplate.PoolAvailability

/-!
# The rounds of the health checks

`_health_check_loop` catches `asyncpg.PostgresError` and `OSError` around each probe, while
`_db_retry` and `health_check` count `asyncpg.InterfaceError` as a failure of the connection too.
An error that is not caught ends the task, and no flag changes any more. The gauges of the loop
are left out.
-/

namespace FastapiTemplate.Sql

def DbError.failsHealthCheck (e : DbError) : Bool := e.isDatabaseError || e.isPostgresOrOs

structure Failure where
  error : DbError
  isFailure : error.retried ∨ error.failsHealthCheck

/-- The latency of a probe, or what it raises. -/
abbrev Probe := Except DbError ℚ

namespace Probe

/-- What leaves the `try` statement of the loop. -/
def uncaught : Probe → Option DbError
  | .ok _ => none
  | .error e => if e.isPostgresOrOs then none else some e

end Probe

def PoolMeta.checked (m : PoolMeta) : Probe → PoolMeta
  | .ok latency => { m with healthy := true, lastLatency := some latency }
  | .error _ => { m with healthy := false }

/-! ## One round -/

/-- What the checks have set, the pools they have probed and what has ended them. -/
structure Checks (α : Type) where
  after : α
  probed : List PoolId
  ended : Option DbError

def checkMetas (probe : ℕ → Probe) : List PoolMeta → Checks (List PoolMeta)
  | [] => ⟨[], [], none⟩
  | m :: metas =>
    match (probe 0).uncaught with
    | some e => ⟨m :: metas, [m.pool], some e⟩
    | none =>
      let rest := checkMetas (fun i => probe (i + 1)) metas
      ⟨m.checked (probe 0) :: rest.after, m.pool :: rest.probed, rest.ended⟩

/-- The outcome of the probe for the position of a region and that of a pool in it. -/
def checkRegions (probe : ℕ → ℕ → Probe) :
    List (String × List PoolMeta) → Checks (List (String × List PoolMeta))
  | [] => ⟨[], [], none⟩
  | entry :: entries =>
    let checks := checkMetas (probe 0) entry.2
    match checks.ended with
    | some e => ⟨(entry.1, checks.after) :: entries, checks.probed, some e⟩
    | none =>
      let rest := checkRegions (fun r => probe (r + 1)) entries
      ⟨(entry.1, checks.after) :: rest.after, checks.probed ++ rest.probed, rest.ended⟩

def metaAt (entries : List (String × List PoolMeta)) (region position : ℕ) : Option PoolMeta :=
  entries[region]?.bind (fun entry => entry.2[position]?)

theorem metaAt_cons_zero (entry : String × List PoolMeta) (entries : List (String × List PoolMeta))
    (position : ℕ) : metaAt (entry :: entries) 0 position = entry.2[position]? := rfl

section metas
variable {probe : ℕ → Probe} {metas : List PoolMeta}

theorem checkMetas_of_caught (h : ∀ i < metas.length, (probe i).uncaught = none) :
    checkMetas probe metas =
      ⟨metas.mapIdx (fun i m => m.checked (probe i)), metas.map (·.pool), none⟩ := by
  induction metas generalizing probe with
  | nil => rfl
  | cons m metas ih =>
    have hrest := @ih (fun i => probe (i + 1))
      (fun i hi => h (i + 1) (Nat.succ_lt_succ hi))
    unfold checkMetas
    rw [h 0 (Nat.succ_pos _), hrest, List.mapIdx_cons]
    rfl

theorem checkMetas_ended {i : ℕ} (hi : i < metas.length) (h : (probe i).uncaught ≠ none) :
    (checkMetas probe metas).ended ≠ none := by
  induction metas generalizing probe i with
  | nil => cases hi
  | cons m metas ih =>
    unfold checkMetas
    cases hfirst : (probe 0).uncaught with
    | some e => exact Option.some_ne_none e
    | none =>
      cases i with
      | zero => exact absurd hfirst h
      | succ i => exact @ih (fun i => probe (i + 1)) i (Nat.lt_of_succ_lt_succ hi) h

theorem checkMetas_pools (probe : ℕ → Probe) (metas : List PoolMeta) :
    (checkMetas probe metas).after.map (·.pool) = metas.map (·.pool) := by
  induction metas generalizing probe with
  | nil => rfl
  | cons m metas ih =>
    unfold checkMetas
    cases (probe 0).uncaught with
    | some e => rfl
    | none =>
      have hpool : (m.checked (probe 0)).pool = m.pool := by cases probe 0 <;> rfl
      dsimp only
      rw [List.map_cons, List.map_cons, hpool, ih]

end metas

section regions
variable {probe : ℕ → ℕ → Probe} {entries : List (String × List PoolMeta)}

def Caught (probe : ℕ → ℕ → Probe) (entries : List (String × List PoolMeta)) : Prop :=
  ∀ region position, metaAt entries region position ≠ none →
    (probe region position).uncaught = none

theorem checkRegions_of_caught (h : Caught probe entries) :
    checkRegions probe entries =
      ⟨entries.mapIdx (fun r entry => (entry.1, entry.2.mapIdx (fun i m => m.checked (probe r i)))),
        entries.flatMap (fun entry => entry.2.map (·.pool)), none⟩ := by
  induction entries generalizing probe with
  | nil => rfl
  | cons entry entries ih =>
    have hfirst : ∀ i < entry.2.length, (probe 0 i).uncaught = none := by
      intro i hi
      apply h 0 i
      rw [metaAt_cons_zero, List.getElem?_eq_getElem hi]
      exact Option.some_ne_none _
    have hrest := @ih (fun r => probe (r + 1)) (fun r i => h (r + 1) i)
    unfold checkRegions
    rw [checkMetas_of_caught hfirst, hrest, List.mapIdx_cons]
    rfl

theorem checkRegions_ended (h : ¬ Caught probe entries) :
    (checkRegions probe entries).ended ≠ none := by
  induction entries generalizing probe with
  | nil => exact absurd (fun r i hnone => absurd rfl hnone) h
  | cons entry entries ih =>
    unfold checkRegions
    dsimp only
    cases hended : (checkMetas (probe 0) entry.2).ended with
    | some e => exact Option.some_ne_none e
    | none =>
      refine ih (fun hrest => h ?_)
      intro r i hat
      cases r with
      | zero =>
        by_contra huncaught
        rw [metaAt_cons_zero] at hat
        have hi : i < entry.2.length := by
          by_contra hge
          exact hat (List.getElem?_eq_none (Nat.not_lt.mp hge))
        exact checkMetas_ended hi huncaught hended
      | succ r => exact hrest r i hat

def poolsOf (entries : List (String × List PoolMeta)) : List (List PoolId) :=
  entries.map (fun entry => entry.2.map (·.pool))

theorem checkRegions_pools (probe : ℕ → ℕ → Probe) (entries : List (String × List PoolMeta)) :
    poolsOf (checkRegions probe entries).after = poolsOf entries := by
  induction entries generalizing probe with
  | nil => rfl
  | cons entry entries ih =>
    have hfirst := checkMetas_pools (probe 0) entry.2
    unfold checkRegions
    dsimp only
    cases (checkMetas (probe 0) entry.2).ended with
    | some e => exact congrArg (· :: poolsOf entries) hfirst
    | none => exact congrArg₂ List.cons hfirst (ih _)

theorem metaAt_map_pool (entries : List (String × List PoolMeta)) (region position : ℕ) :
    (metaAt entries region position).map (·.pool) =
      (poolsOf entries)[region]?.bind (fun pools => pools[position]?) := by
  unfold metaAt poolsOf
  rw [List.getElem?_map]
  cases entries[region]? with
  | none => rfl
  | some entry => exact (List.getElem?_map ..).symm

/-- Which probes are made depends on the pools only. -/
theorem Caught.of_pools {entries' : List (String × List PoolMeta)}
    (h : Caught probe entries) (hpools : poolsOf entries' = poolsOf entries) :
    Caught probe entries' := by
  intro r i hat
  apply h r i
  intro hnone
  apply hat
  have hsame := metaAt_map_pool entries' r i
  rw [hpools, ← metaAt_map_pool, hnone, Option.map_none, Option.map_eq_none_iff] at hsame
  exact hsame

end regions

/-! ## The task -/

/-- The class variables, what the latest round has probed, and the error that has ended the
task. -/
structure Monitor where
  db : DataBase
  probed : List PoolId
  ended : Option DbError

namespace Monitor

def start (db : DataBase) : Monitor := ⟨db, [], none⟩

def round (s : Monitor) (probe : ℕ → ℕ → Probe) : Monitor :=
  match s.ended with
  | some _ => { s with probed := [] }
  | none =>
    let checks := checkRegions probe s.db.readPoolsByRegion
    ⟨{ s.db with readPoolsByRegion := checks.after }, checks.probed, checks.ended⟩

def run (s : Monitor) (rounds : List (ℕ → ℕ → Probe)) : Monitor := rounds.foldl round s

end Monitor

/-- Every pool was probed, its flag tells the outcome, and the task goes on. -/
structure RoundReflected (before : Monitor) (probe : ℕ → ℕ → Probe) (after : Monitor) : Prop where
  flags : ∀ region position m, metaAt before.db.readPoolsByRegion region position = some m →
    ∃ m', metaAt after.db.readPoolsByRegion region position = some m' ∧ m'.pool = m.pool ∧
      (m'.healthy = true ↔ ∃ latency, probe region position = .ok latency)
  probed : after.probed = (poolsOf before.db.readPoolsByRegion).flatten
  goesOn : after.ended = none

section loop
variable {s : Monitor} {probe : ℕ → ℕ → Probe}

theorem PoolMeta.checked_pool (m : PoolMeta) (outcome : Probe) :
    (m.checked outcome).pool = m.pool := by
  cases outcome <;> rfl

theorem PoolMeta.checked_healthy (m : PoolMeta) (outcome : Probe) :
    (m.checked outcome).healthy = true ↔ ∃ latency, outcome = .ok latency := by
  cases outcome with
  | error e => exact iff_of_false Bool.false_ne_true (by rintro ⟨latency, ⟨⟩⟩)
  | ok latency => exact iff_of_true rfl ⟨latency, rfl⟩

theorem Monitor.round_of_running (h : s.ended = none) : s.round probe =
    ⟨{ s.db with readPoolsByRegion := (checkRegions probe s.db.readPoolsByRegion).after },
      (checkRegions probe s.db.readPoolsByRegion).probed,
      (checkRegions probe s.db.readPoolsByRegion).ended⟩ := by
  unfold Monitor.round
  rw [h]

theorem Monitor.round_pools (s : Monitor) (probe : ℕ → ℕ → Probe) :
    poolsOf (s.round probe).db.readPoolsByRegion = poolsOf s.db.readPoolsByRegion := by
  unfold Monitor.round
  cases s.ended with
  | some e => rfl
  | none => exact checkRegions_pools probe _

theorem roundReflected_of_caught (hrunning : s.ended = none)
    (h : Caught probe s.db.readPoolsByRegion) : RoundReflected s probe (s.round probe) := by
  rw [Monitor.round_of_running hrunning, checkRegions_of_caught h]
  refine ⟨?_, ?_, rfl⟩
  · intro r i m hm
    obtain ⟨entry, hentry, hmeta⟩ := Option.bind_eq_some_iff.mp hm
    refine ⟨m.checked (probe r i), ?_, m.checked_pool _, m.checked_healthy _⟩
    unfold metaAt
    rw [List.getElem?_mapIdx, hentry]
    change (entry.2.mapIdx _)[i]? = _
    rw [List.getElem?_mapIdx, hmeta]
    rfl
  · exact List.flatMap_def ..

theorem caught_of_roundReflected (hrunning : s.ended = none)
    (h : RoundReflected s probe (s.round probe)) : Caught probe s.db.readPoolsByRegion := by
  by_contra huncaught
  apply checkRegions_ended huncaught
  have hended := h.goesOn
  rwa [Monitor.round_of_running hrunning] at hended

/-- One round keeps the loop going exactly if nothing leaves its `try` statements. -/
theorem roundReflected_iff (hrunning : s.ended = none) :
    RoundReflected s probe (s.round probe) ↔ Caught probe s.db.readPoolsByRegion :=
  ⟨caught_of_roundReflected hrunning, roundReflected_of_caught hrunning⟩

theorem run_reflected_iff (rounds : List (ℕ → ℕ → Probe)) (hrunning : s.ended = none) :
    (∀ before probe after, rounds = before ++ probe :: after →
      RoundReflected (s.run before) probe (s.run (before ++ [probe]))) ↔
      ∀ probe ∈ rounds, Caught probe s.db.readPoolsByRegion := by
  induction rounds generalizing s with
  | nil =>
    refine iff_of_true ?_ ?_
    · intro before probe after h
      cases before <;> cases h
    · rintro probe ⟨⟩
  | cons first rounds ih =>
    constructor
    · intro h
      have hround : RoundReflected s first (s.round first) := h [] first rounds rfl
      have hfirst := (roundReflected_iff hrunning).mp hround
      have hrest := (ih hround.goesOn).mp (fun before probe after hsplit =>
        h (first :: before) probe after (congrArg (first :: ·) hsplit))
      intro probe hprobe
      rcases List.mem_cons.mp hprobe with rfl | hprobe
      · exact hfirst
      · exact (hrest probe hprobe).of_pools (s.round_pools first).symm
    · intro h before probe after hsplit
      have hround := (roundReflected_iff hrunning).mpr (h first List.mem_cons_self)
      cases before with
      | nil =>
        cases hsplit
        exact hround
      | cons b before =>
        cases hsplit
        refine (ih hround.goesOn).mpr ?_ before probe after rfl
        intro other hother
        exact (h other (List.mem_cons_of_mem _ hother)).of_pools (s.round_pools _)

end loop

/-! ## Failures of the connection -/

abbrev Round := ℕ → ℕ → Except Failure ℚ

def Round.probes (round : Round) : ℕ → ℕ → Probe :=
  fun region position => (round region position).mapError (·.error)

/-- Of the failures only `InterfaceError` is not caught. -/
theorem Failure.isPostgresOrOs_iff (failure : Failure) :
    failure.error.isPostgresOrOs = true ↔ failure.error ≠ .interface := by
  obtain ⟨error, hfailure⟩ := failure
  cases error with
  | interface => exact iff_of_false Bool.false_ne_true (fun h => h rfl)
  | cannotConnectNow => exact iff_of_true rfl (by rintro ⟨⟩)
  | connectionDoesNotExist => exact iff_of_true rfl (by rintro ⟨⟩)
  | os => exact iff_of_true rfl (by rintro ⟨⟩)
  | postgres => exact iff_of_true rfl (by rintro ⟨⟩)
  | _ => rcases hfailure with h | h <;> cases h

theorem caught_probes_iff {round : Round} {entries : List (String × List PoolMeta)} :
    Caught round.probes entries ↔ ∀ region position, metaAt entries region position ≠ none →
      ∀ failure, round region position = .error failure → failure.error ≠ .interface := by
  unfold Caught
  refine forall₂_congr (fun r i => forall_congr' (fun hat => ?_))
  unfold Round.probes
  cases houtcome : round r i with
  | ok latency => exact iff_of_true rfl (by rintro failure ⟨⟩)
  | error failure =>
    change (if failure.error.isPostgresOrOs then none else some failure.error) = none ↔ _
    rw [ite_eq_left_iff]
    constructor
    · rintro h other ⟨⟩
      apply failure.isPostgresOrOs_iff.mp
      by_contra hnot
      exact Option.some_ne_none _ (h hnot)
    · intro h hnot
      exact absurd (failure.isPostgresOrOs_iff.mpr (h failure rfl)) hnot

/-- The loop survives its rounds exactly if no probe of a pool raises `InterfaceError`. -/
theorem health_loop_survives_iff (db : DataBase) (rounds : List Round) :
    (∀ before round after, rounds = before ++ round :: after →
      RoundReflected ((Monitor.start db).run (before.map Round.probes)) round.probes
        ((Monitor.start db).run ((before ++ [round]).map Round.probes))) ↔
    ∀ round ∈ rounds, ∀ region position,
      metaAt db.readPoolsByRegion region position ≠ none →
        ∀ failure, round region position = .error failure → failure.error ≠ .interface := by
  have hrun := run_reflected_iff (rounds.map Round.probes) (s := Monitor.start db) rfl
  constructor
  · intro h round hround
    apply caught_probes_iff.mp
    apply hrun.mp _ round.probes (List.mem_map_of_mem hround)
    intro before probe after hsplit
    obtain ⟨before', rest, rfl, rfl, hrest⟩ := List.map_eq_append_iff.mp hsplit
    obtain ⟨round', after', rfl, rfl, rfl⟩ := List.map_eq_cons_iff.mp hrest
    have hreflected := h before' round' after' rfl
    rwa [List.map_append] at hreflected
  · rintro h before round after rfl
    rw [List.map_append]
    apply hrun.mpr _ _ _ (after.map Round.probes)
    · rw [List.map_append, List.map_cons]
    · intro probe hprobe
      obtain ⟨other, hother, rfl⟩ := List.mem_map.mp hprobe
      exact caught_probes_iff.mpr (h other hother)

def interfaceError : Failure := ⟨.interface, .inl rfl⟩

theorem health_loop_ended_by_interface_error :
    ((Monitor.start replicated).run [Round.probes (fun _ _ => .error interfaceError)]).ended =
        some .interface ∧
      ((Monitor.start replicated).run [Round.probes (fun _ _ => .error interfaceError)]).db =
        replicated ∧
      ¬ ∀ (db : DataBase) (rounds : List Round) (before : List Round) (round : Round)
          (after : List Round), rounds = before ++ round :: after →
          RoundReflected ((Monitor.start db).run (before.map Round.probes)) round.probes
            ((Monitor.start db).run ((before ++ [round]).map Round.probes)) := by
  refine ⟨rfl, rfl, ?_⟩
  intro h
  have hended := (h replicated [fun _ _ => .error interfaceError] [] _ [] rfl).goesOn
  cases hended

end FastapiTemplate.Sql
