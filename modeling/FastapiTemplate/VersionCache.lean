import FastapiTemplate.JsonColumns
import FastapiTemplate.TransitionRuns
import Mathlib.Algebra.Group.Int.Defs
import Mathlib.Data.List.Sort

/-!
# The cache of the app versions

`VersionDAO` reads the table `app_versions` through a cache without expiry. The table is asked for
the platform in lower case, while the cached answer stands under the platform as it was spelled,
and the writes invalidate one spelling. Times are numbers here, and the cache holds the values
themselves in place of their JSON text.
-/

namespace FastapiTemplate.Versions

open PyValue

structure AppVersionData where
  platform : String
  minBuild : ℤ
  latestBuild : ℤ
  forceUpdate : Bool
  updateMessage : Option String
  updateUrl : Option String
  createdAt : ℕ
  updatedAt : ℕ
  deriving DecidableEq, Repr

structure AppVersionUpdate where
  minBuild : Option ℤ
  latestBuild : Option ℤ
  forceUpdate : Option Bool
  updateMessage : Option String
  updateUrl : Option String

/-- The data of a new version, with the default of `force_update`. -/
structure AppVersionCreate where
  platform : String
  minBuild : ℤ
  latestBuild : ℤ
  forceUpdate : Bool := false
  updateMessage : Option String
  updateUrl : Option String

/-- `platform` is the primary key. -/
structure VersionTable where
  rows : List AppVersionData
  platformsApart : (rows.map (·.platform)).Nodup

/-- A value that the server does not accept, or a platform that there is. -/
inductive VersionError
  | database
  deriving DecidableEq, Repr

/-! ## Statements -/

def fitsInteger (n : ℤ) : Bool := -2 ^ 31 ≤ n && n < 2 ^ 31

namespace VersionTable

def find? (table : VersionTable) (platform : String) : Option AppVersionData :=
  table.rows.find? (·.platform = platform)

def select (table : VersionTable) (platform : String) : Except VersionError (Option AppVersionData) :=
  if noNulIn platform then .ok (table.find? platform) else .error .database

end VersionTable

namespace AppVersionUpdate

def fits (data : AppVersionUpdate) : Bool :=
  data.minBuild.all fitsInteger && data.latestBuild.all fitsInteger &&
    data.updateMessage.all noNulIn && data.updateUrl.all noNulIn

def apply (data : AppVersionUpdate) (now : ℕ) (row : AppVersionData) : AppVersionData :=
  { row with
    minBuild := data.minBuild.getD row.minBuild
    latestBuild := data.latestBuild.getD row.latestBuild
    forceUpdate := data.forceUpdate.getD row.forceUpdate
    updateMessage := data.updateMessage.or row.updateMessage
    updateUrl := data.updateUrl.or row.updateUrl
    updatedAt := now }

end AppVersionUpdate

def AppVersionCreate.row (data : AppVersionCreate) (platform : String) (now : ℕ) : AppVersionData where
  platform := platform
  minBuild := data.minBuild
  latestBuild := data.latestBuild
  forceUpdate := data.forceUpdate
  updateMessage := data.updateMessage
  updateUrl := data.updateUrl
  createdAt := now
  updatedAt := now

def AppVersionCreate.fits (data : AppVersionCreate) (platform : String) : Bool :=
  fitsVarchar 50 platform && fitsInteger data.minBuild && fitsInteger data.latestBuild &&
    data.updateMessage.all noNulIn && data.updateUrl.all noNulIn

namespace VersionTable

def update (table : VersionTable) (platform : String) (data : AppVersionUpdate) (now : ℕ) :
    VersionTable where
  rows := table.rows.map (fun row => if row.platform = platform then data.apply now row else row)
  platformsApart := by
    have hsame : (fun row : AppVersionData =>
        (if row.platform = platform then data.apply now row else row).platform) = (·.platform) := by
      funext row
      split <;> rfl
    rw [List.map_map, Function.comp_def, hsame]
    exact table.platformsApart

def insert (table : VersionTable) (row : AppVersionData)
    (hnew : row.platform ∉ table.rows.map (·.platform)) : VersionTable where
  rows := table.rows ++ [row]
  platformsApart := by
    rw [List.map_append]
    exact List.Nodup.append table.platformsApart (List.nodup_singleton _) (by simpa using hnew)

def delete (table : VersionTable) (platforms : List String) : VersionTable where
  rows := table.rows.filter (·.platform ∉ platforms)
  platformsApart := table.platformsApart.sublist (List.filter_sublist.map _)

end VersionTable

/-! ## The data access object -/

/-- The cached answers: one for each spelling of a platform, and that of `get_all_versions`. -/
structure VersionCache where
  platform : String → Option AppVersionData
  all : Option (List AppVersionData)

def platformKey (platform : String) : String := "app_version:" ++ platform

def allKey : String := "app_versions:all"

/-- All the keys are different. -/
theorem platformKey_injective : Function.Injective platformKey := by
  intro p q h
  have hlist := congrArg String.toList h
  simp only [platformKey, String.toList_append] at hlist
  exact String.toList_inj.mp (List.append_cancel_left hlist)

theorem platformKey_ne_allKey (platform : String) : platformKey platform ≠ allKey := by
  intro h
  have hlist := congrArg (fun s => s.toList[11]?) h
  simp only [platformKey, String.toList_append] at hlist
  rw [List.getElem?_append_left (by decide)] at hlist
  exact absurd hlist (by decide)

namespace VersionCache

def empty : VersionCache := ⟨fun _ => none, none⟩

def set (cache : VersionCache) (platform : String) (data : AppVersionData) : VersionCache :=
  { cache with platform := Function.update cache.platform platform (some data) }

def delete (cache : VersionCache) (platforms : List String) : VersionCache :=
  { cache with platform := fun p => if p ∈ platforms then none else cache.platform p }

def deleteAll (cache : VersionCache) : VersionCache := { cache with all := none }

end VersionCache

structure VersionState where
  table : VersionTable
  cache : VersionCache

section dao
variable (lower : String → String) (collates : String → String → Prop) [DecidableRel collates]

def VersionTable.selectAll (table : VersionTable) : List AppVersionData :=
  table.rows.insertionSort (fun row row' => collates row.platform row'.platform)

/-- Absence is not cached. -/
def getVersionInfo (platform : String) (s : VersionState) :
    Except VersionError (Option AppVersionData) × VersionState :=
  match s.cache.platform platform with
  | some data => (.ok (some data), s)
  | none =>
    match s.table.select (lower platform) with
    | .ok (some data) => (.ok (some data), { s with cache := s.cache.set platform data })
    | result => (result, s)

def getAllVersions (s : VersionState) : List AppVersionData × VersionState :=
  match s.cache.all with
  | some versions => (versions, s)
  | none =>
    let versions := s.table.selectAll collates
    (versions, { s with cache.all := some versions })

/-- The decorator invalidates the platform as it is spelled. -/
def updateVersionInfo (platform : String) (data : AppVersionUpdate) (now : ℕ) (s : VersionState) :
    Except VersionError (Option AppVersionData) × VersionState :=
  if noNulIn (lower platform) && data.fits then
    let table := s.table.update (lower platform) data now
    (.ok (table.find? (lower platform)), ⟨table, (s.cache.delete [platform]).deleteAll⟩)
  else (.error .database, s)

def createVersion (data : AppVersionCreate) (now : ℕ) (s : VersionState) :
    Except VersionError AppVersionData × VersionState :=
  let row := data.row (lower data.platform) now
  if h : row.platform ∈ s.table.rows.map (·.platform) then (.error .database, s)
  else if data.fits (lower data.platform) then
    (.ok row, ⟨s.table.insert row h, (s.cache.delete [lower data.platform]).deleteAll⟩)
  else (.error .database, s)

def deleteVersions (platforms : List String) (s : VersionState) :
    Except VersionError ℕ × VersionState :=
  let lowerPlatforms := platforms.map lower
  if platforms = [] then (.ok 0, { s with cache := s.cache.deleteAll })
  else if lowerPlatforms.all noNulIn then
    let count := s.table.rows.countP (·.platform ∈ lowerPlatforms)
    let cache := if 0 < count then s.cache.delete lowerPlatforms else s.cache
    (.ok count, ⟨s.table.delete lowerPlatforms, cache.deleteAll⟩)
  else (.error .database, s)

inductive VersionCall
  | getVersionInfo (platform : String)
  | getAllVersions
  | updateVersionInfo (platform : String) (data : AppVersionUpdate) (now : ℕ)
  | createVersion (data : AppVersionCreate) (now : ℕ)
  | deleteVersions (platforms : List String)

def step (s : VersionState) : VersionCall → VersionState
  | .getVersionInfo platform => (getVersionInfo lower platform s).2
  | .getAllVersions => (getAllVersions collates s).2
  | .updateVersionInfo platform data now => (updateVersionInfo lower platform data now s).2
  | .createVersion data now => (createVersion lower data now s).2
  | .deleteVersions platforms => (deleteVersions lower platforms s).2

/-- The cached reads answer what the table does. -/
def Coherent (s : VersionState) : Prop :=
  (∀ q, (getVersionInfo lower q s).1 = s.table.select (lower q)) ∧
    (getAllVersions collates s).1 = s.table.selectAll collates

/-- The writes invalidate every cached spelling of a platform whose row they change. -/
def Harmless (s : VersionState) : VersionCall → Prop
  | .updateVersionInfo platform data now =>
    noNulIn (lower platform) = true → data.fits = true → ∀ q cached, s.cache.platform q = some cached →
      lower q = lower platform → q = platform ∨ data.apply now cached = cached
  | .deleteVersions platforms =>
    (platforms.map lower).all noNulIn = true → ∀ q cached, s.cache.platform q = some cached →
      lower q ∈ platforms.map lower → q ∈ platforms.map lower
  | _ => True

end dao

/-! ## What the statements leave -/

namespace VersionTable

variable {table : VersionTable} {platform : String}

theorem find?_platform {x : String} {row : AppVersionData} (h : table.find? x = some row) :
    row.platform = x := by
  simpa using List.find?_some h

theorem find?_update (data : AppVersionUpdate) (now : ℕ) (x : String) :
    (table.update platform data now).find? x =
      if x = platform then (table.find? x).map (data.apply now) else table.find? x := by
  have hsame : (fun row : AppVersionData => decide (row.platform = x)) ∘
      (fun row => if row.platform = platform then data.apply now row else row) =
      (fun row => decide (row.platform = x)) := by
    funext row
    dsimp only [Function.comp_apply]
    split <;> rfl
  have hfind : (table.update platform data now).find? x = (table.find? x).map
      (fun row => if row.platform = platform then data.apply now row else row) := by
    rw [find?, update, List.find?_map, hsame]
    rfl
  rw [hfind]
  cases hrow : table.find? x with
  | none => simp
  | some row =>
    rw [Option.map_some, find?_platform hrow]
    split <;> rfl

theorem find?_insert (row : AppVersionData) (hnew : row.platform ∉ table.rows.map (·.platform))
    (x : String) : (table.insert row hnew).find? x =
      if x = row.platform then some row else table.find? x := by
  rw [find?, insert, List.find?_append]
  by_cases hx : x = row.platform
  · have hnone : table.rows.find? (fun r => decide (r.platform = x)) = none := by
      rw [List.find?_eq_none]
      intro r hr heq
      exact hnew (List.mem_map.mpr ⟨r, hr, (of_decide_eq_true heq).trans hx⟩)
    rw [hnone, if_pos hx, Option.none_or, List.find?_cons_of_pos (by simp [hx])]
  · rw [if_neg hx, List.find?_cons_of_neg (by simpa using Ne.symm hx), List.find?_nil, Option.or_none]
    rfl

theorem find?_delete (platforms : List String) (x : String) :
    (table.delete platforms).find? x = if x ∈ platforms then none else table.find? x := by
  rw [find?, delete, List.find?_filter]
  by_cases hx : x ∈ platforms
  · rw [if_pos hx, List.find?_eq_none]
    intro row _
    simp only [decide_eq_true_eq, not_and]
    rintro hnot rfl
    exact hnot hx
  · rw [if_neg hx, find?]
    congr 1
    funext row
    by_cases heq : row.platform = x
    · simp [heq, hx]
    · simp [heq]

theorem select_eq_some_iff {x : String} {row : AppVersionData} :
    table.select x = .ok (some row) ↔ noNulIn x = true ∧ table.find? x = some row := by
  unfold select
  split_ifs with h <;> simp [h]

end VersionTable

/-! ## Coherence -/

section coherence
variable {lower : String → String} {collates : String → String → Prop} [DecidableRel collates]
  {s : VersionState}

theorem getVersionInfo_fst (q : String) : (getVersionInfo lower q s).1 =
    match s.cache.platform q with
    | some data => .ok (some data)
    | none => s.table.select (lower q) := by
  unfold getVersionInfo
  cases s.cache.platform q with
  | some data => rfl
  | none =>
    dsimp only
    split
    · next heq => rw [heq]
    · rfl

def RowsCached (lower : String → String) (s : VersionState) : Prop :=
  ∀ q cached, s.cache.platform q = some cached →
    noNulIn (lower q) = true ∧ s.table.find? (lower q) = some cached

def AllCached (collates : String → String → Prop) [DecidableRel collates] (s : VersionState) : Prop :=
  ∀ versions, s.cache.all = some versions → versions = s.table.selectAll collates

theorem coherent_iff : Coherent lower collates s ↔ RowsCached lower s ∧ AllCached collates s := by
  have hrows : (∀ q, (getVersionInfo lower q s).1 = s.table.select (lower q)) ↔ RowsCached lower s := by
    apply forall_congr'
    intro q
    rw [getVersionInfo_fst]
    cases s.cache.platform q with
    | none => simp
    | some cached =>
      simp only [Option.some.injEq, forall_eq']
      rw [eq_comm, VersionTable.select_eq_some_iff]
  have hall : (getAllVersions collates s).1 = s.table.selectAll collates ↔ AllCached collates s := by
    unfold getAllVersions AllCached
    cases s.cache.all with
    | none => simp
    | some versions => simp
  rw [Coherent, hrows, hall]

theorem rowsCached_getVersionInfo (h : RowsCached lower s) (platform : String) :
    RowsCached lower (getVersionInfo lower platform s).2 := by
  unfold getVersionInfo
  split
  · exact h
  · split
    · next data hselect =>
      intro q cached hq
      dsimp only [VersionCache.set] at hq
      by_cases heq : q = platform
      · rw [heq, Function.update_self, Option.some.injEq] at hq
        rw [heq, ← hq]
        exact VersionTable.select_eq_some_iff.mp hselect
      · rw [Function.update_of_ne heq] at hq
        exact h q cached hq
    · exact h

theorem delete_eq_some_iff {cache : VersionCache} {platforms : List String} {q : String}
    {cached : AppVersionData} : (cache.delete platforms).platform q = some cached ↔
      q ∉ platforms ∧ cache.platform q = some cached := by
  unfold VersionCache.delete
  dsimp only
  split_ifs with h <;> simp [h]

/-- After an update, what is cached for the platform under another spelling must be the new row. -/
theorem rowsCached_update_iff (h : RowsCached lower s) (platform : String) (data : AppVersionUpdate)
    (now : ℕ) : RowsCached lower ⟨s.table.update (lower platform) data now,
        (s.cache.delete [platform]).deleteAll⟩ ↔
      ∀ q cached, s.cache.platform q = some cached → lower q = lower platform →
        q = platform ∨ data.apply now cached = cached := by
  constructor
  · intro hafter q cached hq hlower
    by_cases heq : q = platform
    · exact .inl heq
    · have hkept : (s.cache.delete [platform]).platform q = some cached :=
        delete_eq_some_iff.mpr ⟨by simpa using heq, hq⟩
      have hrow := (hafter q cached hkept).2
      rw [VersionTable.find?_update, if_pos hlower, (h q cached hq).2, Option.map_some,
        Option.some.injEq] at hrow
      exact .inr hrow
  · intro hharmless q cached hq
    obtain ⟨hne, hq⟩ := delete_eq_some_iff.mp hq
    obtain ⟨hnul, hrow⟩ := h q cached hq
    refine ⟨hnul, ?_⟩
    rw [VersionTable.find?_update, hrow]
    split_ifs with hlower
    · have hsame := (hharmless q cached hq hlower).resolve_left (by simpa using hne)
      rw [Option.map_some, hsame]
    · rfl

theorem rowsCached_insert (h : RowsCached lower s) {row : AppVersionData}
    (hnew : row.platform ∉ s.table.rows.map (·.platform)) (platforms : List String) :
    RowsCached lower ⟨s.table.insert row hnew, (s.cache.delete platforms).deleteAll⟩ := by
  intro q cached hq
  obtain ⟨-, hq⟩ := delete_eq_some_iff.mp hq
  obtain ⟨hnul, hrow⟩ := h q cached hq
  have hne : lower q ≠ row.platform := by
    intro heq
    apply hnew
    rw [← heq, ← VersionTable.find?_platform hrow]
    exact List.mem_map.mpr ⟨cached, List.mem_of_find?_eq_some hrow, rfl⟩
  refine ⟨hnul, ?_⟩
  rw [VersionTable.find?_insert, if_neg hne]
  exact hrow

/-- After a deletion, nothing may be cached for a deleted platform. -/
theorem rowsCached_delete_iff (h : RowsCached lower s) (platforms : List String) :
    RowsCached lower ⟨s.table.delete platforms, (s.cache.delete platforms).deleteAll⟩ ↔
      ∀ q cached, s.cache.platform q = some cached → lower q ∈ platforms → q ∈ platforms := by
  constructor
  · intro hafter q cached hq hlower
    by_contra hnot
    have hrow := (hafter q cached (delete_eq_some_iff.mpr ⟨hnot, hq⟩)).2
    rw [VersionTable.find?_delete, if_pos hlower] at hrow
    cases hrow
  · intro hharmless q cached hq
    obtain ⟨hnot, hq⟩ := delete_eq_some_iff.mp hq
    obtain ⟨hnul, hrow⟩ := h q cached hq
    refine ⟨hnul, ?_⟩
    rw [VersionTable.find?_delete, if_neg (fun hlower => hnot (hharmless q cached hq hlower))]
    exact hrow

/-- A deletion that finds no row deletes no platform that is cached. -/
theorem not_mem_of_count_zero (h : RowsCached lower s) {platforms : List String}
    (hcount : s.table.rows.countP (·.platform ∈ platforms) = 0) {q : String} {cached : AppVersionData}
    (hq : s.cache.platform q = some cached) : lower q ∉ platforms := by
  intro hlower
  have hrow := (h q cached hq).2
  rw [List.countP_eq_zero] at hcount
  apply hcount cached (List.mem_of_find?_eq_some hrow)
  rw [VersionTable.find?_platform hrow]
  exact decide_eq_true hlower

theorem allCached_deleteAll (table : VersionTable) (cache : VersionCache) :
    AllCached collates ⟨table, cache.deleteAll⟩ := by
  intro versions hversions
  cases hversions

theorem allCached_getVersionInfo (h : AllCached collates s) (platform : String) :
    AllCached collates (getVersionInfo lower platform s).2 := by
  unfold getVersionInfo
  split
  · exact h
  · split
    · exact h
    · exact h

theorem coherent_updateVersionInfo_iff (h : Coherent lower collates s) (platform : String)
    (data : AppVersionUpdate) (now : ℕ) :
    Coherent lower collates (updateVersionInfo lower platform data now s).2 ↔
      Harmless lower s (.updateVersionInfo platform data now) := by
  have hrows := (coherent_iff.mp h).1
  unfold updateVersionInfo Harmless
  split_ifs with hfits
  · rw [Bool.and_eq_true] at hfits
    rw [coherent_iff, rowsCached_update_iff hrows]
    constructor
    · rintro ⟨hharmless, -⟩ _ _
      exact hharmless
    · intro hharmless
      exact ⟨hharmless hfits.1 hfits.2, allCached_deleteAll _ _⟩
  · constructor
    · intro _ hnul hdata
      exact absurd (Bool.and_eq_true_iff.mpr ⟨hnul, hdata⟩) hfits
    · exact fun _ => h

theorem coherent_createVersion (h : Coherent lower collates s) (data : AppVersionCreate) (now : ℕ) :
    Coherent lower collates (createVersion lower data now s).2 := by
  have hrows := (coherent_iff.mp h).1
  unfold createVersion
  dsimp only
  split_ifs with hnew hfits
  · exact h
  · exact coherent_iff.mpr ⟨rowsCached_insert hrows hnew _, allCached_deleteAll _ _⟩
  · exact h

theorem coherent_deleteVersions_iff (h : Coherent lower collates s) (platforms : List String) :
    Coherent lower collates (deleteVersions lower platforms s).2 ↔
      Harmless lower s (.deleteVersions platforms) := by
  have hrows := (coherent_iff.mp h).1
  unfold deleteVersions Harmless
  dsimp only
  split_ifs with hempty hnul hcount
  · subst hempty
    have hafter : Coherent lower collates { s with cache := s.cache.deleteAll } :=
      coherent_iff.mpr ⟨hrows, allCached_deleteAll _ _⟩
    constructor
    · intro _ _ q cached _ hlower
      exact absurd hlower List.not_mem_nil
    · exact fun _ => hafter
  · rw [coherent_iff, rowsCached_delete_iff hrows]
    constructor
    · rintro ⟨hharmless, -⟩ _
      exact hharmless
    · intro hharmless
      exact ⟨hharmless hnul, allCached_deleteAll _ _⟩
  · have hnone : ∀ q cached, s.cache.platform q = some cached → lower q ∉ platforms.map lower :=
      fun _ _ hq => not_mem_of_count_zero hrows (Nat.eq_zero_of_not_pos hcount) hq
    constructor
    · intro _ _ q cached hq hlower
      exact absurd hlower (hnone q cached hq)
    · intro _
      refine coherent_iff.mpr ⟨fun q cached hq => ?_, allCached_deleteAll _ _⟩
      refine ⟨(hrows q cached hq).1, ?_⟩
      rw [VersionTable.find?_delete, if_neg (hnone q cached hq)]
      exact (hrows q cached hq).2
  · constructor
    · intro _ hall
      exact absurd hall hnul
    · exact fun _ => h

theorem coherent_getAllVersions (h : Coherent lower collates s) :
    Coherent lower collates (getAllVersions collates s).2 := by
  obtain ⟨hrows, hall⟩ := coherent_iff.mp h
  unfold getAllVersions
  split
  · exact h
  · refine coherent_iff.mpr ⟨hrows, fun versions hversions => ?_⟩
    cases hversions
    rfl

/-- A call keeps coherence exactly if it is harmless. -/
theorem coherent_step_iff (h : Coherent lower collates s) (call : VersionCall) :
    Coherent lower collates (step lower collates s call) ↔ Harmless lower s call := by
  cases call with
  | getVersionInfo platform =>
    obtain ⟨hrows, hall⟩ := coherent_iff.mp h
    have hafter := coherent_iff.mpr
      ⟨rowsCached_getVersionInfo hrows platform, allCached_getVersionInfo hall platform⟩
    exact ⟨fun _ => trivial, fun _ => hafter⟩
  | getAllVersions => exact ⟨fun _ => trivial, fun _ => coherent_getAllVersions h⟩
  | updateVersionInfo platform data now => exact coherent_updateVersionInfo_iff h platform data now
  | createVersion data now => exact ⟨fun _ => trivial, fun _ => coherent_createVersion h data now⟩
  | deleteVersions platforms => exact coherent_deleteVersions_iff h platforms

end coherence

/-- Over every sequence of calls from an empty cache, the reads answer what the table does at every
moment exactly if every call is harmless. -/
theorem coherent_always_iff (lower : String → String) (collates : String → String → Prop)
    [DecidableRel collates] (table : VersionTable) (calls : List VersionCall) :
    EveryState (step lower collates) (Coherent lower collates) ⟨table, .empty⟩ calls ↔
      EveryStep (step lower collates) (Harmless lower) ⟨table, .empty⟩ calls := by
  have hempty : Coherent lower collates ⟨table, .empty⟩ := by
    rw [coherent_iff]
    constructor
    · intro q cached hq
      cases hq
    · intro versions hversions
      cases hversions
  exact everyState_iff hempty (fun s call hs => coherent_step_iff hs call)

def asciiLower (s : String) : String := String.ofList (s.toList.map Char.toLower)

def iosTable : VersionTable :=
  ⟨[⟨"ios", 1, 1, false, some "A new version is available. Please update.", none, 0, 0⟩],
    List.nodup_singleton _⟩

/-- After a read of `IOS`, an update of `ios` leaves the old answer for `IOS`. -/
theorem update_leaves_spelling : ¬ ∀ (lower : String → String) (collates : String → String → Prop)
    [DecidableRel collates] (table : VersionTable) (calls : List VersionCall),
    EveryState (step lower collates) (Coherent lower collates) ⟨table, .empty⟩ calls := by
  intro h
  have hstates := (h asciiLower (· ≤ ·) iosTable [.getVersionInfo "IOS",
    .updateVersionInfo "ios" ⟨some 2, some 2, some true, none, none⟩ 9]).2.2.1 "IOS"
  exact absurd hstates (by decide)

end FastapiTemplate.Versions
