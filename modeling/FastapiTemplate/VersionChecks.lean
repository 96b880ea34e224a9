import FastapiTemplate.RunHistories
import FastapiTemplate.VersionCache

/-!
# The version check

A client asks under a spelling of its platform whether its build has to be updated. The answer is
made of the cached row for that spelling, so it tells what the row was when the spelling was first
read after the last write that evicted it.
-/

namespace FastapiTemplate.Versions

structure ForceUpdateResponse where
  updateRequired : Bool
  force : Bool
  message : String
  latestBuild : ℤ
  minBuild : ℤ
  updateUrl : Option String
  deriving DecidableEq, Repr

namespace AppVersionData

def messageOr (row : AppVersionData) (default : String) : String :=
  match row.updateMessage with
  | some message => if message = "" then default else message
  | none => default

def response (row : AppVersionData) (force : Bool) (default : String) : ForceUpdateResponse where
  updateRequired := true
  force := force
  message := row.messageOr default
  latestBuild := row.latestBuild
  minBuild := row.minBuild
  updateUrl := row.updateUrl

/-- What `check_force_update` makes of the row that it has found. -/
def updateFor (row : AppVersionData) (build : ℤ) : Option ForceUpdateResponse :=
  if build < row.minBuild then some (row.response true "A critical update is required.")
  else if build < row.latestBuild then
    some (row.response row.forceUpdate "A new version is available.")
  else none

end AppVersionData

section service
variable (lower : String → String)

def checkForceUpdate (platform : String) (build : ℤ) (s : VersionState) :
    Except VersionError (Option ForceUpdateResponse) × VersionState :=
  if platform = "" then (.ok none, s)
  else
    let found := getVersionInfo lower platform s
    (found.1.map (fun row => row.bind (·.updateFor build)), found.2)

def checkVersion (platform : String) (build : ℤ) (s : VersionState) :
    Except VersionError (ℕ × Option ForceUpdateResponse) × VersionState :=
  let checked := checkForceUpdate lower platform build s
  (checked.1.map (fun update => (if update.any (·.force) then 426 else 200, update)), checked.2)

variable {lower} {platform : String} {build : ℤ} {s : VersionState} {status : ℕ}
  {update : Option ForceUpdateResponse}

theorem checkVersion_eq_ok_iff :
    (checkVersion lower platform build s).1 = .ok (status, update) ↔
      status = (if update.any (·.force) then 426 else 200) ∧
        (platform = "" ∧ update = none ∨ platform ≠ "" ∧
          ∃ found, (getVersionInfo lower platform s).1 = .ok found ∧
            found.bind (·.updateFor build) = update) := by
  unfold checkVersion checkForceUpdate
  by_cases hempty : platform = ""
  · simp only [hempty, if_pos, Except.map, Except.ok.injEq, Prod.mk.injEq, true_and, ne_eq,
      not_true_eq_false, false_and, or_false]
    constructor
    · rintro ⟨hstatus, rfl⟩
      exact ⟨hstatus.symm, rfl⟩
    · rintro ⟨rfl, rfl⟩
      exact ⟨rfl, rfl⟩
  · simp only [hempty, if_false, false_and, false_or, ne_eq, not_false_eq_true, true_and]
    cases (getVersionInfo lower platform s).1 with
    | error e => simp [Except.map]
    | ok found =>
      simp only [Except.map, Except.ok.injEq, Prod.mk.injEq, exists_eq_left']
      constructor
      · rintro ⟨rfl, rfl⟩
        exact ⟨rfl, rfl⟩
      · rintro ⟨rfl, rfl⟩
        exact ⟨rfl, rfl⟩

end service

/-! ## What is cached -/

section cache
variable (lower : String → String)

def Reads (platform : String) (row : AppVersionData) (s : VersionState) (call : VersionCall) :
    Prop :=
  call = .getVersionInfo platform ∧ s.cache.platform platform = none ∧
    s.table.select (lower platform) = .ok (some row)

def Evicts (platform : String) (s : VersionState) : VersionCall → Prop
  | .updateVersionInfo spelled data _ =>
    spelled = platform ∧ PyValue.noNulIn (lower spelled) = true ∧ data.fits = true
  | .createVersion data _ =>
    lower data.platform = platform ∧ s.table.find? platform = none ∧ data.fits platform = true
  | .deleteVersions platforms =>
    platform ∈ platforms.map lower ∧ (platforms.map lower).all PyValue.noNulIn = true ∧
      ∃ deleted ∈ platforms.map lower, s.table.find? deleted ≠ none
  | _ => False

variable {lower} {collates : String → String → Prop} [DecidableRel collates] {platform : String}
  {row : AppVersionData} {s : VersionState}

theorem cached_getVersionInfo_iff (spelled : String) :
    (getVersionInfo lower spelled s).2.cache.platform platform = some row ↔
      Reads lower platform row s (.getVersionInfo spelled) ∨
        s.cache.platform platform = some row := by
  unfold getVersionInfo Reads
  cases hcached : s.cache.platform spelled with
  | some data =>
    constructor
    · exact .inr
    · rintro (⟨heq, hnone, -⟩ | h)
      · cases heq
        rw [hcached] at hnone
        cases hnone
      · exact h
  | none =>
    dsimp only
    split
    · next data hselect =>
      change (Function.update s.cache.platform spelled (some data) platform = some row) ↔ _
      by_cases heq : platform = spelled
      · subst heq
        rw [Function.update_self, hcached, hselect]
        simp
      · rw [Function.update_of_ne heq]
        constructor
        · exact .inr
        · rintro (⟨hcall, -, -⟩ | h)
          · cases hcall
            exact absurd rfl heq
          · exact h
    · next hselect =>
      constructor
      · exact .inr
      · rintro (⟨hcall, -, hrow⟩ | h)
        · cases hcall
          exact absurd hrow (hselect row)
        · exact h

theorem cached_updateVersionInfo_iff (spelled : String) (data : AppVersionUpdate) (now : ℕ) :
    (updateVersionInfo lower spelled data now s).2.cache.platform platform = some row ↔
      s.cache.platform platform = some row ∧
        ¬ Evicts lower platform s (.updateVersionInfo spelled data now) := by
  unfold updateVersionInfo Evicts
  split_ifs with hfits
  · rw [Bool.and_eq_true] at hfits
    change ((s.cache.delete [spelled]).platform platform = some row) ↔ _
    rw [delete_eq_some_iff, List.mem_singleton, and_comm]
    refine and_congr_right (fun _ => not_congr ?_)
    exact ⟨fun h => ⟨h.symm, hfits⟩, fun h => h.1.symm⟩
  · rw [Bool.and_eq_true] at hfits
    exact ⟨fun h => ⟨h, fun hevicts => hfits hevicts.2⟩, And.left⟩

theorem find?_eq_none_iff {table : VersionTable} {x : String} :
    table.find? x = none ↔ x ∉ table.rows.map (·.platform) := by
  rw [VersionTable.find?, List.find?_eq_none, List.mem_map]
  constructor
  · rintro h ⟨r, hr, hplatform⟩
    exact h r hr (decide_eq_true hplatform)
  · intro h r hr heq
    exact h ⟨r, hr, of_decide_eq_true heq⟩

theorem cached_createVersion_iff (data : AppVersionCreate) (now : ℕ) :
    (createVersion lower data now s).2.cache.platform platform = some row ↔
      s.cache.platform platform = some row ∧
        ¬ Evicts lower platform s (.createVersion data now) := by
  unfold createVersion Evicts
  dsimp only [AppVersionCreate.row]
  split_ifs with hthere hfits
  · refine ⟨fun h => ⟨h, ?_⟩, And.left⟩
    rintro ⟨rfl, hnone, -⟩
    exact find?_eq_none_iff.mp hnone hthere
  · change ((s.cache.delete [lower data.platform]).platform platform = some row) ↔ _
    rw [delete_eq_some_iff, List.mem_singleton, and_comm]
    refine and_congr_right (fun _ => not_congr ?_)
    constructor
    · rintro rfl
      exact ⟨rfl, find?_eq_none_iff.mpr hthere, hfits⟩
    · exact fun h => h.1.symm
  · refine ⟨fun h => ⟨h, ?_⟩, And.left⟩
    rintro ⟨rfl, -, hfits'⟩
    exact hfits hfits'

theorem countP_pos_iff {table : VersionTable} {platforms : List String} :
    0 < table.rows.countP (·.platform ∈ platforms) ↔
      ∃ deleted ∈ platforms, table.find? deleted ≠ none := by
  rw [List.countP_pos_iff]
  constructor
  · rintro ⟨r, hr, hmem⟩
    refine ⟨r.platform, of_decide_eq_true hmem, fun hnone => ?_⟩
    exact find?_eq_none_iff.mp hnone (List.mem_map.mpr ⟨r, hr, rfl⟩)
  · rintro ⟨deleted, hdeleted, hfound⟩
    obtain ⟨r, hr⟩ := Option.ne_none_iff_exists'.mp hfound
    refine ⟨r, List.mem_of_find?_eq_some hr, decide_eq_true ?_⟩
    rw [VersionTable.find?_platform hr]
    exact hdeleted

theorem cached_deleteVersions_iff (platforms : List String) :
    (deleteVersions lower platforms s).2.cache.platform platform = some row ↔
      s.cache.platform platform = some row ∧
        ¬ Evicts lower platform s (.deleteVersions platforms) := by
  unfold deleteVersions Evicts
  dsimp only
  split_ifs with hempty hnul hcount
  · subst hempty
    exact ⟨fun h => ⟨h, fun hevicts => absurd hevicts.1 List.not_mem_nil⟩, And.left⟩
  · change ((s.cache.delete (platforms.map lower)).platform platform = some row) ↔ _
    rw [delete_eq_some_iff, and_comm]
    refine and_congr_right (fun _ => not_congr ?_)
    exact ⟨fun h => ⟨h, hnul, countP_pos_iff.mp hcount⟩, And.left⟩
  · refine ⟨fun h => ⟨h, ?_⟩, And.left⟩
    rintro ⟨-, -, hfound⟩
    exact hcount (countP_pos_iff.mpr hfound)
  · exact ⟨fun h => ⟨h, fun hevicts => hnul hevicts.2.1⟩, And.left⟩

/-- What a call does to the entry of a spelling. -/
theorem cached_step_iff (call : VersionCall) :
    (step lower collates s call).cache.platform platform = some row ↔
      Reads lower platform row s call ∨
        (s.cache.platform platform = some row ∧ ¬ Evicts lower platform s call) := by
  cases call with
  | getVersionInfo spelled =>
    exact (cached_getVersionInfo_iff spelled).trans
      (or_congr_right ⟨fun h => ⟨h, id⟩, And.left⟩)
  | getAllVersions =>
    rw [or_iff_right (fun h => nomatch h.1)]
    change (getAllVersions collates s).2.cache.platform platform = some row ↔ _
    unfold getAllVersions
    split <;> exact ⟨fun h => ⟨h, id⟩, And.left⟩
  | updateVersionInfo spelled data now =>
    rw [or_iff_right (fun h => nomatch h.1)]
    exact cached_updateVersionInfo_iff spelled data now
  | createVersion data now =>
    rw [or_iff_right (fun h => nomatch h.1)]
    exact cached_createVersion_iff data now
  | deleteVersions platforms =>
    rw [or_iff_right (fun h => nomatch h.1)]
    exact cached_deleteVersions_iff platforms

end cache

/-! ## What a check tells -/

section checks
variable (lower : String → String) (collates : String → String → Prop) [DecidableRel collates]
  (table : VersionTable) (calls : List VersionCall) (platform : String) (row : AppVersionData)

/-- The spelling was read when the table had the row, and nothing has evicted it since. -/
def Remembered : Prop :=
  Since (step lower collates) (Reads lower platform row) (Evicts lower platform)
    ⟨table, .empty⟩ calls

/-- The row that a check under the spelling goes by: one that is remembered, or else that of the
table. -/
def Consulted : Prop :=
  Remembered lower collates table calls platform row ∨
    (∀ row', ¬ Remembered lower collates table calls platform row') ∧
      (run (step lower collates) ⟨table, .empty⟩ calls).table.select (lower platform) =
        .ok (some row)

def NothingFound : Prop :=
  (∀ row', ¬ Remembered lower collates table calls platform row') ∧
    (run (step lower collates) ⟨table, .empty⟩ calls).table.select (lower platform) = .ok none

variable {lower collates table calls platform row}

theorem cached_run_iff :
    (run (step lower collates) ⟨table, .empty⟩ calls).cache.platform platform = some row ↔
      Remembered lower collates table calls platform row := by
  refine holds_run_iff_since (P := fun s : VersionState => s.cache.platform platform = some row)
    (fun s call => cached_step_iff call) ?_ calls
  nofun

theorem getVersionInfo_run_iff :
    (getVersionInfo lower platform (run (step lower collates) ⟨table, .empty⟩ calls)).1 =
      .ok (some row) ↔ Consulted lower collates table calls platform row := by
  rw [getVersionInfo_fst, Consulted, ← cached_run_iff]
  cases hcached : (run (step lower collates) ⟨table, .empty⟩ calls).cache.platform platform with
  | some cached =>
    have hcached' : Remembered lower collates table calls platform cached :=
      cached_run_iff.mp hcached
    constructor
    · intro h
      cases h
      exact .inl rfl
    · rintro (h | ⟨hnone, -⟩)
      · cases h
        rfl
      · exact absurd hcached' (hnone cached)
  | none =>
    have hnone : ∀ row', ¬ Remembered lower collates table calls platform row' := by
      intro row' h
      rw [← cached_run_iff, hcached] at h
      cases h
    constructor
    · exact fun h => .inr ⟨hnone, h⟩
    · rintro (h | ⟨-, h⟩)
      · cases h
      · exact h

theorem getVersionInfo_run_none_iff :
    (getVersionInfo lower platform (run (step lower collates) ⟨table, .empty⟩ calls)).1 =
      .ok none ↔ NothingFound lower collates table calls platform := by
  simp only [getVersionInfo_fst, NothingFound, ← cached_run_iff]
  cases (run (step lower collates) ⟨table, .empty⟩ calls).cache.platform platform with
  | some cached => simp
  | none => simp

end checks

/-- After every run a check tells what the consulted row says of the build, with status 426 exactly
if it forces the update. It tells nothing, with status 200, without a platform, without a row, or
where the row asks for no update of the build. -/
theorem check_tells (lower : String → String) (collates : String → String → Prop)
    [DecidableRel collates] (table : VersionTable) (calls : List VersionCall) (platform : String)
    (build : ℤ) (status : ℕ) :
    let answer := (checkVersion lower platform build
      (run (step lower collates) ⟨table, .empty⟩ calls)).1
    (∀ response, answer = .ok (status, some response) ↔
      platform ≠ "" ∧ status = (if response.force then 426 else 200) ∧
        ∃ row, Consulted lower collates table calls platform row ∧
          row.updateFor build = some response) ∧
    (answer = .ok (status, none) ↔ status = 200 ∧
      (platform = "" ∨ NothingFound lower collates table calls platform ∨
        ∃ row, Consulted lower collates table calls platform row ∧
          row.updateFor build = none)) := by
  simp only [checkVersion_eq_ok_iff, ← getVersionInfo_run_iff, ← getVersionInfo_run_none_iff]
  constructor
  · intro response
    constructor
    · rintro ⟨hstatus, ⟨-, hnone⟩ | ⟨hplatform, row, hrow, hupdate⟩⟩
      · cases hnone
      · obtain ⟨row, rfl, hupdate⟩ := Option.bind_eq_some_iff.mp hupdate
        exact ⟨hplatform, hstatus, row, hrow, hupdate⟩
    · rintro ⟨hplatform, hstatus, row, hrow, hupdate⟩
      exact ⟨hstatus, .inr ⟨hplatform, some row, hrow, hupdate⟩⟩
  · constructor
    · rintro ⟨hstatus, ⟨hempty, -⟩ | ⟨-, row, hrow, hupdate⟩⟩
      · exact ⟨hstatus, .inl hempty⟩
      · cases row with
        | none => exact ⟨hstatus, .inr (.inl hrow)⟩
        | some row => exact ⟨hstatus, .inr (.inr ⟨row, hrow, hupdate⟩)⟩
    · rintro ⟨hstatus, h⟩
      refine ⟨hstatus, ?_⟩
      by_cases hempty : platform = ""
      · exact .inl ⟨hempty, trivial⟩
      · rcases h.resolve_left hempty with hrow | ⟨row, hrow, hupdate⟩
        · exact .inr ⟨hempty, none, hrow, rfl⟩
        · exact .inr ⟨hempty, some row, hrow, hupdate⟩

/-- The update of `ios` does not reach the clients that ask under `IOS`. -/
example : (checkVersion asciiLower "IOS" 1 (run (step asciiLower (· ≤ ·)) ⟨iosTable, .empty⟩
    [.getVersionInfo "IOS",
      .updateVersionInfo "ios" ⟨some 2, some 2, some true, none, none⟩ 9])).1 =
    .ok (200, none) := by decide

end FastapiTemplate.Versions
