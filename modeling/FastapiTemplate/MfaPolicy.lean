import FastapiTemplate.ExpiringStore
import FastapiTemplate.ProgramProtocol
import FastapiTemplate.ReadThroughPool

/-!
# The MFA policy

`check_mfa_enforcement` reads the one row of `system_configurations` through a cache, and
`update_config` changes the row and then deletes the cached one. Checks and updates are
interleaved at their calls to Redis and to the database. Ids and times are numbers here, and the
cache holds the row itself in place of its JSON text.
-/

namespace FastapiTemplate.SystemConfig

structure SystemConfigData where
  enforceMfa : Bool
  updatedAt : ℕ
  updatedBy : Option ℕ
  deriving DecidableEq, Repr

inductive ConfigCall
  | cacheGet (key : String)
  | cacheSet (key : String) (config : SystemConfigData) (expire : ℕ)
  | cacheDelete (key : String)
  | selectConfig
  | seedConfig
  | updateConfig (enforceMfa : Option Bool) (userId : Option ℕ)
  | getTwoFactor (userId : ℕ)
  deriving DecidableEq

inductive ConfigError
  | httpException (status : ℕ) (detail : String)
  | database
  deriving DecidableEq, Repr

@[reducible] def ConfigCall.Answer : ConfigCall → Type
  | .cacheGet _ => Option SystemConfigData
  | .cacheSet .. => Unit
  | .cacheDelete _ => Unit
  | .selectConfig => Option SystemConfigData
  | .seedConfig => SystemConfigData
  | .updateConfig .. => Except ConfigError (Option SystemConfigData)
  | .getTwoFactor _ => Option Bool

abbrev ConfigProgram (α : Type) := Program ConfigCall ConfigCall.Answer ConfigError α

def cacheKey : String := "system_config:singleton"

/-! ## The programs -/

def ask (c : ConfigCall) : ConfigProgram c.Answer := Program.perform c

def fetchConfig : ConfigProgram SystemConfigData := do
  match ← ask .selectConfig with
  | some config => pure config
  | none => ask .seedConfig

def getConfig : ConfigProgram SystemConfigData := do
  match ← ask (.cacheGet cacheKey) with
  | some config => pure config
  | none =>
    let config ← fetchConfig
    ask (.cacheSet cacheKey config 86400)
    pure config

/-- The decorated `update_config`, which an error of the statement leaves. -/
def updateConfig (enforceMfa : Option Bool) (userId : Option ℕ) :
    ConfigProgram (Option SystemConfigData) := do
  let row ← Program.ofExcept (← ask (.updateConfig enforceMfa userId))
  ask (.cacheDelete cacheKey)
  pure row

def mfaEnforced : ConfigError := .httpException 428 "auth.mfa_enforced"

def checkMfaEnforcement (userId : ℕ) : ConfigProgram Unit := do
  let config ← getConfig
  if config.enforceMfa then
    let enabled ← ask (.getTwoFactor userId)
    if enabled = some true then pure () else .raise mfaEnforced

/-! ## Redis and the database -/

/-- The row with `id` 1, the users, and whether they have enabled two-factor authentication. -/
structure ConfigStore where
  now : ℕ
  config : Option SystemConfigData
  users : ℕ → Bool
  twoFactor : ℕ → Option Bool
  redis : ExpiringStore String SystemConfigData

/-- The stored `enforce_mfa`, whose default is false. -/
def ConfigStore.enforces (s : ConfigStore) : Bool := (s.config.map (·.enforceMfa)).getD false

def ConfigStore.handler : (c : ConfigCall) → ConfigStore → c.Answer × ConfigStore
  | .cacheGet key, s => (s.redis.get s.now key, s)
  | .cacheSet key config expire, s =>
    ((), { s with redis := s.redis.set key config (some (s.now + expire)) })
  | .cacheDelete key, s => ((), { s with redis := s.redis.delete key })
  | .selectConfig, s => (s.config, s)
  | .seedConfig, s =>
    let row := s.config.getD ⟨false, s.now, none⟩
    (row, { s with config := some row })
  | .updateConfig enforceMfa userId, s =>
    if userId.all s.users then
      let row := s.config.map (fun row =>
        ⟨enforceMfa.getD row.enforceMfa, s.now, userId.or row.updatedBy⟩)
      (.ok row, { s with config := row })
    else (.error .database, s)
  | .getTwoFactor userId, s => (s.twoFactor userId, s)

/-- What else happens: time passes, and users come, go and change their second factor. -/
inductive ConfigEvent
  | pass (seconds : ℕ)
  | insertUser (userId : ℕ)
  | deleteUser (userId : ℕ)
  | setTwoFactor (userId : ℕ) (enabled : Option Bool)

def ConfigStore.environment : ConfigEvent → ConfigStore → ConfigStore
  | .pass seconds, s => { s with now := s.now + seconds }
  | .insertUser userId, s => { s with users := Function.update s.users userId true }
  | .deleteUser userId, s =>
    { s with
      users := Function.update s.users userId false
      twoFactor := Function.update s.twoFactor userId none
      config := s.config.map (fun row =>
        { row with updatedBy := if row.updatedBy = some userId then none else row.updatedBy }) }
  | .setTwoFactor userId enabled, s =>
    { s with twoFactor := Function.update s.twoFactor userId enabled }

inductive ConfigTask
  | check (userId : ℕ)
  | update (enforceMfa : Option Bool) (userId : Option ℕ)

abbrev ConfigPool :=
  Pool ConfigCall ConfigCall.Answer ConfigError (Except ConfigError Unit) ConfigTask ConfigStore

abbrev ConfigThread := Thread ConfigCall ConfigCall.Answer ConfigError (Except ConfigError Unit) ConfigTask

abbrev ConfigMove := PoolMove ConfigTask ConfigEvent

def ConfigTask.program : ConfigTask → ConfigProgram (Except ConfigError Unit)
  | .check userId => (checkMfaEnforcement userId).attempt
  | .update enforceMfa userId => (updateConfig enforceMfa userId >>= fun _ => pure ()).attempt

def system : PoolSystem ConfigCall ConfigCall.Answer ConfigError (Except ConfigError Unit) ConfigTask
    ConfigEvent ConfigStore where
  handler := ConfigStore.handler
  environment := ConfigStore.environment
  program := ConfigTask.program

namespace ConfigPool

def start (now : ℕ) (config : Option SystemConfigData) (users : ℕ → Bool)
    (twoFactor : ℕ → Option Bool) : ConfigPool where
  state := ⟨now, config, users, twoFactor, .empty⟩
  threads := []

def Finished (p : ConfigPool) : Prop := ∀ th ∈ p.threads, th.nextCall = none

def Later (m : ConfigMove) : Prop :=
  match m with
  | .spawn (.update ..) => False
  | _ => True

def foundTwoFactor (trace : CallTrace ConfigCall ConfigCall.Answer) : Bool :=
  trace.any (fun x => match x with
    | ⟨.getTwoFactor _, answer⟩ => answer = some true
    | _ => false)

/-- What the policy says about a check, from what it has found. -/
def decision (enforces : Bool) (trace : CallTrace ConfigCall ConfigCall.Answer) :
    Except ConfigError Unit :=
  if enforces && !foundTwoFactor trace then .error mfaEnforced else .ok ()

/-- Once everything has returned, every later check decides by the stored value. -/
def TakesEffect (p : ConfigPool) : Prop :=
  p.Finished → ∀ later : List ConfigMove, (∀ m ∈ later, Later m) → ∀ (i : ℕ) (th : ConfigThread),
    p.threads.length ≤ i → (run system.step p later).threads[i]? = some th → th.nextCall = none →
    th.result = some (decision p.state.enforces th.trace)

/-! ## The cache as a read-through cache -/

def configCache : ReadThrough ConfigCall Unit SystemConfigData ConfigStore where
  cached s _ := (s.redis cacheKey).map (·.value)
  holds s _ config := config.enforceMfa = s.enforces
  evicts c _ := c = .cacheDelete cacheKey
  fills c _ config := ∃ expire, c = .cacheSet cacheKey config expire

def filling (th : ConfigThread) : Option SystemConfigData :=
  match th.nextCall with
  | some (.cacheSet _ config _) => some config
  | _ => none

def Deleting (p : ConfigPool) : Prop := ∃ th ∈ p.threads, th.nextCall = some (.cacheDelete cacheKey)

/-- Whenever the row that was read is stored in the cache, the database still has its value, or an
update that has written is about to delete it. -/
def FillsInTime (p : ConfigPool) (m : ConfigMove) : Prop :=
  m.OfThread p (fun th => ∀ config ∈ filling th,
    config.enforceMfa = p.state.enforces ∨ p.Deleting)

instance (p : ConfigPool) : Decidable p.Deleting := inferInstanceAs (Decidable (∃ th ∈ _, _))

instance (p : ConfigPool) (m : ConfigMove) : Decidable (p.FillsInTime m) :=
  inferInstanceAs (Decidable (m.OfThread p _))

theorem enforces_environment (e : ConfigEvent) (s : ConfigStore) :
    (ConfigStore.environment e s).enforces = s.enforces := by
  cases e with
  | deleteUser userId =>
    simp only [ConfigStore.environment, ConfigStore.enforces, Option.map_map]
    rfl
  | _ => rfl

def isUpdate : ConfigCall → Bool
  | .updateConfig .. => true
  | _ => false

theorem enforces_handler {c : ConfigCall} (hc : isUpdate c = false) (s : ConfigStore) :
    (ConfigStore.handler c s).2.enforces = s.enforces := by
  cases c with
  | updateConfig enforceMfa userId => cases hc
  | seedConfig =>
    cases hconfig : s.config with
    | none => simp [ConfigStore.enforces, ConfigStore.handler, hconfig]
    | some row => simp [ConfigStore.enforces, ConfigStore.handler, hconfig]
  | _ => rfl

theorem configCache_sound : configCache.Sound system where
  call c s k config hcached := by
    cases c with
    | cacheSet key new expire =>
      change ((s.redis.set key new (some (s.now + expire))) cacheKey).map (·.value) = some config
        at hcached
      by_cases hkey : cacheKey = key
      · subst hkey
        rw [ExpiringStore.set_self] at hcached
        cases hcached
        exact .inl ⟨expire, rfl⟩
      · rw [ExpiringStore.set_of_ne _ hkey] at hcached
        exact .inr ⟨hcached, by simp [configCache]⟩
    | cacheDelete key =>
      change ((s.redis.delete key) cacheKey).map (·.value) = some config at hcached
      by_cases hkey : cacheKey = key
      · subst hkey
        rw [ExpiringStore.delete_self] at hcached
        cases hcached
      · rw [ExpiringStore.delete_of_ne _ hkey] at hcached
        exact .inr ⟨hcached, by simp [configCache, Ne.symm hkey]⟩
    | updateConfig enforceMfa userId =>
      refine .inr ⟨?_, by simp [configCache]⟩
      simp only [system, ConfigStore.handler] at hcached
      split at hcached
      · exact hcached
      · exact hcached
    | _ => exact .inr ⟨hcached, by simp [configCache]⟩
  fill c s k config hfill hholds := by
    obtain ⟨expire, rfl⟩ := hfill
    exact hholds
  fill_not_evicts c k config hfill k' hevicts := by
    obtain ⟨expire, rfl⟩ := hfill
    cases hevicts
  environment e s k config hcached := by
    have hholds : configCache.holds (system.environment e s) k config ↔
        configCache.holds s k config := by
      change config.enforceMfa = _ ↔ config.enforceMfa = _
      rw [show (system.environment e s).enforces = s.enforces from enforces_environment e s]
    exact ⟨by cases e <;> exact hcached, hholds.mpr⟩

/-! ## Runs -/

def UpdateFirst (th : ConfigThread) : Prop :=
  th.rest.Makes (fun c => isUpdate c = false) ∨
    ∃ enforceMfa userId, th.rest = (ConfigTask.update enforceMfa userId).program

theorem update_program_eq (enforceMfa : Option Bool) (userId : Option ℕ) :
    (ConfigTask.update enforceMfa userId).program = .call (.updateConfig enforceMfa userId)
      (fun answer => match answer with
        | .ok _ => .call (.cacheDelete cacheKey) (fun _ => .pure (.ok ()))
        | .error e => .pure (.error e)) := by
  apply congrArg (Program.call (ConfigCall.updateConfig enforceMfa userId))
  funext answer
  cases answer <;> rfl

theorem getConfig_makes : getConfig.Makes (fun c => isUpdate c = false) := by
  refine ⟨rfl, fun cached => ?_⟩
  cases cached with
  | some config => trivial
  | none =>
    refine ⟨rfl, fun row => ?_⟩
    cases row with
    | some config => exact ⟨rfl, fun _ => trivial⟩
    | none => exact ⟨rfl, fun _ => ⟨rfl, fun _ => trivial⟩⟩

theorem check_makes (userId : ℕ) :
    (checkMfaEnforcement userId).Makes (fun c => isUpdate c = false) := by
  apply getConfig_makes.bind
  intro config
  split_ifs
  · refine ⟨rfl, fun enabled => ?_⟩
    change Program.Makes _ (if enabled = some true then pure () else .raise mfaEnforced)
    split_ifs <;> trivial
  · trivial

theorem updateFirst_fresh (task : ConfigTask) : UpdateFirst (system.fresh task) := by
  cases task with
  | check userId => exact .inl (Program.makes_attempt.mpr (check_makes userId))
  | update enforceMfa userId => exact .inr ⟨enforceMfa, userId, rfl⟩

theorem updateFirst_answered {th : ConfigThread} {c : ConfigCall}
    {next : c.Answer → ConfigProgram (Except ConfigError Unit)} (h : UpdateFirst th)
    (hrest : th.rest = .call c next) (answer : c.Answer) :
    UpdateFirst (th.answered c answer next) := by
  left
  rcases h with hmakes | ⟨enforceMfa, userId, hprogram⟩
  · rw [hrest] at hmakes
    exact hmakes.2 answer
  · rw [hrest, update_program_eq] at hprogram
    cases hprogram
    cases answer with
    | ok row => exact ⟨rfl, fun _ => trivial⟩
    | error e => trivial

/-- An update that changes the row deletes the cached one next. -/
theorem evictsNext {p : ConfigPool} (h : ∀ th ∈ p.threads, UpdateFirst th) (m : ConfigMove) :
    configCache.EvictsNext system p m := by
  cases m with
  | spawn task => trivial
  | environment e => trivial
  | advance i =>
    intro th hth k config _ hholds
    have hcase := system.step_cases p (.advance i)
    generalize system.step p (.advance i) = q at hcase
    cases hcase with
    | idle => exact .inl hholds
    | @call _ x c next hx hrest =>
      obtain rfl : x = th := Option.some.inj (hx.symm.trans hth)
      have hquiet (hsame : (ConfigStore.handler c p.state).2.enforces = p.state.enforces) :
          config.enforceMfa = (ConfigStore.handler c p.state).2.enforces := by
        rw [hsame]
        exact hholds
      rcases h x (List.mem_of_getElem? hx) with hmakes | ⟨enforceMfa, userId, hprogram⟩
      · rw [hrest] at hmakes
        exact .inl (hquiet (enforces_handler hmakes.1 p.state))
      · rw [hrest, update_program_eq] at hprogram
        cases hprogram
        by_cases huser : userId.all p.state.users = true
        · right
          have hlt : i < p.threads.length := (List.getElem?_eq_some_iff.mp hx).1
          refine ⟨_, List.mem_set hlt _, .cacheDelete cacheKey, ?_, rfl⟩
          simp only [system, ConfigStore.handler, huser, if_true]
          rfl
        · left
          apply hquiet
          simp only [ConfigStore.handler, huser]
          rfl

structure Consistent (p : ConfigPool) : Prop where
  fresh : configCache.Fresh p
  updateFirst : ∀ th ∈ p.threads, UpdateFirst th

theorem fillsInTime_configCache {p : ConfigPool} {m : ConfigMove} (h : p.FillsInTime m) :
    configCache.FillsInTime p m := by
  cases m with
  | spawn task => trivial
  | environment e => trivial
  | advance i =>
    rintro th hth c hcall k config ⟨expire, rfl⟩
    have hfilling : config ∈ filling th := by
      rw [filling, hcall]
      rfl
    rcases h th hth config hfilling with hholds | ⟨x, hx, hdelete⟩
    · exact .inl hholds
    · exact .inr ⟨x, hx, _, hdelete, rfl⟩

theorem consistent_step {p : ConfigPool} {m : ConfigMove} (h : p.Consistent)
    (hfills : p.FillsInTime m) : Consistent (system.step p m) where
  fresh := ReadThrough.fresh_step configCache_sound h.fresh (fillsInTime_configCache hfills)
    (evictsNext h.updateFirst m)
  updateFirst := system.everyThread_step h.updateFirst (fun task _ => updateFirst_fresh task)
    (fun _ _ _ _ _ hrest hth => updateFirst_answered hth hrest _)

theorem consistent_start (now : ℕ) (config : Option SystemConfigData) (users : ℕ → Bool)
    (twoFactor : ℕ → Option Bool) : (start now config users twoFactor).Consistent where
  fresh := by
    intro k v hcached
    cases hcached
  updateFirst th hth := absurd hth List.not_mem_nil

/-! ## Later checks -/

section later
variable {enforces : Bool}

structure Agrees (enforces : Bool) (s : ConfigStore) : Prop where
  stored : s.enforces = enforces
  cached : ∀ config, configCache.cached s () = some config → config.enforceMfa = enforces

def checkProtocol (enforces : Bool) : Protocol ConfigCall ConfigCall.Answer
    (CallTrace ConfigCall ConfigCall.Answer) where
  permits _ c := isUpdate c = false ∧ ∀ k config, configCache.fills c k config →
    config.enforceMfa = enforces
  after trace c answer := trace ++ [⟨c, answer⟩]
  possible c answer := ∃ s, Agrees enforces s ∧ answer = (ConfigStore.handler c s).1

abbrev Decides (enforces : Bool) (trace : CallTrace ConfigCall ConfigCall.Answer)
    (p : ConfigProgram (Except ConfigError Unit)) : Prop :=
  (checkProtocol enforces).Follows (fun a trace => a = decision enforces trace) (fun _ _ => False)
    trace p

theorem agrees_handler {s : ConfigStore} (h : Agrees enforces s) {c : ConfigCall}
    (hupdate : isUpdate c = false)
    (hfills : ∀ k config, configCache.fills c k config → config.enforceMfa = enforces) :
    Agrees enforces (ConfigStore.handler c s).2 where
  stored := (enforces_handler hupdate s).trans h.stored
  cached config hcached := by
    rcases configCache_sound.call c s () config hcached with hfill | ⟨hbefore, -⟩
    · exact hfills () config hfill
    · exact h.cached config hbefore

theorem agrees_environment {s : ConfigStore} (h : Agrees enforces s) (e : ConfigEvent) :
    Agrees enforces (ConfigStore.environment e s) where
  stored := (enforces_environment e s).trans h.stored
  cached config hcached := h.cached config (configCache_sound.environment e s () config hcached).1

theorem foundTwoFactor_concat (trace : CallTrace ConfigCall ConfigCall.Answer)
    (x : (c : ConfigCall) × c.Answer) :
    foundTwoFactor (trace ++ [x]) = (foundTwoFactor trace || foundTwoFactor [x]) := by
  simp [foundTwoFactor]

/-- What is left of a check when the configuration is known. -/
theorem decides_of_config (userId : ℕ) {config : SystemConfigData} (hconfig : config.enforceMfa = enforces)
    {trace : CallTrace ConfigCall ConfigCall.Answer} (htrace : foundTwoFactor trace = false) :
    Decides enforces trace (Program.attempt (if config.enforceMfa then do
      let enabled ← ask (.getTwoFactor userId)
      if enabled = some true then pure () else .raise mfaEnforced
    else pure ())) := by
  rw [hconfig]
  cases enforces with
  | false => exact rfl
  | true =>
    refine ⟨⟨rfl, fun k config hfill => ?_⟩, fun enabled _ => ?_⟩
    · obtain ⟨expire, hcall⟩ := hfill
      cases hcall
    · have hafter : foundTwoFactor (trace ++ [⟨.getTwoFactor userId, enabled⟩]) =
          decide (enabled = some true) := by
        rw [foundTwoFactor_concat, htrace]
        simp [foundTwoFactor]
      change Decides true (trace ++ [⟨.getTwoFactor userId, enabled⟩])
        (Program.attempt (if enabled = some true then pure () else .raise mfaEnforced))
      by_cases henabled : enabled = some true
      · rw [if_pos henabled]
        change Except.ok () = decision true _
        rw [decision, hafter, decide_eq_true henabled]
        rfl
      · rw [if_neg henabled]
        change Except.error mfaEnforced = decision true _
        rw [decision, hafter, decide_eq_false henabled]
        rfl

theorem permits_read {trace : CallTrace ConfigCall ConfigCall.Answer} {c : ConfigCall}
    (hupdate : isUpdate c = false) (hc : ∀ key config expire, c ≠ .cacheSet key config expire) :
    (checkProtocol enforces).permits trace c := by
  refine ⟨hupdate, fun k config hfill => ?_⟩
  obtain ⟨expire, hcall⟩ := hfill
  exact absurd hcall (hc _ _ _)

/-- A check that has missed stores what it has fetched. -/
theorem decides_of_row (userId : ℕ) {config : SystemConfigData} (hconfig : config.enforceMfa = enforces)
    {trace : CallTrace ConfigCall ConfigCall.Answer} (htrace : foundTwoFactor trace = false) :
    Decides enforces trace (Program.attempt ((do
      ask (.cacheSet cacheKey config 86400)
      pure config : ConfigProgram SystemConfigData) >>= fun config =>
        if config.enforceMfa then do
          let enabled ← ask (.getTwoFactor userId)
          if enabled = some true then pure () else .raise mfaEnforced
        else pure ())) := by
  refine ⟨⟨rfl, fun k config hfill => ?_⟩, fun answer _ => ?_⟩
  · obtain ⟨expire, hcall⟩ := hfill
    cases hcall
    exact hconfig
  · apply decides_of_config userId hconfig
    rw [checkProtocol, foundTwoFactor_concat, htrace]
    rfl

theorem check_decides (userId : ℕ) : Decides enforces [] (checkMfaEnforcement userId).attempt := by
  refine ⟨permits_read rfl (by simp), fun cached hcached => ?_⟩
  obtain ⟨s, hs, rfl⟩ := hcached
  cases hget : (ConfigStore.handler (.cacheGet cacheKey) s).1 with
  | some config =>
    obtain ⟨e, he, -, rfl⟩ := ExpiringStore.get_eq_some_iff.mp hget
    have hcached : configCache.cached s () = some e.value := by
      change (s.redis cacheKey).map (·.value) = _
      rw [he]
      rfl
    exact decides_of_config userId (hs.cached _ hcached) rfl
  | none =>
    refine ⟨permits_read rfl (by simp), fun row hrow => ?_⟩
    obtain ⟨t, ht, rfl⟩ := hrow
    have hstored := ht.stored
    cases hconfig : (ConfigStore.handler .selectConfig t).1 with
    | some config =>
      rw [ConfigStore.enforces, show t.config = some config from hconfig] at hstored
      exact decides_of_row userId hstored rfl
    | none =>
      refine ⟨permits_read rfl (by simp), fun seeded hseeded => ?_⟩
      obtain ⟨u, hu, rfl⟩ := hseeded
      apply decides_of_row userId _ rfl
      have hstored' := hu.stored
      rw [← hstored', ConfigStore.enforces]
      change (u.config.getD _).enforceMfa = _
      rw [ConfigStore.enforces, show t.config = none from hconfig] at hstored
      cases u.config with
      | none => rfl
      | some row => rfl

/-- The pool after the updates, with its first threads done. -/
structure Settled (enforces : Bool) (n : ℕ) (p : ConfigPool) : Prop where
  agrees : Agrees enforces p.state
  threads : ∀ (i : ℕ) th, p.threads[i]? = some th →
    if i < n then th.nextCall = none else Decides enforces th.trace th.rest

theorem settled_step {n : ℕ} {p : ConfigPool} (h : Settled enforces n p) (hn : n ≤ p.threads.length)
    {m : ConfigMove} (hlater : Later m) : Settled enforces n (system.step p m) := by
  have hcase := system.step_cases p m
  generalize hq : system.step p m = q at hcase
  cases hcase with
  | idle i => exact h
  | environment e => exact ⟨agrees_environment h.agrees e, h.threads⟩
  | spawn task =>
    refine ⟨h.agrees, fun i th hth => ?_⟩
    rcases system.step_thread (hq.symm ▸ hth) with hold | ⟨task', htask, rfl, rfl⟩ | ⟨_, _, _, hm, _⟩
    · exact h.threads i th hold
    · cases htask
      rw [if_neg (Nat.not_lt.mpr hn)]
      cases task with
      | check userId => exact check_decides userId
      | update enforceMfa userId => exact hlater.elim
    · cases hm
  | @call i th c next hth hrest =>
    have hcall := Thread.nextCall_of_rest hrest
    have hthread := h.threads i th hth
    split_ifs at hthread with hi
    · rw [hcall] at hthread
      cases hthread
    · obtain ⟨⟨hupdate, hfills⟩, hnext⟩ := Protocol.Follows.answered hthread hrest
        ⟨p.state, h.agrees, rfl⟩
      refine ⟨agrees_handler h.agrees hupdate hfills, fun j x hj => ?_⟩
      rcases set_thread hj with ⟨rfl, rfl⟩ | ⟨hji, hold⟩
      · rw [if_neg hi]
        exact hnext
      · exact h.threads j x hold

theorem threads_length_le (p : ConfigPool) (m : ConfigMove) :
    p.threads.length ≤ (system.step p m).threads.length := by
  have hcase := system.step_cases p m
  generalize system.step p m = q at hcase
  cases hcase with
  | spawn task => simp
  | environment e => exact Nat.le_refl _
  | idle i => exact Nat.le_refl _
  | call hth hrest => simp

theorem settled_run {n : ℕ} {p : ConfigPool} (h : Settled enforces n p) (hn : n ≤ p.threads.length)
    {later : List ConfigMove} (hlater : ∀ m ∈ later, Later m) :
    Settled enforces n (run system.step p later) := by
  induction later generalizing p with
  | nil => exact h
  | cons m later ih =>
    exact ih (settled_step h hn (hlater m List.mem_cons_self))
      (Nat.le_trans hn (threads_length_le p m)) (fun m' hm' => hlater m' (List.mem_cons_of_mem m hm'))

end later

theorem Consistent.takesEffect {p : ConfigPool} (h : p.Consistent) : p.TakesEffect := by
  intro hfinished later hlater i th hi hth hnone
  have hsettled : Settled p.state.enforces p.threads.length p := by
    refine ⟨⟨rfl, fun config hcached => h.fresh.holds hfinished hcached⟩, fun j x hj => ?_⟩
    rw [if_pos (List.getElem?_eq_some_iff.mp hj).1]
    exact hfinished x (List.mem_of_getElem? hj)
  have hthread := (settled_run hsettled (Nat.le_refl _) hlater).threads i th hth
  rw [if_neg (Nat.not_lt.mpr hi)] at hthread
  cases hrest : th.rest with
  | pure a =>
    rw [hrest] at hthread
    rw [Thread.result, hrest]
    exact congrArg some hthread
  | raise e =>
    rw [hrest] at hthread
    exact hthread.elim
  | call c next =>
    rw [Thread.nextCall_of_rest hrest] at hnone
    cases hnone

/-- In every run in which the cache is filled in time, the policy takes effect. -/
theorem policy_takes_effect {now : ℕ} {config : Option SystemConfigData} {users : ℕ → Bool}
    {twoFactor : ℕ → Option Bool} {p : ConfigPool}
    (h : RunsWhere system.step FillsInTime (start now config users twoFactor) p) : p.TakesEffect :=
  (h.invariant (consistent_start now config users twoFactor)
    (fun _ _ hok hx => consistent_step hx hok)).takesEffect

def withoutTwoFactor : ConfigPool :=
  start 0 (some ⟨false, 0, none⟩) (fun _ => true) (fun _ => none)

def checkedThenUpdated : List ConfigMove :=
  [.spawn (.check 1), .advance 0, .advance 0, .advance 0, .spawn (.update (some true) none),
    .advance 1, .advance 1]

theorem policy_takes_effect_checkedThenUpdated :
    TakesEffect (run system.step withoutTwoFactor checkedThenUpdated) := by
  have hrun : EveryStep system.step FillsInTime withoutTwoFactor checkedThenUpdated := by
    decide +kernel
  exact policy_takes_effect hrun.runsWhere

/-- The check has fetched the old row before the update, and stores it after the deletion. -/
def filledAfterUpdate : List ConfigMove :=
  [.spawn (.check 1), .advance 0, .advance 0, .spawn (.update (some true) none), .advance 1,
    .advance 1, .advance 0]

/-- After that a check lets the user pass. -/
theorem policy_without_effect : ¬ ∀ (now : ℕ) (config : Option SystemConfigData) (users : ℕ → Bool)
    (twoFactor : ℕ → Option Bool) (p : ConfigPool),
    RunsWhere system.step (fun _ _ => True) (start now config users twoFactor) p → p.TakesEffect := by
  intro h
  have hrun : RunsWhere system.step (fun _ _ => True) withoutTwoFactor
      (run system.step withoutTwoFactor filledAfterUpdate) :=
    RunsWhere.of_run (fun _ _ _ => trivial) _
  have hfinished : ∀ th ∈ (run system.step withoutTwoFactor filledAfterUpdate).threads,
      th.nextCall = none := by
    decide +kernel
  obtain ⟨th, hth, hnone, hresult, hfound⟩ : ∃ th : ConfigThread,
      (run system.step (run system.step withoutTwoFactor filledAfterUpdate)
        [.spawn (.check 1), .advance 2]).threads[2]? = some th ∧ th.nextCall = none ∧
      th.result = some (.ok ()) ∧ foundTwoFactor th.trace = false :=
    ⟨_, rfl, rfl, rfl, rfl⟩
  have henforces : (run system.step withoutTwoFactor filledAfterUpdate).state.enforces = true := by
    decide +kernel
  have heffect := h _ _ _ _ _ hrun hfinished [.spawn (.check 1), .advance 2] (by simp [Later]) 2 th
    (by decide +kernel) hth hnone
  rw [hresult, decision, henforces, hfound] at heffect
  cases heffect

end ConfigPool
end FastapiTemplate.SystemConfig
