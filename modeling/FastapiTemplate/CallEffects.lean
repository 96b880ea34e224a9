import FastapiTemplate.AuthCalls
import Mathlib.Data.List.Nodup
import Mathlib.Data.Nat.Basic

/-!
# What the calls write

Each call writes at most one `Area` of the state, and `WritesOnly` bounds the
areas a program writes, whatever it reads. The relations that the invariants rest
on are proved once for each call, by area, and then hold of every program within
those areas, whether it returns or raises.
-/

namespace FastapiTemplate

inductive Area
  | supply
  | accounts
  | versions
  | removal
  | sessions
  | revocation
  | grants
  | withdrawal
  | roleRemoval
  | factors
  | blacklist (type : TokenTypes)
  | oauthStates
  | challenges
  | replays
  | markers
  | config
  deriving DecidableEq, Repr

def RedisKey.area : RedisKey → Area
  | .blacklist type _ => .blacklist type
  | .oauthStateGoogle _ => .oauthStates
  | .twoFactorChallenge _ => .challenges
  | .twoFactorReplay .. => .replays
  | _ => .markers

def Call.area : Call → Option Area
  | .draw => some .supply
  | .redisSet key _ _ => some key.area
  | .redisDelete key => some key.area
  | .insertUser .. => some .accounts
  | .insertIdentity .. => some .accounts
  | .updateUser .. => some .accounts
  | .updatePassword .. => some .versions
  | .bumpTokenVersion _ => some .versions
  | .bumpRoleHolders _ => some .versions
  | .deleteUsers _ => some .removal
  | .upsertUserSession _ => some .sessions
  | .deleteSession .. => some .revocation
  | .deleteAllSessions _ => some .revocation
  | .insertUserRoles .. => some .grants
  | .insertRole .. => some .grants
  | .updateRoleFields .. => some .grants
  | .insertRolePermissions .. => some .grants
  | .deleteRolePermissions _ => some .withdrawal
  | .deleteRoles _ => some .withdrawal
  | .deleteRoleTransaction _ => some .roleRemoval
  | .upsertTwoFactor _ => some .factors
  | .disableTwoFactor _ => some .factors
  | .updateBackupCodes .. => some .factors
  | .seedSystemConfig => some .config
  | .updateSystemConfig _ => some .config
  | _ => none

def Call.Within (areas : List Area) (c : Call) : Prop := ∀ a, c.area = some a → a ∈ areas

def WritesOnly {α : Type} (areas : List Area) (p : App α) : Prop := p.Makes (Call.Within areas)

namespace WritesOnly

variable {α β : Type} {areas : List Area}

@[simp] theorem pure (a : α) : WritesOnly areas (Pure.pure a : App α) := trivial

@[simp] theorem raise (e : AppError) : WritesOnly areas (App.raise e : App α) := trivial

@[simp] theorem httpError (n : ℕ) (d : Detail) : WritesOnly areas (App.httpError n d : App α) :=
  trivial

theorem read {c : Call} (h : c.area = none) : WritesOnly areas (App.ask c) :=
  (Program.makes_perform c).mpr (fun a ha => by rw [h] at ha; cases ha)

theorem write {c : Call} {a : Area} (h : c.area = some a) (ha : a ∈ areas) :
    WritesOnly areas (App.ask c) :=
  (Program.makes_perform c).mpr (fun b hb => by rw [h] at hb; cases hb; exact ha)

theorem bind {p : App β} {f : β → App α} (hp : WritesOnly areas p)
    (hf : ∀ b, WritesOnly areas (f b)) : WritesOnly areas (p >>= f) :=
  Program.Makes.bind hp hf

theorem handle {p : App α} {f : AppError → App α} (hp : WritesOnly areas p)
    (hf : ∀ e, WritesOnly areas (f e)) : WritesOnly areas (p.handle f) :=
  Program.Makes.handle hp hf

theorem mono {areas' : List Area} {p : App α} (hp : WritesOnly areas p) (h : areas ⊆ areas') :
    WritesOnly areas' p :=
  Program.Makes.mono hp (fun _ hc a ha => h (hc a ha))

@[simp] theorem now : WritesOnly areas App.now := read rfl

theorem draw (h : .supply ∈ areas) : WritesOnly areas App.draw := write rfl h

@[simp] theorem ofDb (r : Except DbError α) : WritesOnly areas (App.ofDb r) := by
  cases r with
  | ok a => trivial
  | error e => trivial

@[simp] theorem redisGet (key : RedisKey) : WritesOnly areas (Redis.get key) := read rfl

theorem redisSet {key : RedisKey} (h : key.area ∈ areas) (value : RedisValue) (ex : ℤ) :
    WritesOnly areas (Redis.set key value ex) := by
  refine bind (write rfl h) (fun r => ?_)
  cases r with
  | ok _ => trivial
  | error e => trivial

theorem redisDelete {key : RedisKey} (h : key.area ∈ areas) :
    WritesOnly areas (Redis.delete key) := write rfl h

/-- The frame rule for programs within the areas. -/
theorem exec_rel {p : App α} (hp : WritesOnly areas p) (Rel : State → State → Prop)
    (hrefl : ∀ s, Rel s s) (htrans : ∀ s t u, Rel s t → Rel t u → Rel s u)
    (hcall : ∀ c, c.Within areas → ∀ s, Rel s (handler c s).2) (s : State) :
    Rel s (p.exec s).2 :=
  Program.Makes.execute_rel hp handler Rel hrefl htrans hcall s

end WritesOnly

def allAreas : List Area :=
  [.supply, .accounts, .versions, .removal, .sessions, .revocation, .grants, .withdrawal,
    .roleRemoval, .factors, .blacklist .access, .blacklist .refresh, .blacklist .sudo,
    .oauthStates, .challenges, .replays, .markers, .config]

theorem writesOnly_allAreas {α : Type} (p : App α) : WritesOnly allAreas p := by
  induction p with
  | pure a => trivial
  | raise e => trivial
  | call c next ih =>
    refine ⟨fun a _ => ?_, ih⟩
    rcases a with _ | _ | _ | _ | _ | _ | _ | _ | _ | _ | (_ | _ | _) | _ | _ | _ | _ | _ <;>
      decide

/-- What every call keeps, every program keeps. -/
theorem App.exec_rel {α : Type} (p : App α) (Rel : State → State → Prop) (hrefl : ∀ s, Rel s s)
    (htrans : ∀ s t u, Rel s t → Rel t u → Rel s u) (hcall : ∀ c s, Rel s (handler c s).2)
    (s : State) : Rel s (p.exec s).2 :=
  (writesOnly_allAreas p).exec_rel Rel hrefl htrans (fun c _ => hcall c) s

/-! ## Clock and supply -/

theorem redisSet_db (s : State) (key : RedisKey) (value : RedisValue) (ex : ℤ) :
    (s.redisSet key value ex).2.db = s.db := by
  unfold State.redisSet
  split_ifs <;> rfl

theorem redisSet_clock (s : State) (key : RedisKey) (value : RedisValue) (ex : ℤ) :
    (s.redisSet key value ex).2.clock = s.clock := by
  unfold State.redisSet
  split_ifs <;> rfl

theorem redisSet_nextId (s : State) (key : RedisKey) (value : RedisValue) (ex : ℤ) :
    (s.redisSet key value ex).2.nextId = s.nextId := by
  unfold State.redisSet
  split_ifs <;> rfl

theorem redisSet_redis_of_ne (s : State) {key key' : RedisKey} (h : key' ≠ key)
    (value : RedisValue) (ex : ℤ) : (s.redisSet key value ex).2.redis key' = s.redis key' := by
  unfold State.redisSet
  split_ifs
  · rfl
  · exact s.redis.set_of_ne h value _

attribute [simp] redisSet_db redisSet_clock redisSet_nextId

theorem handler_clock (c : Call) (s : State) : (handler c s).2.clock = s.clock := by
  cases c <;> simp [handler]

theorem handler_nextId (c : Call) (s : State) : s.nextId ≤ (handler c s).2.nextId := by
  cases c <;> simp [handler]

theorem exec_clock {α : Type} (p : App α) (s : State) : (p.exec s).2.clock = s.clock :=
  p.exec_rel (fun s t => t.clock = s.clock) (fun _ => rfl) (fun _ _ _ h h' => h'.trans h)
    handler_clock s

theorem exec_nextId {α : Type} (p : App α) (s : State) : s.nextId ≤ (p.exec s).2.nextId :=
  p.exec_rel (fun s t => s.nextId ≤ t.nextId) (fun _ => le_refl _)
    (fun _ _ _ => le_trans) handler_nextId s

/-! ## Frames -/

def Call.Avoids (areas : List Area) (c : Call) : Prop := ∀ a ∈ areas, c.area ≠ some a

theorem Call.Within.avoids {areas areas' : List Area} {c : Call} (h : c.Within areas)
    (hd : ∀ a ∈ areas', a ∉ areas) : c.Avoids areas' :=
  fun a ha hc => hd a ha (h a hc)

/-- What a call leaves alone, by the areas it avoids. -/
structure Frame (c : Call) (s t : State) : Prop where
  users : c.Avoids [.accounts, .versions, .removal, .roleRemoval] → t.db.users = s.db.users
  userSessions : c.Avoids [.sessions, .revocation, .removal] →
    t.db.userSessions = s.db.userSessions
  userTwoFactor : c.Avoids [.factors, .removal] → t.db.userTwoFactor = s.db.userTwoFactor
  userRoles : c.Avoids [.grants, .withdrawal, .roleRemoval, .removal] →
    t.db.userRoles = s.db.userRoles
  roles : c.Avoids [.grants, .withdrawal, .roleRemoval] → t.db.roles = s.db.roles
  rolePermissions : c.Avoids [.grants, .withdrawal, .roleRemoval] →
    t.db.rolePermissions = s.db.rolePermissions
  permissions : t.db.permissions = s.db.permissions
  blacklist : ∀ type, c.Avoids [.blacklist type] → ∀ jti,
    t.redis (.blacklist type jti) = s.redis (.blacklist type jti)
  replays : c.Avoids [.replays] → ∀ user slice,
    t.redis (.twoFactorReplay user slice) = s.redis (.twoFactorReplay user slice)

theorem Frame.of_db {c : Call} {s t : State} (hdb : t.db = s.db)
    (hredis : ∀ type, c.Avoids [.blacklist type] → ∀ jti,
      t.redis (.blacklist type jti) = s.redis (.blacklist type jti))
    (hreplays : c.Avoids [.replays] → ∀ user slice,
      t.redis (.twoFactorReplay user slice) = s.redis (.twoFactorReplay user slice)) :
    Frame c s t :=
  ⟨fun _ => by rw [hdb], fun _ => by rw [hdb], fun _ => by rw [hdb], fun _ => by rw [hdb],
    fun _ => by rw [hdb], fun _ => by rw [hdb], by rw [hdb], hredis, hreplays⟩

theorem handler_frame (c : Call) (s : State) : Frame c s (handler c s).2 := by
  cases c with
  | redisSet key value ex =>
    refine .of_db (redisSet_db s key value ex) (fun type h jti => ?_) (fun h user slice => ?_)
    · refine redisSet_redis_of_ne s (fun he => ?_) value ex
      exact h (.blacklist type) (by simp) (by rw [← he]; rfl)
    · refine redisSet_redis_of_ne s (fun he => ?_) value ex
      exact h .replays (by simp) (by rw [← he]; rfl)
  | redisDelete key =>
    refine .of_db rfl (fun type h jti => s.redis.delete_of_ne (fun he => ?_))
      (fun h user slice => s.redis.delete_of_ne (fun he => ?_))
    · exact h (.blacklist type) (by simp) (by rw [← he]; rfl)
    · exact h .replays (by simp) (by rw [← he]; rfl)
  | insertUser user hash =>
    rcases s.db.insertUser_cases s.nextId user hash with ⟨e, h⟩ | ⟨row, -, -, -, h⟩
    · exact .of_db (congrArg Prod.snd h) (fun _ _ _ => rfl) (fun _ _ _ => rfl)
    · constructor <;> simp [handler, h, Call.Avoids, Call.area]
  | insertIdentity user info =>
    rcases s.db.insertIdentity_cases user info with ⟨e, h⟩ | ⟨rows, h⟩
    · exact .of_db (congrArg Prod.snd h) (fun _ _ _ => rfl) (fun _ _ _ => rfl)
    · constructor <;> simp [handler, h]
  | updateUser user upd =>
    rcases s.db.updateUser_cases user upd with h | ⟨f, -, h⟩
    · exact .of_db h (fun _ _ _ => rfl) (fun _ _ _ => rfl)
    · constructor <;> simp [handler, h, Database.mapUsers, Call.Avoids, Call.area]
  | upsertUserSession data =>
    rcases s.db.upsertUserSession_cases data with ⟨e, h⟩ | ⟨rows, -, -, h⟩
    · exact .of_db (congrArg Prod.snd h) (fun _ _ _ => rfl) (fun _ _ _ => rfl)
    · constructor <;> simp [handler, h, Call.Avoids, Call.area]
  | insertUserRoles user roleIds =>
    rcases s.db.insertUserRoles_cases user roleIds with ⟨e, h⟩ | ⟨new, h⟩
    · exact .of_db (congrArg Prod.snd h) (fun _ _ _ => rfl) (fun _ _ _ => rfl)
    · constructor <;> simp [handler, h, Call.Avoids, Call.area]
  | insertRole name description =>
    rcases s.db.insertRole_cases s.nextId name description with ⟨e, h⟩ | h
    · exact .of_db (congrArg Prod.snd h) (fun _ _ _ => rfl) (fun _ _ _ => rfl)
    · constructor <;> simp [handler, h, Call.Avoids, Call.area]
  | updateRoleFields role name description =>
    rcases s.db.updateRoleFields_cases role name description with h | ⟨f, -, h⟩
    · exact .of_db h (fun _ _ _ => rfl) (fun _ _ _ => rfl)
    · constructor <;> simp [handler, h, Call.Avoids, Call.area]
  | insertRolePermissions role permissionIds =>
    rcases s.db.insertRolePermissions_cases role permissionIds with ⟨e, h⟩ | h
    · exact .of_db (congrArg Prod.snd h) (fun _ _ _ => rfl) (fun _ _ _ => rfl)
    · constructor <;> simp [handler, h, Call.Avoids, Call.area]
  | upsertTwoFactor row =>
    rcases s.db.upsertTwoFactor_cases row with ⟨e, h⟩ | ⟨rows, -, -, h⟩
    · exact .of_db (congrArg Prod.snd h) (fun _ _ _ => rfl) (fun _ _ _ => rfl)
    · constructor <;> simp [handler, h, Call.Avoids, Call.area]
  | _ =>
    -- a field is left alone, or the call writes in one of its areas
    constructor
    all_goals first
      | exact rfl
      | exact fun _ => rfl
      | exact fun _ _ _ => rfl
      | exact fun h => (h _ (by decide) rfl).elim

theorem WritesOnly.exec_userSessions {α : Type} {areas : List Area} {p : App α}
    (hp : WritesOnly areas p) (hd : ∀ a ∈ [Area.sessions, .revocation, .removal], a ∉ areas)
    (s : State) : (p.exec s).2.db.userSessions = s.db.userSessions :=
  hp.exec_rel (fun s t => t.db.userSessions = s.db.userSessions) (fun _ => rfl)
    (fun _ _ _ h h' => h'.trans h) (fun c hc s => (handler_frame c s).userSessions (hc.avoids hd)) s

theorem WritesOnly.exec_userTwoFactor {α : Type} {areas : List Area} {p : App α}
    (hp : WritesOnly areas p) (hd : ∀ a ∈ [Area.factors, .removal], a ∉ areas)
    (s : State) : (p.exec s).2.db.userTwoFactor = s.db.userTwoFactor :=
  hp.exec_rel (fun s t => t.db.userTwoFactor = s.db.userTwoFactor) (fun _ => rfl)
    (fun _ _ _ h h' => h'.trans h) (fun c hc s => (handler_frame c s).userTwoFactor (hc.avoids hd)) s

theorem WritesOnly.exec_blacklist {α : Type} {areas : List Area} {p : App α}
    (hp : WritesOnly areas p) {type : TokenTypes} (hd : Area.blacklist type ∉ areas) (s : State)
    (jti : ℕ) : (p.exec s).2.redis (.blacklist type jti) = s.redis (.blacklist type jti) :=
  hp.exec_rel (fun s t => t.redis (.blacklist type jti) = s.redis (.blacklist type jti))
    (fun _ => rfl) (fun _ _ _ h h' => h'.trans h)
    (fun c hc s => (handler_frame c s).blacklist type (hc.avoids (by simpa using hd)) jti) s

/-- Outside their own area, session rows only go. -/
theorem handler_userSessions_subset (c : Call) (s : State) (h : c.Avoids [.sessions]) :
    ∀ row ∈ (handler c s).2.db.userSessions, row ∈ s.db.userSessions := by
  intro row hrow
  cases c with
  | upsertUserSession data => exact absurd rfl (h .sessions (by simp))
  | deleteSession user jti => exact (List.mem_filter.mp hrow).1
  | deleteAllSessions user => exact (List.mem_filter.mp hrow).1
  | deleteUsers ids => exact (List.mem_filter.mp hrow).1
  | redisSet key value ex => simpa [handler] using hrow
  | redisDelete key => exact hrow
  | _ => rwa [(handler_frame _ s).userSessions (by simp [Call.Avoids, Call.area])] at hrow

theorem WritesOnly.exec_userSessions_subset {α : Type} {areas : List Area} {p : App α}
    (hp : WritesOnly areas p) (hd : Area.sessions ∉ areas) (s : State) :
    ∀ row ∈ (p.exec s).2.db.userSessions, row ∈ s.db.userSessions :=
  hp.exec_rel (fun s t => ∀ row ∈ t.db.userSessions, row ∈ s.db.userSessions)
    (fun _ _ => id) (fun _ _ _ h h' row hrow => h row (h' row hrow))
    (fun c hc s => handler_userSessions_subset c s (hc.avoids (by simpa using hd))) s

/-! ## Users -/

/-- What a call can do to the table of users, given the next number of the supply: rows keep
their identifiers, versions do not decrease, a new row takes the next number. -/
inductive UsersChange (us : List UserRow) (next : ℕ) : List UserRow → ℕ → Prop
  | update (f : UserRow → UserRow) (hid : ∀ u, (f u).id = u.id)
      (hversion : ∀ u, u.tokenVersion ≤ (f u).tokenVersion) {next' : ℕ} (hnext : next ≤ next') :
      UsersChange us next (us.map f) next'
  | insert (row : UserRow) (hid : row.id = next) (hversion : row.tokenVersion = 1) :
      UsersChange us next (us ++ [row]) (next + 1)
  | delete (p : UserRow → Bool) : UsersChange us next (us.filter p) next

theorem UsersChange.keep (us : List UserRow) {next next' : ℕ} (h : next ≤ next') :
    UsersChange us next us next' := by
  have hupdate : UsersChange us next (us.map id) next' :=
    .update id (fun _ => rfl) (fun _ => le_refl _) h
  rwa [List.map_id] at hupdate

theorem bump_change (us : List UserRow) (next : ℕ) (p : UserRow → Prop) [DecidablePred p]
    (f : UserRow → UserRow) (hid : ∀ u, (f u).id = u.id)
    (hversion : ∀ u, u.tokenVersion ≤ (f u).tokenVersion) :
    UsersChange us next (us.map (fun u => if p u then f u else u)) next := by
  refine .update _ (fun u => ?_) (fun u => ?_) (le_refl _)
  · by_cases h : p u <;> simp [h, hid]
  · by_cases h : p u <;> simp [h, hversion]

theorem handler_users (c : Call) (s : State) :
    UsersChange s.db.users s.nextId (handler c s).2.db.users (handler c s).2.nextId := by
  cases c with
  | insertUser user hash =>
    simp only [handler]
    rcases s.db.insertUser_cases s.nextId user hash with ⟨e, h⟩ | ⟨row, hid, hv, -, h⟩
    · rw [h]
      exact .keep _ (Nat.le_succ _)
    · rw [h]
      exact .insert row hid hv
  | updateUser user upd =>
    simp only [handler]
    rcases s.db.updateUser_cases user upd with h | ⟨f, hf, h⟩
    · rw [h]
      exact .keep _ (Nat.le_refl _)
    · rw [h]
      exact .update f (fun u => (hf u).1) (fun u => (hf u).2.1.ge) (Nat.le_refl _)
  | updatePassword user hash =>
    exact bump_change _ _ (fun u => u.id = user) _ (fun _ => rfl) (fun _ => Nat.le_succ _)
  | bumpTokenVersion user =>
    exact bump_change _ _ (fun u => u.id = user) _ (fun _ => rfl) (fun _ => Nat.le_succ _)
  | bumpRoleHolders role =>
    exact bump_change _ _ (fun u => (u.id, role) ∈ s.db.userRoles) _ (fun _ => rfl)
      (fun _ => Nat.le_succ _)
  | deleteRoleTransaction role =>
    exact bump_change _ _ (fun u => (u.id, role) ∈ s.db.userRoles) _ (fun _ => rfl)
      (fun _ => Nat.le_succ _)
  | deleteUsers ids => exact .delete _
  | insertIdentity user info =>
    simp only [handler]
    rcases s.db.insertIdentity_cases user info with ⟨e, h⟩ | ⟨rows, h⟩ <;> rw [h] <;>
      exact .keep _ (Nat.le_refl _)
  | redisSet key value ex =>
    simp only [handler, redisSet_db, redisSet_nextId]
    exact .keep _ (Nat.le_refl _)
  | redisDelete key => exact .keep _ (Nat.le_refl _)
  | _ =>
    rw [(handler_frame _ s).users (by simp [Call.Avoids, Call.area])]
    exact .keep _ (handler_nextId _ s)

end FastapiTemplate
