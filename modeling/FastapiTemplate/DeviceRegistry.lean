import FastapiTemplate.KeyedTables
import FastapiTemplate.Notifications
import FastapiTemplate.PushBroadcast
import FastapiTemplate.RunHistories

/-!
# The registry of devices

The table `user_devices` with the statements of `DeviceDAO`, the routes and the channel that use it.
A token belongs to the user who registered it last. The statements of requests, of tasks and of the
deletion of users come in any order.
-/

namespace FastapiTemplate.Devices

open Notification

structure UserDevice where
  id : ℕ
  userId : Uuid
  fcmToken : String
  platform : String
  deviceName : Option String
  isActive : Bool
  lastUsedAt : ℕ
  createdAt : ℕ
  updatedAt : ℕ
  deriving DecidableEq

/-- The ids of the users, and the table with its unique column and its foreign key. -/
structure Database where
  users : List Uuid
  devices : KeyedTable UserDevice.fcmToken
  owned : ∀ d ∈ devices.rows, d.userId ∈ users

/-- The arguments of `register_device`, and what the server adds. -/
structure Registration where
  userId : Uuid
  fcmToken : String
  platform : String
  deviceName : Option String
  id : ℕ
  now : ℕ

namespace Registration

def inserted (r : Registration) : UserDevice :=
  ⟨r.id, r.userId, r.fcmToken, r.platform, r.deviceName, true, r.now, r.now, r.now⟩

def updated (r : Registration) (old : UserDevice) : UserDevice :=
  { old with userId := r.userId, platform := r.platform,
             deviceName := r.deviceName.or old.deviceName, isActive := true,
             lastUsedAt := r.now, updatedAt := r.now }

theorem fcmToken_updated (r : Registration) (old : UserDevice) :
    (r.updated old).fcmToken = old.fcmToken := rfl

def accepted (r : Registration) (db : Database) : Bool :=
  decide (r.userId ∈ db.users) && PyValue.fitsVarchar 500 r.fcmToken &&
    decide (r.platform ∈ ["ios", "android", "web"]) &&
    r.deviceName.all (PyValue.fitsVarchar 100) &&
    ((db.devices.lookup r.fcmToken).isSome || db.devices.rows.all (·.id ≠ r.id))

theorem userId_mem_of_accepted {r : Registration} {db : Database} (h : r.accepted db = true) :
    r.userId ∈ db.users := by
  simp only [accepted, Bool.and_eq_true] at h
  exact of_decide_eq_true h.1.1.1.1

end Registration

/-! ## The data access object -/

namespace DeviceDAO

/-- `none`: the server raises an error, and nothing changes. -/
def registerDevice (r : Registration) (db : Database) : Option Database :=
  if h : r.accepted db = true then
    some { users := db.users
           devices := db.devices.upsert r.inserted r.updated r.fcmToken_updated
           owned := by
             intro d hd
             rcases KeyedTable.mem_upsert hd with rfl | hd | ⟨old, -, rfl⟩
             · exact Registration.userId_mem_of_accepted h
             · exact db.owned d hd
             · exact Registration.userId_mem_of_accepted h }
  else none

def deactivated (condition : UserDevice → Bool) (now : ℕ) (d : UserDevice) : UserDevice :=
  if condition d then { d with isActive := false, updatedAt := now } else d

theorem deactivated_keeps (condition : UserDevice → Bool) (now : ℕ) (d : UserDevice) :
    (deactivated condition now d).fcmToken = d.fcmToken ∧
      (deactivated condition now d).userId = d.userId := by
  unfold deactivated
  split_ifs <;> exact ⟨rfl, rfl⟩

/-- `UPDATE user_devices SET is_active = FALSE, updated_at = CURRENT_TIMESTAMP WHERE ..` -/
def deactivateWhere (condition : UserDevice → Bool) (now : ℕ) (db : Database) : Database where
  users := db.users
  devices := db.devices.update (deactivated condition now)
    (fun d => (deactivated_keeps condition now d).1)
  owned := by
    intro d hd
    obtain ⟨old, hold, rfl⟩ := List.mem_map.mp hd
    rw [(deactivated_keeps condition now old).2]
    exact db.owned old hold

def unregisterDevice (userId : Uuid) (fcmToken : String) (now : ℕ) (db : Database) : Database :=
  deactivateWhere (fun d => d.userId = userId && d.fcmToken = fcmToken) now db

def deactivateTokens (tokens : List String) (now : ℕ) (db : Database) : Database :=
  if tokens = [] then db else deactivateWhere (fun d => d.fcmToken ∈ tokens) now db

/-- Devices that were last used at the same time come in the order of the table. -/
def getActiveDevicesByUser (userId : Uuid) (db : Database) : List UserDevice :=
  (db.devices.rows.filter (fun d => d.userId = userId && d.isActive)).mergeSort
    (fun d e => d.lastUsedAt ≥ e.lastUsedAt)

def getAllActiveTokens (db : Database) : List String :=
  (db.devices.rows.filter (·.isActive)).map (·.fcmToken)

end DeviceDAO

/-- `DELETE FROM users WHERE id = ANY($1)`, which deletes the devices of the users. -/
def deleteUsers (ids : List Uuid) (db : Database) : Database where
  users := db.users.filter (· ∉ ids)
  devices := db.devices.filter (fun d => d.userId ∉ ids)
  owned := by
    intro d hd
    obtain ⟨hmem, hkeep⟩ := List.mem_filter.mp hd
    exact List.mem_filter.mpr ⟨db.owned d hmem, hkeep⟩

def createUser (userId : Uuid) (db : Database) : Database where
  users := userId :: db.users
  devices := db.devices
  owned d hd := List.mem_cons_of_mem _ (db.owned d hd)

/-! ## The channel -/

namespace FCMChannel

def send (userId : Uuid) (notification : NotificationSchema) (db : Database) :
    Option PushBroadcast.PushArgs :=
  let devices := DeviceDAO.getActiveDevicesByUser userId db
  if devices = [] then none
  else some ⟨devices.map (·.fcmToken), notification.subject, notification.message,
    some notification.metadata⟩

def broadcast (notification : NotificationSchema) (db : Database) : Option PushBroadcast.PushArgs :=
  let tokens := DeviceDAO.getAllActiveTokens db
  if tokens = [] then none
  else some ⟨tokens, notification.subject, notification.message, some notification.metadata⟩

end FCMChannel

/-! ## Runs -/

inductive Op
  | createUser (userId : Uuid)
  | deleteUsers (ids : List Uuid)
  | registerDevice (r : Registration)
  | unregisterDevice (userId : Uuid) (fcmToken : String) (now : ℕ)
  /-- The task prunes tokens that Firebase reports as dead. -/
  | deactivateTokens (tokens : List String) (now : ℕ)

def step (db : Database) : Op → Database
  | .createUser userId => createUser userId db
  | .deleteUsers ids => deleteUsers ids db
  | .registerDevice r => (DeviceDAO.registerDevice r db).getD db
  | .unregisterDevice userId fcmToken now => DeviceDAO.unregisterDevice userId fcmToken now db
  | .deactivateTokens tokens now => DeviceDAO.deactivateTokens tokens now db

def initial : Database := ⟨[], .empty, nofun⟩

def Op.Registers (userId : Uuid) (fcmToken : String) (db : Database) : Op → Prop
  | .registerDevice r => r.userId = userId ∧ r.fcmToken = fcmToken ∧ r.accepted db = true
  | _ => False

/-- The token is registered by somebody, unregistered by the user or pruned, or the user is
deleted. -/
def Op.Ends (userId : Uuid) (fcmToken : String) (db : Database) : Op → Prop
  | .createUser _ => False
  | .deleteUsers ids => userId ∈ ids
  | .registerDevice r => r.fcmToken = fcmToken ∧ r.accepted db = true
  | .unregisterDevice user token _ => user = userId ∧ token = fcmToken
  | .deactivateTokens tokens _ => fcmToken ∈ tokens

/-! ## The row of a token -/

def Receives (userId : Uuid) (fcmToken : String) (db : Database) : Prop :=
  ∃ d, db.devices.lookup fcmToken = some d ∧ d.userId = userId ∧ d.isActive = true

section rows
variable (db : Database) (fcmToken : String)

theorem lookup_register (r : Registration) :
    ((DeviceDAO.registerDevice r db).getD db).devices.lookup fcmToken =
      if r.fcmToken = fcmToken ∧ r.accepted db = true
      then some ((db.devices.lookup fcmToken).elim r.inserted r.updated)
      else db.devices.lookup fcmToken := by
  unfold DeviceDAO.registerDevice
  by_cases haccepted : r.accepted db = true
  · rw [dif_pos haccepted, Option.getD_some]
    dsimp only
    rw [KeyedTable.lookup_upsert]
    simp only [haccepted, and_true]
    rfl
  · rw [dif_neg haccepted, Option.getD_none, if_neg (fun h => haccepted h.2)]

theorem lookup_deactivateWhere (condition : UserDevice → Bool) (now : ℕ) :
    (DeviceDAO.deactivateWhere condition now db).devices.lookup fcmToken =
      (db.devices.lookup fcmToken).map (DeviceDAO.deactivated condition now) :=
  KeyedTable.lookup_update _ _ (fun d => (DeviceDAO.deactivated_keeps condition now d).1) _

theorem lookup_deleteUsers (ids : List Uuid) : (deleteUsers ids db).devices.lookup fcmToken =
    (db.devices.lookup fcmToken).filter (fun d => d.userId ∉ ids) := KeyedTable.lookup_filter ..

variable (userId : Uuid)

theorem receives_deactivateWhere (condition : UserDevice → Bool) (now : ℕ) :
    Receives userId fcmToken (DeviceDAO.deactivateWhere condition now db) ↔
      ∃ d, db.devices.lookup fcmToken = some d ∧ d.userId = userId ∧ d.isActive = true ∧
        condition d = false := by
  simp only [Receives, lookup_deactivateWhere, Option.map_eq_some_iff]
  constructor
  · rintro ⟨-, ⟨d, hd, rfl⟩, huser, hactive⟩
    unfold DeviceDAO.deactivated at huser hactive
    split_ifs at huser hactive with hcondition
    exact ⟨d, hd, huser, hactive, Bool.eq_false_iff.mpr hcondition⟩
  · rintro ⟨d, hd, huser, hactive, hcondition⟩
    refine ⟨d, ⟨d, hd, ?_⟩, huser, hactive⟩
    rw [DeviceDAO.deactivated, hcondition, if_neg Bool.false_ne_true]

/-- What each statement does to the owner of a token. -/
theorem receives_step (op : Op) : Receives userId fcmToken (step db op) ↔
    op.Registers userId fcmToken db ∨
      (Receives userId fcmToken db ∧ ¬ op.Ends userId fcmToken db) := by
  cases op with
  | createUser other => simp [step, createUser, Receives, Op.Registers, Op.Ends]
  | deleteUsers ids =>
    simp only [step, Receives, lookup_deleteUsers, Option.filter_eq_some_iff, Op.Registers, Op.Ends,
      false_or, decide_eq_true_eq]
    constructor
    · rintro ⟨d, ⟨hd, hkeep⟩, rfl, hactive⟩
      exact ⟨⟨d, hd, rfl, hactive⟩, hkeep⟩
    · rintro ⟨⟨d, hd, rfl, hactive⟩, hkeep⟩
      exact ⟨d, ⟨hd, hkeep⟩, rfl, hactive⟩
  | registerDevice r =>
    simp only [step, Receives, lookup_register, Op.Registers, Op.Ends]
    by_cases hregisters : r.fcmToken = fcmToken ∧ r.accepted db = true
    · have howner (old : Option UserDevice) : (old.elim r.inserted r.updated).userId = r.userId ∧
          (old.elim r.inserted r.updated).isActive = true := by
        cases old <;> exact ⟨rfl, rfl⟩
      rw [if_pos hregisters]
      constructor
      · rintro ⟨d, hd, huser, -⟩
        obtain rfl := Option.some.inj hd
        exact .inl ⟨(howner _).1.symm.trans huser, hregisters⟩
      · rintro (⟨huser, -⟩ | ⟨-, hends⟩)
        · exact ⟨_, rfl, (howner _).1.trans huser, (howner _).2⟩
        · exact absurd hregisters hends
    · rw [if_neg hregisters]
      tauto
  | unregisterDevice user token now =>
    rw [step, DeviceDAO.unregisterDevice, receives_deactivateWhere]
    simp only [Op.Registers, Op.Ends, false_or, Receives]
    constructor
    · rintro ⟨d, hd, rfl, hactive, hcondition⟩
      refine ⟨⟨d, hd, rfl, hactive⟩, ?_⟩
      rintro ⟨rfl, rfl⟩
      simp [KeyedTable.key_of_lookup hd] at hcondition
    · rintro ⟨⟨d, hd, rfl, hactive⟩, hother⟩
      refine ⟨d, hd, rfl, hactive, ?_⟩
      have htoken : d.fcmToken = fcmToken := KeyedTable.key_of_lookup hd
      rw [Bool.and_eq_false_iff, decide_eq_false_iff_not, decide_eq_false_iff_not, htoken]
      tauto
  | deactivateTokens tokens now =>
    simp only [step, DeviceDAO.deactivateTokens, Op.Registers, Op.Ends, false_or]
    split_ifs with hnil
    · subst hnil
      simp
    · rw [receives_deactivateWhere]
      simp only [Receives, decide_eq_false_iff_not]
      constructor
      · rintro ⟨d, hd, rfl, hactive, hother⟩
        rw [KeyedTable.key_of_lookup hd] at hother
        exact ⟨⟨d, hd, rfl, hactive⟩, hother⟩
      · rintro ⟨⟨d, hd, rfl, hactive⟩, hother⟩
        refine ⟨d, hd, rfl, hactive, ?_⟩
        rw [KeyedTable.key_of_lookup hd]
        exact hother

def Named (name : String) (db : Database) : Prop :=
  ∃ d, db.devices.lookup fcmToken = some d ∧ d.deviceName = some name

def Op.GivesName (name : String) (db : Database) : Op → Prop
  | .registerDevice r => r.fcmToken = fcmToken ∧ r.accepted db = true ∧ r.deviceName = some name
  | _ => False

/-- A registration gives the device a name, or the owner is deleted and the row with the owner. -/
def Op.TakesName (db : Database) : Op → Prop
  | .registerDevice r => r.fcmToken = fcmToken ∧ r.accepted db = true ∧ r.deviceName ≠ none
  | .deleteUsers ids => ∃ d, db.devices.lookup fcmToken = some d ∧ d.userId ∈ ids
  | _ => False

theorem named_deactivateWhere (name : String) (condition : UserDevice → Bool) (now : ℕ) :
    Named fcmToken name (DeviceDAO.deactivateWhere condition now db) ↔ Named fcmToken name db := by
  have hname (d : UserDevice) :
      (DeviceDAO.deactivated condition now d).deviceName = d.deviceName := by
    unfold DeviceDAO.deactivated
    split_ifs <;> rfl
  simp only [Named, lookup_deactivateWhere, Option.map_eq_some_iff]
  constructor
  · rintro ⟨-, ⟨d, hd, rfl⟩, h⟩
    exact ⟨d, hd, (hname d).symm.trans h⟩
  · rintro ⟨d, hd, h⟩
    exact ⟨_, ⟨d, hd, rfl⟩, (hname d).trans h⟩

theorem named_step (name : String) (op : Op) : Named fcmToken name (step db op) ↔
    op.GivesName fcmToken name db ∨ (Named fcmToken name db ∧ ¬ op.TakesName fcmToken db) := by
  cases op with
  | createUser other => simp [step, createUser, Named, Op.GivesName, Op.TakesName]
  | deleteUsers ids =>
    simp only [step, Named, lookup_deleteUsers, Option.filter_eq_some_iff, Op.GivesName,
      Op.TakesName, false_or, decide_eq_true_eq]
    constructor
    · rintro ⟨d, ⟨hd, hkeep⟩, hname⟩
      refine ⟨⟨d, hd, hname⟩, ?_⟩
      rintro ⟨d', hd', hmem⟩
      obtain rfl := Option.some.inj (hd.symm.trans hd')
      exact hkeep hmem
    · rintro ⟨⟨d, hd, hname⟩, hkeep⟩
      exact ⟨d, ⟨hd, fun hmem => hkeep ⟨d, hd, hmem⟩⟩, hname⟩
  | registerDevice r =>
    simp only [step, Named, lookup_register, Op.GivesName, Op.TakesName]
    by_cases hregisters : r.fcmToken = fcmToken ∧ r.accepted db = true
    · simp only [hregisters.1, hregisters.2, true_and, not_not]
      cases hold : db.devices.lookup fcmToken with
      | none => simp [Registration.inserted]
      | some old => cases hname : r.deviceName <;> simp [Registration.updated, hname]
    · rw [if_neg hregisters]
      tauto
  | unregisterDevice user token now =>
    rw [step, DeviceDAO.unregisterDevice, named_deactivateWhere]
    simp only [Op.GivesName, Op.TakesName, false_or, not_false_eq_true, and_true]
  | deactivateTokens tokens now =>
    simp only [step, DeviceDAO.deactivateTokens, Op.GivesName, Op.TakesName, false_or,
      not_false_eq_true, and_true]
    split_ifs
    · rfl
    · exact named_deactivateWhere db fcmToken name _ now

end rows

/-! ## Whole runs -/

/-- In a run of statements, the user registers the token, and nothing that ends it comes later. -/
def HoldsToken (userId : Uuid) (fcmToken : String) (ops : List Op) : Prop :=
  Since step (fun db op => op.Registers userId fcmToken db)
    (fun db op => op.Ends userId fcmToken db) initial ops

theorem receives_run_iff (userId : Uuid) (fcmToken : String) (ops : List Op) :
    Receives userId fcmToken (run step initial ops) ↔ HoldsToken userId fcmToken ops := by
  refine holds_run_iff_since (fun db op => receives_step db fcmToken userId op) ?_ ops
  rintro ⟨d, hd, -⟩
  cases hd

section tokens
variable (db : Database)

theorem mem_getActiveDevicesByUser {userId : Uuid} {d : UserDevice} :
    d ∈ DeviceDAO.getActiveDevicesByUser userId db ↔
      d ∈ db.devices.rows ∧ d.userId = userId ∧ d.isActive = true := by
  rw [DeviceDAO.getActiveDevicesByUser, List.mem_mergeSort, List.mem_filter, Bool.and_eq_true,
    decide_eq_true_eq]

theorem mem_activeTokens (userId : Uuid) (fcmToken : String) :
    fcmToken ∈ (DeviceDAO.getActiveDevicesByUser userId db).map (·.fcmToken) ↔
      Receives userId fcmToken db := by
  simp only [List.mem_map, mem_getActiveDevicesByUser, Receives, KeyedTable.lookup_eq_some_iff]
  constructor
  · rintro ⟨d, ⟨hd, huser, hactive⟩, htoken⟩
    exact ⟨d, ⟨hd, htoken⟩, huser, hactive⟩
  · rintro ⟨d, ⟨hd, htoken⟩, huser, hactive⟩
    exact ⟨d, ⟨hd, huser, hactive⟩, htoken⟩

theorem nodup_activeTokens (userId : Uuid) :
    ((DeviceDAO.getActiveDevicesByUser userId db).map (·.fcmToken)).Nodup := by
  have hperm := (List.mergeSort_perm (db.devices.rows.filter
    (fun d => d.userId = userId && d.isActive)) (fun d e => d.lastUsedAt ≥ e.lastUsedAt))
  refine (hperm.map _).nodup_iff.mpr ?_
  exact db.devices.unique.sublist (List.filter_sublist.map _)

theorem mem_getAllActiveTokens (fcmToken : String) :
    fcmToken ∈ DeviceDAO.getAllActiveTokens db ↔ ∃ userId, Receives userId fcmToken db := by
  simp only [DeviceDAO.getAllActiveTokens, List.mem_map, List.mem_filter, Receives,
    KeyedTable.lookup_eq_some_iff]
  constructor
  · rintro ⟨d, ⟨hd, hactive⟩, htoken⟩
    exact ⟨d.userId, d, ⟨hd, htoken⟩, rfl, hactive⟩
  · rintro ⟨userId, d, ⟨hd, htoken⟩, -, hactive⟩
    exact ⟨d, ⟨hd, hactive⟩, htoken⟩

end tokens

def pushedTo (task : Option PushBroadcast.PushArgs) : List String := task.elim [] (·.tokens)

theorem pushedTo_send (userId : Uuid) (n : NotificationSchema) (db : Database) :
    pushedTo (FCMChannel.send userId n db) =
      (DeviceDAO.getActiveDevicesByUser userId db).map (·.fcmToken) := by
  unfold FCMChannel.send pushedTo
  dsimp only
  split_ifs with hnil
  · rw [hnil]
    rfl
  · rfl

theorem pushedTo_broadcast (n : NotificationSchema) (db : Database) :
    pushedTo (FCMChannel.broadcast n db) = DeviceDAO.getAllActiveTokens db := by
  unfold FCMChannel.broadcast pushedTo
  dsimp only
  split_ifs with hnil
  · exact hnil.symm
  · rfl

def Database.pushView (db : Database) : PushBroadcast.UserDevices where
  rows := db.devices.rows.map (fun d => ⟨d.fcmToken, d.isActive, d.updatedAt⟩)
  unique := by
    rw [List.map_map]
    exact db.devices.unique

theorem getAllActiveTokens_pushView (db : Database) :
    PushBroadcast.DeviceDAO.getAllActiveTokens db.pushView = DeviceDAO.getAllActiveTokens db := by
  rw [PushBroadcast.DeviceDAO.getAllActiveTokens, Database.pushView, List.filter_map, List.map_map]
  rfl

/-- The task that prunes tokens does what the statement does. -/
theorem deactivateTokens_pushView (tokens : List String) (now : ℕ) (db : Database) :
    (DeviceDAO.deactivateTokens tokens now db).pushView.rows =
      (PushBroadcast.DeviceDAO.deactivateTokens tokens now db.pushView).rows := by
  unfold DeviceDAO.deactivateTokens PushBroadcast.DeviceDAO.deactivateTokens
  split_ifs
  · rfl
  · simp only [Database.pushView, DeviceDAO.deactivateWhere, KeyedTable.update, List.map_map]
    refine List.map_congr_left (fun d _ => ?_)
    simp only [Function.comp_apply, DeviceDAO.deactivated, PushBroadcast.DeviceDAO.deactivateRow,
      decide_eq_true_eq]
    split_ifs <;> rfl

/-- After any run, a notification for a user is pushed once to each token that the user registered
last and that nothing has ended since, and to no other; a broadcast, to those of all users. -/
theorem pushed_to_holders (ops : List Op) (n : NotificationSchema) :
    (∀ userId, (pushedTo (FCMChannel.send userId n (run step initial ops))).Nodup ∧
      ∀ fcmToken, fcmToken ∈ pushedTo (FCMChannel.send userId n (run step initial ops)) ↔
        HoldsToken userId fcmToken ops) ∧
    (pushedTo (FCMChannel.broadcast n (run step initial ops))).Nodup ∧
      ∀ fcmToken, fcmToken ∈ pushedTo (FCMChannel.broadcast n (run step initial ops)) ↔
        ∃ userId, HoldsToken userId fcmToken ops := by
  refine ⟨fun userId => ⟨?_, fun fcmToken => ?_⟩, ?_, fun fcmToken => ?_⟩
  · rw [pushedTo_send]
    exact nodup_activeTokens _ userId
  · rw [pushedTo_send, mem_activeTokens, receives_run_iff]
  · rw [pushedTo_broadcast]
    exact (run step initial ops).devices.unique.sublist (List.filter_sublist.map _)
  · rw [pushedTo_broadcast, mem_getAllActiveTokens]
    exact exists_congr (fun userId => receives_run_iff userId fcmToken ops)

/-- The name of a device is the last one that a registration gave it, under any user, while its row
was there. -/
theorem named_run_iff (fcmToken name : String) (ops : List Op) :
    Named fcmToken name (run step initial ops) ↔
      Since step (fun db op => op.GivesName fcmToken name db)
        (fun db op => op.TakesName fcmToken db) initial ops := by
  refine holds_run_iff_since (fun db op => named_step db fcmToken name op) ?_ ops
  rintro ⟨d, hd, -⟩
  cases hd

end FastapiTemplate.Devices
