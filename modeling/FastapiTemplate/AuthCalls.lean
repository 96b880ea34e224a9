import FastapiTemplate.AuthDatabase
import FastapiTemplate.CallProgram
import FastapiTemplate.ExpiringStore

/-!
# The calls of the subsystem and their handler

A service function is a `Program` over these calls: Redis commands, SQL
statements, and the readings of the clock and of the random source. Each call is
one atomic step, and the sequence of calls follows the order of the awaits in the
source. `State` is everything the calls read and write.
-/

namespace FastapiTemplate

inductive RedisKey
  /-- `blacklist:{token_type}:{jti}` -/
  | blacklist (tokenType : TokenTypes) (jti : ℕ)
  /-- `oauth:state:google:{state}` -/
  | oauthStateGoogle (state : ℕ)
  /-- `2fa:setup:{user_id}` -/
  | twoFactorSetup (userId : UserId)
  /-- `2fa:challenge:{token}` -/
  | twoFactorChallenge (token : ℕ)
  /-- `2fa:replay:{user_id}:{timestamp_slice}` -/
  | twoFactorReplay (userId : UserId) (timestampSlice : ℕ)
  /-- `impersonation:session:{jti}` -/
  | impersonationSession (jti : ℕ)
  /-- `system_config:singleton` -/
  | systemConfigCache
  deriving DecidableEq, Repr

inductive RedisValue
  | one
  | userId (id : UserId)
  | encryptedSecret (s : String)
  | sessionMeta (adminId targetUserId : UserId)
  | enforceMfa (b : Bool)
  deriving DecidableEq, Repr

structure State where
  db : Database
  redis : ExpiringStore RedisKey RedisValue
  clock : ℕ
  /-- the next number of the random source -/
  nextId : ℕ

inductive Call
  | now
  | draw
  | redisGet (key : RedisKey)
  | redisSet (key : RedisKey) (value : RedisValue) (ex : ℤ)
  | redisDelete (key : RedisKey)
  | selectUser (w : UserWhere)
  | insertUser (user : UserCreate) (hashedPassword : Option String)
  | insertIdentity (user : UserId) (info : GoogleUserInfo)
  | updateUser (user : UserId) (upd : UserUpdate)
  | updatePassword (user : UserId) (hashedPassword : String)
  | bumpTokenVersion (user : UserId)
  | deleteUsers (ids : List UserId)
  | upsertUserSession (data : UserSessionCreate)
  | deleteSession (user : UserId) (jti : ℕ)
  | deleteAllSessions (user : UserId)
  | insertUserRoles (user : UserId) (roleIds : List RoleId)
  | selectRole (role : RoleId)
  | insertRole (name : String) (description : Option String)
  | updateRoleFields (role : RoleId) (name description : Option String)
  | deleteRolePermissions (role : RoleId)
  | insertRolePermissions (role : RoleId) (permissionIds : List PermissionId)
  | bumpRoleHolders (role : RoleId)
  | deleteRoles (ids : List RoleId)
  | deleteRoleTransaction (role : RoleId)
  | selectTwoFactor (user : UserId)
  | upsertTwoFactor (row : UserTwoFactorData)
  | disableTwoFactor (user : UserId)
  | updateBackupCodes (user : UserId) (codes : List BackupCodeRecord)
  | selectSystemConfig
  | seedSystemConfig
  | updateSystemConfig (enforceMfa : Option Bool)

@[reducible] def Call.Answer : Call → Type
  | .now => ℕ
  | .draw => ℕ
  | .redisGet _ => Option RedisValue
  | .redisSet .. => Except AppError Unit
  | .redisDelete _ => Unit
  | .selectUser _ => Option UserData
  | .insertUser .. => Except DbError UserData
  | .insertIdentity .. => Except DbError Unit
  | .updateUser .. => Except DbError Unit
  | .updatePassword .. => Unit
  | .bumpTokenVersion _ => Unit
  | .deleteUsers _ => List UserId
  | .upsertUserSession _ => Except DbError Unit
  | .deleteSession .. => Option ℤ
  | .deleteAllSessions _ => List (ℕ × ℤ)
  | .insertUserRoles .. => Except DbError Unit
  | .selectRole _ => Option RoleData
  | .insertRole .. => Except DbError RoleId
  | .updateRoleFields .. => Except DbError Unit
  | .deleteRolePermissions _ => Unit
  | .insertRolePermissions .. => Except DbError Unit
  | .bumpRoleHolders _ => Unit
  | .deleteRoles _ => List RoleId
  | .deleteRoleTransaction _ => Unit
  | .selectTwoFactor _ => Option UserTwoFactorData
  | .upsertTwoFactor _ => Except DbError Unit
  | .disableTwoFactor _ => Unit
  | .updateBackupCodes .. => Unit
  | .selectSystemConfig => Option Bool
  | .seedSystemConfig => Bool
  | .updateSystemConfig _ => Option Bool

namespace State

variable (s : State)

def setDb (db : Database) : State := { s with db := db }

@[simp] theorem setDb_db (db : Database) : (s.setDb db).db = db := rfl
@[simp] theorem setDb_redis (db : Database) : (s.setDb db).redis = s.redis := rfl
@[simp] theorem setDb_clock (db : Database) : (s.setDb db).clock = s.clock := rfl
@[simp] theorem setDb_nextId (db : Database) : (s.setDb db).nextId = s.nextId := rfl

/-- `SET key value EX ex`; Redis rejects an expiry that is not positive. -/
def redisSet (key : RedisKey) (value : RedisValue) (ex : ℤ) : Except AppError Unit × State :=
  if ex ≤ 0 then (.error (.redis "invalid expire time in 'set' command"), s)
  else (.ok (), { s with redis := s.redis.set key value (some (s.clock + ex.toNat * second)) })

def advance (d : ℕ) : State := { s with clock := s.clock + d }

end State

def handler : (c : Call) → State → c.Answer × State
  | .now, s => (s.clock, s)
  | .draw, s => (s.nextId, { s with nextId := s.nextId + 1 })
  | .redisGet key, s => (s.redis.get s.clock key, s)
  | .redisSet key value ex, s => s.redisSet key value ex
  | .redisDelete key, s => ((), { s with redis := s.redis.delete key })
  | .selectUser w, s => (s.db.selectUser w, s)
  | .insertUser user hash, s =>
    ((s.db.insertUser s.nextId user hash).1,
      { s with db := (s.db.insertUser s.nextId user hash).2, nextId := s.nextId + 1 })
  | .insertIdentity user info, s =>
    ((s.db.insertIdentity user info).1, s.setDb (s.db.insertIdentity user info).2)
  | .updateUser user upd, s => ((s.db.updateUser user upd).1, s.setDb (s.db.updateUser user upd).2)
  | .updatePassword user hash, s => ((), s.setDb (s.db.updatePassword user hash))
  | .bumpTokenVersion user, s => ((), s.setDb (s.db.bumpTokenVersion user))
  | .deleteUsers ids, s => ((s.db.deleteUsers ids).1, s.setDb (s.db.deleteUsers ids).2)
  | .upsertUserSession data, s =>
    ((s.db.upsertUserSession data).1, s.setDb (s.db.upsertUserSession data).2)
  | .deleteSession user jti, s =>
    ((s.db.deleteSession user jti s.clock).1, s.setDb (s.db.deleteSession user jti s.clock).2)
  | .deleteAllSessions user, s =>
    ((s.db.deleteAllSessions user s.clock).1, s.setDb (s.db.deleteAllSessions user s.clock).2)
  | .insertUserRoles user roleIds, s =>
    ((s.db.insertUserRoles user roleIds).1, s.setDb (s.db.insertUserRoles user roleIds).2)
  | .selectRole role, s => (s.db.selectRole role, s)
  | .insertRole name description, s =>
    ((s.db.insertRole s.nextId name description).1,
      { s with db := (s.db.insertRole s.nextId name description).2, nextId := s.nextId + 1 })
  | .updateRoleFields role name description, s =>
    ((s.db.updateRoleFields role name description).1,
      s.setDb (s.db.updateRoleFields role name description).2)
  | .deleteRolePermissions role, s => ((), s.setDb (s.db.deleteRolePermissions role))
  | .insertRolePermissions role permissionIds, s =>
    ((s.db.insertRolePermissions role permissionIds).1,
      s.setDb (s.db.insertRolePermissions role permissionIds).2)
  | .bumpRoleHolders role, s => ((), s.setDb (s.db.bumpRoleHolders role))
  | .deleteRoles ids, s => ((s.db.deleteRoles ids).1, s.setDb (s.db.deleteRoles ids).2)
  | .deleteRoleTransaction role, s => ((), s.setDb (s.db.deleteRoleTransaction role))
  | .selectTwoFactor user, s => (s.db.selectTwoFactor user, s)
  | .upsertTwoFactor row, s => ((s.db.upsertTwoFactor row).1, s.setDb (s.db.upsertTwoFactor row).2)
  | .disableTwoFactor user, s => ((), s.setDb (s.db.disableTwoFactor user))
  | .updateBackupCodes user codes, s => ((), s.setDb (s.db.updateBackupCodes user codes))
  | .selectSystemConfig, s => (s.db.systemConfigurations, s)
  | .seedSystemConfig, s =>
    (s.db.systemConfigurations.getD false,
      s.setDb { s.db with systemConfigurations := some (s.db.systemConfigurations.getD false) })
  | .updateSystemConfig enforceMfa, s =>
    (s.db.systemConfigurations.map (fun b => enforceMfa.getD b),
      s.setDb { s.db with
        systemConfigurations := s.db.systemConfigurations.map (fun b => enforceMfa.getD b) })

abbrev App (α : Type) := Program Call Call.Answer AppError α

/-- Sequential execution against the handler. -/
abbrev App.exec {α : Type} (p : App α) (s : State) : Except AppError α × State :=
  p.execute handler s

namespace App

abbrev ask (c : Call) : App c.Answer := Program.perform c

def raise {α : Type} (e : AppError) : App α := Program.raise e

def httpError {α : Type} (statusCode : ℕ) (detail : Detail) : App α :=
  raise (.http statusCode detail)

def now : App ℕ := ask .now

/-- A number of the random source: a `uuid4`, or the seed of a drawn secret. -/
def draw : App ℕ := ask .draw

def ofDb {α : Type} : Except DbError α → App α
  | .ok a => pure a
  | .error e => raise (.db e)

end App

namespace Redis

def get (key : RedisKey) : App (Option RedisValue) := App.ask (.redisGet key)

def set (key : RedisKey) (value : RedisValue) (ex : ℤ) : App Unit := do
  match ← App.ask (.redisSet key value ex) with
  | .ok () => pure ()
  | .error e => App.raise e

def delete (key : RedisKey) : App Unit := App.ask (.redisDelete key)

end Redis
end FastapiTemplate
