import FastapiTemplate.CommonStatements

/-!
# What the methods hand to which helper

`fetch` and `fetchval` are meant for reading: they neither use the write pool nor set the
session settings. A method misroutes a write if it hands it to one of them.
-/

namespace FastapiTemplate.Sql

section calls
variable {P : HelperCall → Prop} {α : Type}

theorem makes_daoCall {c : HelperCall} : (Dao.call c).Makes P ↔ P c := by
  refine ⟨fun h => h.1, fun h => ⟨h, fun r => ?_⟩⟩
  cases r <;> trivial

theorem makes_daoCall_bind {c : HelperCall} {f : c.Result → DaoProgram α} :
    (Dao.call c >>= f).Makes P ↔ P c ∧ ∀ r, (f r).Makes P := by
  refine ⟨fun h => ⟨h.1, fun r => h.2 (.ok r)⟩, fun h => ⟨h.1, fun r => ?_⟩⟩
  cases r with
  | ok a => exact h.2 a
  | error e => trivial

@[simp] theorem makes_fetch {q : Query} : (Dao.fetch q).Makes P ↔ P (.fetch q false) :=
  makes_daoCall

@[simp] theorem makes_fetch_bind {q : Query} {f : List Row → DaoProgram α} :
    (Dao.fetch q >>= f).Makes P ↔ P (.fetch q false) ∧ ∀ rows, (f rows).Makes P :=
  makes_daoCall_bind

@[simp] theorem makes_fetchRow_bind {q : Query} {f : Option Row → DaoProgram α} :
    (Dao.fetchRow q >>= f).Makes P ↔ P (.fetch q true) ∧ ∀ rows : List Row, (f rows.head?).Makes P := by
  unfold Dao.fetchRow
  rw [Program.bind_assoc]
  exact makes_daoCall_bind

@[simp] theorem makes_fetchRow {q : Query} : (Dao.fetchRow q).Makes P ↔ P (.fetch q true) := by
  unfold Dao.fetchRow
  rw [makes_daoCall_bind]
  exact and_iff_left (fun _ => trivial)

@[simp] theorem makes_write {q : Query} : (Dao.write q).Makes P ↔ P (.write q) := makes_daoCall

@[simp] theorem makes_write_bind {q : Query} {f : Option Row → DaoProgram α} :
    (Dao.write q >>= f).Makes P ↔ P (.write q) ∧ ∀ row, (f row).Makes P :=
  makes_daoCall_bind

@[simp] theorem makes_fetchval_bind {q : Query} {f : Option Arg → DaoProgram α} :
    (Dao.fetchval q >>= f).Makes P ↔ P (.fetchval q) ∧ ∀ a, (f a).Makes P :=
  makes_daoCall_bind

@[simp] theorem makes_execute_bind {q : Query} {f : String → DaoProgram α} :
    (Dao.execute q >>= f).Makes P ↔ P (.execute q) ∧ ∀ tag, (f tag).Makes P :=
  makes_daoCall_bind

@[simp] theorem makes_transaction {qs : List Query} :
    (Dao.transaction qs).Makes P ↔ P (.transaction qs) := makes_daoCall

@[simp] theorem makes_gather_bind {q q' : Query} {f : Unit → DaoProgram α} :
    (Dao.gather q q' >>= f).Makes P ↔ P (.execute q) ∧ P (.execute q') ∧ (f ()).Makes P := by
  constructor
  · intro h
    have hsecond := h.2 (.ok "")
    exact ⟨h.1, hsecond.1, hsecond.2 (.ok "")⟩
  · intro h
    refine ⟨h.1, fun r => ⟨h.2.1, fun r' => ?_⟩⟩
    cases r with
    | error e => trivial
    | ok tag =>
      cases r' with
      | error e => trivial
      | ok tag' => exact h.2.2

@[simp] theorem makes_idOf_bind {record : Option Row} {f : String → DaoProgram α} :
    (idOf record >>= f).Makes P ↔
      ∀ id, record.bind (·.column "id") = some (.text id) → (f id).Makes P := by
  unfold idOf
  cases h : record.bind (·.column "id") with
  | none => simp
  | some a => cases a <;> simp

@[simp] theorem makes_ite {c : Prop} [Decidable c] {p q : DaoProgram α} :
    (if c then p else q).Makes P ↔ (c → p.Makes P) ∧ (¬ c → q.Makes P) := by
  by_cases hc : c <;> simp [hc]

@[simp] theorem makes_void {p : DaoProgram α} : p.void.Makes P ↔ p.Makes P :=
  ⟨fun h => h.of_bind, fun h => h.bind (fun _ => trivial)⟩

end calls

/-! ## Writes that are handed to a reading helper -/

/-- Only writes of the tables in `allowed` are handed to a reading helper. -/
def Routed (allowed : Table → Prop) : HelperCall → Prop
  | .fetch q _ => q.isWrite → allowed q.table
  | .fetchval q => q.isWrite → allowed q.table
  | _ => True

/-- The table of the write that the method hands to a reading helper. -/
def UserDAO.Method.misroutes : UserDAO.Method → Option Table
  | .deleteUsers userIds => if userIds = [] then none else some .users
  | .revokeUserSession .. => some .userSessions
  | .revokeAllUserSessions _ => some .userSessions
  | _ => none

def RoleDAO.Method.misroutes : RoleDAO.Method → Option Table
  | .deleteRoles roleIds => if roleIds = [] then none else some .roles
  | _ => none

def DeadLetterTaskDAO.Method.misroutes : DeadLetterTaskDAO.Method → Option Table
  | .fetchAndDeleteTasks .. => some .deadLetterTasks
  | _ => none

def PeriodicTaskDAO.Method.misroutes : PeriodicTaskDAO.Method → Option Table
  | .deleteTasks taskIds => if taskIds = [] then none else some .periodicTasks
  | .createTask _ => some .periodicTasks
  | .updateTask .. => some .periodicTasks
  | .deleteTask _ => some .periodicTasks
  | _ => none

def VersionDAO.Method.misroutes : VersionDAO.Method → Option Table
  | .deleteVersions platforms => if platforms = [] then none else some .appVersions
  | _ => none

def ApiKeyDAO.Method.misroutes : ApiKeyDAO.Method → Option Table
  | .deleteApiKeys keyIds => if keyIds = [] then none else some .apiKeys
  | _ => none

def WebhookDAO.Method.misroutes : WebhookDAO.Method → Option Table
  | .deleteEndpoints endpointIds => if endpointIds = [] then none else some .webhookEndpoints
  | _ => none

def DaoMethod.misroutes : DaoMethod → Option Table
  | .user m => m.misroutes
  | .role m => m.misroutes
  | .deadLetterTask m => m.misroutes
  | .periodicTask m => m.misroutes
  | .version m => m.misroutes
  | .apiKey m => m.misroutes
  | .webhook m => m.misroutes

section routed
variable {allowed : Table → Prop}

theorem UserDAO.Method.routed_iff {m : UserDAO.Method} : m.program.Makes (Routed allowed) ↔
    ∀ t, m.misroutes = some t → allowed t := by
  cases m with
  | getAllPaginated limit skip search =>
    simp only [Method.program, UserDAO.getAllPaginated]
    cases searchPattern search <;> simp [-String.reduceAppend, misroutes, Routed, Query.isWrite]
  | countUsers search =>
    simp only [Method.program, UserDAO.countUsers]
    cases searchPattern search <;> simp [-String.reduceAppend, misroutes, Routed, Query.isWrite]
  | getUserSessions userId limit cursor =>
    cases cursor <;>
      simp [-String.reduceAppend, Method.program, UserDAO.getUserSessions, misroutes, Routed, Query.isWrite]
  | _ =>
    simp [-String.reduceAppend, Method.program, UserDAO.deleteUsers, UserDAO.getByIds, UserDAO.getByGoogleSub,
      UserDAO.createUserOauth, UserDAO.getByUsername, UserDAO.getById, UserDAO.getByEmail,
      UserDAO.addIdentity, UserDAO.createUser, UserDAO.upsertUserSession, UserDAO.updateUser,
      UserDAO.updatePassword, UserDAO.revokeUserSession, UserDAO.revokeAllUserSessions,
      UserDAO.assignRoles, UserDAO.getTwoFactor, UserDAO.upsertTwoFactor,
      UserDAO.disableTwoFactor, UserDAO.updateTwoFactorBackupCodes, getUserWithRoles,
      misroutes, Routed, Query.isWrite]

theorem RoleDAO.Method.routed_iff {m : RoleDAO.Method} : m.program.Makes (Routed allowed) ↔
    ∀ t, m.misroutes = some t → allowed t := by
  cases m with
  | getAllRoles limit cursor =>
    cases cursor <;>
      simp [-String.reduceAppend, Method.program, RoleDAO.getAllRoles, misroutes, Routed, Query.isWrite]
  | getRolesPaginated limit skip search =>
    simp only [Method.program, RoleDAO.getRolesPaginated]
    cases searchPattern search <;> simp [-String.reduceAppend, misroutes, Routed, Query.isWrite]
  | countRoles search =>
    simp only [Method.program, RoleDAO.countRoles]
    cases searchPattern search <;> simp [-String.reduceAppend, misroutes, Routed, Query.isWrite]
  | getAllPermissions limit cursor =>
    cases cursor <;>
      simp [-String.reduceAppend, Method.program, RoleDAO.getAllPermissions, misroutes, Routed, Query.isWrite]
  | createRole roleCreate =>
    simp only [Method.program, RoleDAO.createRole, RoleDAO.getRoleById, makes_void,
      makes_write_bind, makes_idOf_bind, makes_ite, makes_execute_bind, makes_fetchRow_bind]
    refine ⟨fun _ => nofun, fun _ => ⟨trivial, fun record id _ => ?_⟩⟩
    refine ⟨fun _ => ⟨trivial, fun _ => ⟨nofun, fun rows => ?_⟩⟩, fun _ => ⟨nofun, fun rows => ?_⟩⟩
    · cases rows.head? <;> trivial
    · cases rows.head? <;> trivial
  | updateRole roleId roleUpdate =>
    cases h : roleUpdate.permissionIds with
    | none =>
      simp only [Method.program, RoleDAO.updateRole, makes_void, makes_ite, h]
      simp [-String.reduceAppend, RoleDAO.getRoleById, misroutes, Routed, Query.isWrite]
    | some permissionIds =>
      simp only [Method.program, RoleDAO.updateRole, makes_void, makes_ite, h]
      simp [-String.reduceAppend, RoleDAO.getRoleById, misroutes, Routed, Query.isWrite]
  | _ =>
    simp [-String.reduceAppend, Method.program, RoleDAO.deleteRoles, RoleDAO.getRoleById, RoleDAO.getByIds,
      RoleDAO.getRoleByName, RoleDAO.deleteRole, misroutes, Routed, Query.isWrite]

theorem DeadLetterTaskDAO.Method.routed_iff {m : DeadLetterTaskDAO.Method} :
    m.program.Makes (Routed allowed) ↔ ∀ t, m.misroutes = some t → allowed t := by
  cases m with
  | deleteTasks taskIds taskName =>
    simp only [Method.program, DeadLetterTaskDAO.deleteTasks]
    cases nonEmpty taskName <;> simp [-String.reduceAppend, misroutes, Routed]
  | fetchAndDeleteTasks taskIds taskName =>
    simp only [Method.program, DeadLetterTaskDAO.fetchAndDeleteTasks]
    cases nonEmpty taskName <;> by_cases hids : taskIds = [] <;>
      simp [-String.reduceAppend, hids, misroutes, Routed, Query.isWrite]
  | _ =>
    simp [-String.reduceAppend, Method.program, DeadLetterTaskDAO.listTasks, DeadLetterTaskDAO.countTasks,
      DeadLetterTaskDAO.getTaskById, DeadLetterTaskDAO.updateTaskPayload,
      DeadLetterTaskDAO.deleteOldTasks, DeadLetterTaskDAO.getStatistics, misroutes,
      Routed, Query.isWrite]

theorem PeriodicTaskDAO.Method.routed_iff {m : PeriodicTaskDAO.Method} :
    m.program.Makes (Routed allowed) ↔ ∀ t, m.misroutes = some t → allowed t := by
  cases m with
  | listTasksPaginated limit skip search =>
    simp only [Method.program, PeriodicTaskDAO.listTasksPaginated]
    cases searchPattern search <;> simp [-String.reduceAppend, misroutes, Routed, Query.isWrite]
  | countTasks search =>
    simp only [Method.program, PeriodicTaskDAO.countTasks]
    cases searchPattern search <;> simp [-String.reduceAppend, misroutes, Routed, Query.isWrite]
  | createTask taskIn =>
    simp only [Method.program, PeriodicTaskDAO.createTask, makes_void, makes_fetchRow_bind]
    rw [and_iff_left (fun rows => by cases rows.head? <;> trivial)]
    simp [-String.reduceAppend, misroutes, Routed, Query.isWrite]
  | _ =>
    simp [-String.reduceAppend, Method.program, PeriodicTaskDAO.listTasks, PeriodicTaskDAO.getByIds,
      PeriodicTaskDAO.deleteTasks, PeriodicTaskDAO.getTaskById, PeriodicTaskDAO.getTaskByName,
      PeriodicTaskDAO.updateTask, PeriodicTaskDAO.deleteTask, misroutes, Routed,
      Query.isWrite]

theorem VersionDAO.Method.routed_iff {m : VersionDAO.Method} :
    m.program.Makes (Routed allowed) ↔ ∀ t, m.misroutes = some t → allowed t := by
  cases m with
  | listVersions limit skip search =>
    simp only [Method.program, VersionDAO.listVersions]
    cases VersionDAO.lowerPattern search <;> simp [-String.reduceAppend, misroutes, Routed, Query.isWrite]
  | countVersions search =>
    simp only [Method.program, VersionDAO.countVersions]
    cases VersionDAO.lowerPattern search <;> simp [-String.reduceAppend, misroutes, Routed, Query.isWrite]
  | _ =>
    simp [-String.reduceAppend, Method.program, VersionDAO.getVersionInfo, VersionDAO.getAllVersions,
      VersionDAO.getByPlatforms, VersionDAO.createVersion, VersionDAO.deleteVersions,
      VersionDAO.updateVersionInfo, misroutes, Routed, Query.isWrite]

theorem ApiKeyDAO.Method.routed_iff {m : ApiKeyDAO.Method} :
    m.program.Makes (Routed allowed) ↔ ∀ t, m.misroutes = some t → allowed t := by
  cases m with
  | listApiKeys limit cursor =>
    simp only [Method.program, ApiKeyDAO.listApiKeys]
    cases nonEmpty cursor <;> simp [-String.reduceAppend, misroutes, Routed, Query.isWrite]
  | _ =>
    simp [-String.reduceAppend, Method.program, ApiKeyDAO.createApiKey, ApiKeyDAO.getApiKeyByHash,
      ApiKeyDAO.getApiKeyById, ApiKeyDAO.updateApiKey, ApiKeyDAO.rotateApiKey,
      ApiKeyDAO.updateLastUsed, ApiKeyDAO.deleteApiKey, ApiKeyDAO.deleteApiKeys, misroutes,
      Routed, Query.isWrite]

theorem WebhookDAO.Method.routed_iff {m : WebhookDAO.Method} :
    m.program.Makes (Routed allowed) ↔ ∀ t, m.misroutes = some t → allowed t := by
  cases m with
  | _ =>
    simp [-String.reduceAppend, Method.program, WebhookDAO.createEndpoint, WebhookDAO.getEndpointById,
      WebhookDAO.listEndpoints, WebhookDAO.listActiveEndpointsForEvent,
      WebhookDAO.updateEndpoint, WebhookDAO.deleteEndpoint, WebhookDAO.deleteEndpoints,
      misroutes, Routed, Query.isWrite]

/-- A method hands no writes to a reading helper but those it misroutes. -/
theorem DaoMethod.routed_iff {m : DaoMethod} :
    m.program.Makes (Routed allowed) ↔ ∀ t, m.misroutes = some t → allowed t := by
  cases m with
  | user m => exact m.routed_iff
  | role m => exact m.routed_iff
  | deadLetterTask m => exact m.routed_iff
  | periodicTask m => exact m.routed_iff
  | version m => exact m.routed_iff
  | apiKey m => exact m.routed_iff
  | webhook m => exact m.routed_iff

end routed
end FastapiTemplate.Sql
