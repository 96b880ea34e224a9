import FastapiTemplate.MethodCalls

/-!
# The statements of the remaining data access objects

The methods of `DeviceDAO`, `SystemConfigDAO` and `WebhookLogDAO`, and with them
`DaoOperation`, a call of any method of any data access object.
-/

namespace FastapiTemplate.Sql

/-! ## Devices -/

namespace DeviceDAO

def registerDevice (userId fcmToken platform : String) (deviceName : Option String) :
    DaoProgram (Option Row) :=
  Dao.write ⟨.insert, .userDevices, "( user_id, fcm_token, platform, device_name, is_active, " ++
    "last_used_at, updated_at ) VALUES ($1, $2, $3, $4, TRUE, CURRENT_TIMESTAMP, " ++
    "CURRENT_TIMESTAMP) ON CONFLICT (fcm_token) DO UPDATE SET user_id = EXCLUDED.user_id, " ++
    "platform = EXCLUDED.platform, " ++
    "device_name = COALESCE(EXCLUDED.device_name, user_devices.device_name), is_active = TRUE, " ++
    "last_used_at = CURRENT_TIMESTAMP, updated_at = CURRENT_TIMESTAMP RETURNING *;",
    [.text userId, .text fcmToken, .text platform, Arg.ofOption (deviceName.map .text)]⟩

def unregisterDevice (userId fcmToken : String) : DaoProgram Unit := do
  let _ ← Dao.execute ⟨.update, .userDevices, "SET is_active = FALSE, " ++
    "updated_at = CURRENT_TIMESTAMP WHERE user_id = $1 AND fcm_token = $2;",
    [.text userId, .text fcmToken]⟩

def getActiveDevicesByUser (userId : String) : DaoProgram (List Row) :=
  Dao.fetch ⟨.select, .userDevices, "* FROM user_devices WHERE user_id = $1 " ++
    "AND is_active = TRUE ORDER BY last_used_at DESC;", [.text userId]⟩

def deactivateTokens (tokens : List String) : DaoProgram Unit := do
  if tokens = [] then pure ()
  else
    let _ ← Dao.execute ⟨.update, .userDevices, "SET is_active = FALSE, " ++
      "updated_at = CURRENT_TIMESTAMP WHERE fcm_token = ANY($1);", [.texts tokens]⟩

def getAllActiveTokens : DaoProgram (List (Option Arg)) := do
  let records ← Dao.fetch ⟨.select, .userDevices,
    "fcm_token FROM user_devices WHERE is_active = TRUE;", []⟩
  pure (records.map (·.column "fcm_token"))

inductive Method
  | registerDevice (userId fcmToken platform : String) (deviceName : Option String)
  | unregisterDevice (userId fcmToken : String)
  | getActiveDevicesByUser (userId : String)
  | deactivateTokens (tokens : List String)
  | getAllActiveTokens
  deriving DecidableEq, Repr

def Method.program : Method → DaoProgram Unit
  | .registerDevice userId fcmToken platform deviceName =>
    (DeviceDAO.registerDevice userId fcmToken platform deviceName).void
  | .unregisterDevice userId fcmToken => (DeviceDAO.unregisterDevice userId fcmToken).void
  | .getActiveDevicesByUser userId => (DeviceDAO.getActiveDevicesByUser userId).void
  | .deactivateTokens tokens => (DeviceDAO.deactivateTokens tokens).void
  | .getAllActiveTokens => DeviceDAO.getAllActiveTokens.void

end DeviceDAO

/-! ## The system configuration -/

namespace SystemConfigDAO

def getConfig : DaoProgram (Option Row) := do
  match ← Dao.fetchRow ⟨.select, .systemConfigurations,
    "* FROM system_configurations WHERE id = 1;", []⟩ with
  | some res => pure (some res)
  | none => Dao.write ⟨.insert, .systemConfigurations,
      "(id) VALUES (1) ON CONFLICT (id) DO UPDATE SET id = 1 RETURNING *;", []⟩

def updateConfig (enforceMfa : Option Bool) (userId : Option String) : DaoProgram (Option Row) :=
  Dao.write ⟨.update, .systemConfigurations, "SET enforce_mfa = COALESCE($1, enforce_mfa), " ++
    "updated_at = CURRENT_TIMESTAMP, updated_by = COALESCE($2, updated_by) " ++
    "WHERE id = 1 RETURNING *;",
    [Arg.ofOption (enforceMfa.map .bool), Arg.ofOption (userId.map .text)]⟩

inductive Method
  | getConfig
  | updateConfig (enforceMfa : Option Bool) (userId : Option String)
  deriving DecidableEq, Repr

def Method.program : Method → DaoProgram Unit
  | .getConfig => SystemConfigDAO.getConfig.void
  | .updateConfig enforceMfa userId => (SystemConfigDAO.updateConfig enforceMfa userId).void

end SystemConfigDAO

/-! ## Webhook logs -/

namespace WebhookLogDAO

structure WebhookLogFilterParams where
  direction : Option String
  status : Option String
  source : Option String
  eventName : Option String
  endpointId : Option String
  fromDate : Option Arg
  toDate : Option Arg
  deriving DecidableEq, Repr

/-- The bound values are those of the log entry, in the order of the columns. -/
def createLog (logIn : List Arg) : DaoProgram (Option Row) :=
  Dao.write ⟨.insert, .webhookLogs, "( direction, endpoint_id, source, event_name, url, status, " ++
    "status_code, payload, request_headers, response_headers, response_body, execution_time_ms, " ++
    "error_message, ip_address ) VALUES ( $1, $2, $3, $4, $5, $6, $7, $8::jsonb, $9::jsonb, " ++
    "$10::jsonb, $11, $12, $13, $14 ) RETURNING *", logIn⟩

def getLogById (logId : String) (createdAt : Option Arg) : DaoProgram (Option Row) :=
  match createdAt with
  | some createdAt => Dao.fetchRow ⟨.select, .webhookLogs,
      "* FROM webhook_logs WHERE id = $1 AND created_at = $2", [.text logId, createdAt]⟩
  | none => Dao.fetchRow ⟨.select, .webhookLogs,
      "* FROM webhook_logs WHERE id = $1 ORDER BY created_at DESC LIMIT 1", [.text logId]⟩

def conditions (filters : Option WebhookLogFilterParams) : Clauses :=
  match filters with
  | none => ⟨["1=1"], []⟩
  | some filters =>
    let texts := ((((Clauses.mk ["1=1"] []).pushIf ((nonEmpty filters.direction).map .text)
      (fun p => "direction = " ++ p)).pushIf ((nonEmpty filters.status).map .text)
      (fun p => "status = " ++ p)).pushIf ((nonEmpty filters.source).map .text)
      (fun p => "source = " ++ p)).pushIf ((nonEmpty filters.eventName).map .text)
      (fun p => "event_name = " ++ p)
    ((texts.pushIf ((nonEmpty filters.endpointId).map .text)
      (fun p => "endpoint_id = " ++ p ++ "::uuid")).pushIf filters.fromDate
      (fun p => "created_at >= " ++ p)).pushIf filters.toDate (fun p => "created_at <= " ++ p)

def listLogs (limit : ℤ) (cursor : Option String) (filters : Option WebhookLogFilterParams) :
    DaoProgram (List Row) :=
  let clauses := (conditions filters).pushIf ((nonEmpty cursor).map .text)
    (fun p => "created_at < " ++ p ++ "::timestamptz")
  let last := (Clauses.mk [] clauses.params).push (.int limit) (fun p => p ++ ";")
  Dao.fetch ⟨.select, .webhookLogs, "* FROM webhook_logs WHERE " ++
    " AND ".intercalate clauses.parts ++ " ORDER BY created_at DESC LIMIT " ++
    "".intercalate last.parts, last.params⟩

inductive Method
  | createLog (logIn : List Arg)
  | getLogById (logId : String) (createdAt : Option Arg)
  | listLogs (limit : ℤ) (cursor : Option String) (filters : Option WebhookLogFilterParams)
  deriving DecidableEq, Repr

def Method.program : Method → DaoProgram Unit
  | .createLog logIn => (WebhookLogDAO.createLog logIn).void
  | .getLogById logId createdAt => (WebhookLogDAO.getLogById logId createdAt).void
  | .listLogs limit cursor filters => (WebhookLogDAO.listLogs limit cursor filters).void

end WebhookLogDAO

/-! ## All methods -/

inductive DaoOperation
  | dao (m : DaoMethod)
  | device (m : DeviceDAO.Method)
  | systemConfig (m : SystemConfigDAO.Method)
  | webhookLog (m : WebhookLogDAO.Method)
  deriving DecidableEq, Repr

def DaoOperation.program : DaoOperation → DaoProgram Unit
  | .dao m => m.program
  | .device m => m.program
  | .systemConfig m => m.program
  | .webhookLog m => m.program

/-- The three further objects misroute nothing. -/
def DaoOperation.misroutes : DaoOperation → Option Table
  | .dao m => m.misroutes
  | _ => none

section routed
variable {allowed : Table → Prop}

theorem DeviceDAO.Method.routed (m : DeviceDAO.Method) : m.program.Makes (Routed allowed) := by
  cases m <;>
    simp [-String.reduceAppend, Method.program, DeviceDAO.registerDevice,
      DeviceDAO.unregisterDevice, DeviceDAO.getActiveDevicesByUser, DeviceDAO.deactivateTokens,
      DeviceDAO.getAllActiveTokens, Routed, Query.isWrite]

theorem SystemConfigDAO.Method.routed (m : SystemConfigDAO.Method) :
    m.program.Makes (Routed allowed) := by
  cases m with
  | getConfig =>
    simp only [Method.program, SystemConfigDAO.getConfig, makes_void, makes_fetchRow_bind]
    refine ⟨Bool.noConfusion, fun rows => ?_⟩
    cases rows.head? with
    | some res => trivial
    | none => exact makes_write.mpr trivial
  | updateConfig enforceMfa userId => exact makes_void.mpr (makes_write.mpr trivial)

theorem WebhookLogDAO.Method.routed (m : WebhookLogDAO.Method) :
    m.program.Makes (Routed allowed) := by
  cases m with
  | createLog logIn => exact makes_void.mpr (makes_write.mpr trivial)
  | getLogById logId createdAt =>
    cases createdAt <;> exact makes_void.mpr (makes_fetchRow.mpr nofun)
  | listLogs limit cursor filters => exact makes_void.mpr (makes_fetch.mpr nofun)

theorem DaoOperation.routed {op : DaoOperation} (h : ∀ t, op.misroutes = some t → allowed t) :
    op.program.Makes (Routed allowed) := by
  cases op with
  | dao m => exact m.routed_iff.mpr h
  | device m => exact m.routed
  | systemConfig m => exact m.routed
  | webhookLog m => exact m.routed

end routed
end FastapiTemplate.Sql
