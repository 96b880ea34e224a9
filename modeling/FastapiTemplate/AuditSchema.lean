import FastapiTemplate.DatabaseServer
import FastapiTemplate.MigrationWalks

/-!
# The audited schema under migrations

What the migration files do to the audited tables, to `audit_logs`, to the function
`log_audit_trail` and to its triggers, and what the trigger then does when a row changes. Tables
without the trigger, indexes, types and constraints other than `NOT NULL` are left out, and so is
the data that scripts insert and delete: no script changes a row of a table that has the trigger.
-/

namespace FastapiTemplate.Migrations

open Sql (Arg Change Row Table nullIf)

/-! ## Schemas -/

structure Column where
  name : String
  notNull : Bool
  hasDefault : Bool
  deriving DecidableEq

/-- The body of `log_audit_trail`: the columns that its `INSERT INTO audit_logs` names. -/
structure TriggerFunction where
  columns : List String
  deriving DecidableEq

structure Schema where
  tables : List (String × List Column)
  logAuditTrail : Option TriggerFunction
  /-- the tables that have the trigger -/
  triggers : List String
  deriving DecidableEq

def Schema.empty : Schema := ⟨[], none, []⟩

def Schema.columns? (s : Schema) (table : String) : Option (List Column) := s.tables.lookup table

inductive Ddl
  /-- `CREATE TABLE IF NOT EXISTS` -/
  | createTable (table : String) (columns : List Column)
  /-- `DROP TABLE IF EXISTS` -/
  | dropTable (table : String)
  /-- `ALTER TABLE … ADD COLUMN IF NOT EXISTS` -/
  | addColumn (table : String) (column : Column)
  /-- `ALTER TABLE … DROP COLUMN IF EXISTS` -/
  | dropColumn (table column : String)
  /-- `CREATE OR REPLACE FUNCTION log_audit_trail()` -/
  | createFunction (f : TriggerFunction)
  /-- `DROP FUNCTION IF EXISTS log_audit_trail()` -/
  | dropFunction
  /-- `DROP TRIGGER IF EXISTS`, then `CREATE TRIGGER` -/
  | createTrigger (table : String)
  /-- `DROP TRIGGER IF EXISTS` -/
  | dropTrigger (table : String)
  deriving DecidableEq

def Schema.alter (s : Schema) (table : String) (f : List Column → List Column) : Option Schema :=
  if (s.columns? table).isSome then
    some { s with tables := s.tables.map (fun t => if t.1 = table then (t.1, f t.2) else t) }
  else none

def Ddl.run (s : Schema) : Ddl → Option Schema
  | .createTable table columns =>
    some (if (s.columns? table).isSome then s else { s with tables := s.tables ++ [(table, columns)] })
  | .dropTable table => some { s with
      tables := s.tables.filter (·.1 ≠ table)
      triggers := s.triggers.filter (· ≠ table) }
  | .addColumn table column => s.alter table (fun columns =>
      if column.name ∈ columns.map (·.name) then columns else columns ++ [column])
  | .dropColumn table column => s.alter table (fun columns => columns.filter (·.name ≠ column))
  | .createFunction f => some { s with logAuditTrail := some f }
  | .dropFunction => if s.triggers = [] then some { s with logAuditTrail := none } else none
  | .createTrigger table =>
    if (s.columns? table).isSome ∧ s.logAuditTrail.isSome then
      some { s with triggers := s.triggers.filter (· ≠ table) ++ [table] }
    else none
  | .dropTrigger table => some { s with triggers := s.triggers.filter (· ≠ table) }

/-! ## The files -/

/-- `NOT NULL` without a default. -/
def required (name : String) : Column := ⟨name, true, false⟩

def defaulted (name : String) : Column := ⟨name, true, true⟩

def optional (name : String) : Column := ⟨name, false, true⟩

def users : List Column :=
  [defaulted "id", required "username", required "email", optional "hashed_password",
    optional "full_name", optional "is_active", optional "profile_picture_url",
    defaulted "created_at", defaulted "updated_at"]

def roles : List Column :=
  [defaulted "id", required "name", optional "description", defaulted "created_at",
    defaulted "updated_at"]

def appVersions : List Column :=
  [required "platform", defaulted "min_build", defaulted "latest_build", defaulted "force_update",
    optional "update_message", optional "update_url", optional "created_at", optional "updated_at"]

def periodicTasks : List Column :=
  [defaulted "id", required "name", required "task", defaulted "schedule_type",
    optional "cron_minute", optional "cron_hour", optional "cron_day_of_week",
    optional "cron_day_of_month", optional "cron_month_of_year", optional "interval_every",
    optional "interval_period", optional "args", optional "kwargs", optional "enabled",
    optional "last_run_at", optional "total_run_count", optional "created_at", optional "updated_at"]

def deadLetterTasks : List Column :=
  [defaulted "id", required "task_id", required "task_name", optional "queue", optional "args",
    optional "kwargs", optional "headers", optional "exception_type", optional "exception_message",
    optional "traceback", optional "retry_count", optional "failed_at", optional "created_at",
    optional "updated_at"]

def auditLogs : List Column :=
  [defaulted "id", required "actor_id", required "action", required "resource",
    required "resource_id", required "details", optional "ip_address", defaulted "created_at"]

def logAuditTrail006 : TriggerFunction :=
  ⟨["actor_id", "action", "resource", "resource_id", "details", "ip_address"]⟩

def logAuditTrail009 : TriggerFunction :=
  ⟨["actor_id", "impersonator_id", "action", "resource", "resource_id", "details", "ip_address"]⟩

/-- A migration file: its statements on the audited schema, up and down. -/
structure MigrationFile where
  version : String
  up : List Ddl
  down : List Ddl
  deriving DecidableEq

def repositoryFiles : List MigrationFile :=
  [⟨"001_users.sql", [.createTable "users" users], [.dropTable "users"]⟩,
    ⟨"002_permissions.sql",
      [.createTable "roles" roles, .addColumn "users" (optional "token_version")],
      [.dropColumn "users" "token_version", .dropTable "roles"]⟩,
    ⟨"003_app_versions.sql", [.createTable "app_versions" appVersions], [.dropTable "app_versions"]⟩,
    ⟨"004_periodic_tasks.sql", [.createTable "periodic_tasks" periodicTasks],
      [.dropTable "periodic_tasks"]⟩,
    ⟨"005_dead_letter_tasks.sql", [.createTable "dead_letter_tasks" deadLetterTasks],
      [.dropTable "dead_letter_tasks"]⟩,
    ⟨"006_audit_logs.sql",
      [.createTable "audit_logs" auditLogs, .createFunction logAuditTrail006,
        .createTrigger "users", .createTrigger "roles", .createTrigger "app_versions",
        .createTrigger "periodic_tasks", .createTrigger "dead_letter_tasks"],
      [.dropTrigger "users", .dropTrigger "roles", .dropTrigger "app_versions",
        .dropTrigger "periodic_tasks", .dropTrigger "dead_letter_tasks", .dropFunction,
        .dropTable "audit_logs"]⟩,
    ⟨"007_two_factor.sql", [], []⟩,
    ⟨"008_api_keys_and_webhooks.sql", [], []⟩,
    ⟨"009_user_impersonation.sql",
      [.addColumn "audit_logs" ⟨"impersonator_id", false, false⟩, .createFunction logAuditTrail009],
      [.dropColumn "audit_logs" "impersonator_id"]⟩,
    ⟨"010_system_config.sql", [], []⟩,
    ⟨"011_user_devices.sql", [], []⟩]

def MigrationFile.script (file : MigrationFile) (direction : String) : List Ddl :=
  if direction = "up" then file.up else if direction = "down" then file.down else []

def runScript (s : Schema) (script : List Ddl) : Option Schema := script.foldlM Ddl.run s

def runEntry (s : Schema) (entry : LogEntry) : Option Schema :=
  (repositoryFiles.find? (·.version = entry.version)).bind
    (fun file => runScript s (file.script entry.direction))

def schemaAfter (log : List LogEntry) : Option Schema := log.foldlM runEntry .empty

/-- The migrations directory, whatever the files say beside these statements. -/
def repository (content : String → String) : MigrationsDir where
  files := repositoryFiles.map (fun file => (file.version, content file.version))
  namesApart := by
    rw [List.map_map]
    change (repositoryFiles.map (·.version)).Nodup
    decide

/-! ## The trigger -/

inductive TriggerError
  | undefinedColumn (name : String)
  | undefinedTable
  | undefinedFunction
  /-- `record "new" has no field "id"` -/
  | undefinedField (name : String)
  | invalidUuid (text : String)
  | notNullViolation (column : String)
  deriving DecidableEq

def isHexDigit (c : Char) : Bool :=
  c.isDigit || ('a' ≤ c && c ≤ 'f') || ('A' ≤ c && c ≤ 'F')

/-- The sixteen bytes of a UUID, with a hyphen after some of the even ones. -/
def readUuid : ℕ → List Char → Bool
  | 0, cs => cs = []
  | n + 1, a :: b :: cs =>
    isHexDigit a && isHexDigit b &&
      (match cs with
        | '-' :: rest => if n % 2 = 0 ∧ n ≠ 0 then readUuid n rest else readUuid n cs
        | _ => readUuid n cs)
  | _ + 1, _ => false

def isUuid (text : String) : Bool :=
  match text.toList with
  | '\x7b' :: cs => cs.getLast? = some '\x7d' && readUuid 16 cs.dropLast
  | cs => readUuid 16 cs

/-- `NULLIF(current_setting(name, true), '')::UUID` -/
def castUuid (setting : String) : Except TriggerError (Option String) :=
  match nullIf setting with
  | none => .ok none
  | some text => if isUuid text then .ok (some text) else .error (.invalidUuid text)

inductive AuditValue
  | null
  | text (s : String)
  | details (images : Option Row × Option Row)

def AuditValue.ofOption : Option String → AuditValue
  | none => .null
  | some s => .text s

/-- `OLD.platform` or `OLD.id` of a deletion, `NEW.platform` or `NEW.id` otherwise. -/
def resourceField (c : Change) : Except TriggerError Arg :=
  let row := if c.op = .delete then c.old else c.new
  let column := if c.table = .appVersions then "platform" else "id"
  match row.bind (·.column column) with
  | some value => .ok value
  | none => .error (.undefinedField column)

def auditValue (log : Sql.AuditLog) (column : String) : AuditValue :=
  if column = "actor_id" then .text log.actorId
  else if column = "impersonator_id" then .ofOption log.impersonatorId
  else if column = "action" then .text log.action
  else if column = "resource" then .text log.resource
  else if column = "resource_id" then .text log.resourceId
  else if column = "details" then .details log.details
  else .ofOption log.ipAddress

def TriggerFunction.call (f : TriggerFunction) (settings : Sql.Settings) (c : Change) :
    Except TriggerError (List (String × AuditValue)) := do
  let _ ← castUuid settings.actorId
  if "impersonator_id" ∈ f.columns then
    let _ ← castUuid settings.impersonatorId
  let _ ← resourceField c
  let log := Sql.logAuditTrail settings c
  pure (f.columns.map (fun column => (column, auditValue log column)))

def leftEmpty (values : List (String × AuditValue)) (column : Column) : Bool :=
  column.notNull &&
    match values.lookup column.name with
    | none => !column.hasDefault
    | some .null => true
    | some _ => false

def insertInto (columns : List Column) (values : List (String × AuditValue)) :
    Except TriggerError Unit :=
  match values.find? (fun value => value.1 ∉ columns.map (·.name)) with
  | some (name, _) => .error (.undefinedColumn name)
  | none =>
    match columns.find? (leftEmpty values) with
    | some column => .error (.notNullViolation column.name)
    | none => .ok ()

def Schema.fire (s : Schema) (settings : Sql.Settings) (c : Change) : Except TriggerError Unit :=
  if c.table.name ∈ s.triggers then
    match s.logAuditTrail with
    | none => .error .undefinedFunction
    | some f => do
      let values ← f.call settings c
      match s.columns? "audit_logs" with
      | none => .error .undefinedTable
      | some columns => insertInto columns values
  else .ok ()

end FastapiTemplate.Migrations
