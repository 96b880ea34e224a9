import FastapiTemplate.LogQueries

/-!
# The log views of the administration

`_build_filter_query` and `count` of `WebhookLogAdminView` and `AuditLogAdminView`. The query for a
page and the count query cut out of its text ask for the same conditions, each with the value that
was appended for it.
-/

namespace FastapiTemplate.AdminFilters

open SelectTexts

abbrev FilterGroup := List FilterItem

def rulesOf (filters : Option FilterGroup) : FilterGroup := filters.getD []

structure DateBounds where
  fromDate : Option DateTime := none
  toDate : Option DateTime := none

/-- Later rules replace earlier ones. -/
def DateBounds.update (b : DateBounds) (range : Option DateTime × Option DateTime) : DateBounds :=
  ⟨range.1.or b.fromDate, range.2.or b.toDate⟩

/-- Without a bound the window ends now, and starts 30 days before its end. -/
def DateBounds.window (b : DateBounds) (now : DateTime) : Except PyError (DateTime × DateTime) :=
  let toDate := b.toDate.getD now
  match b.fromDate with
  | some fromDate => .ok (fromDate, toDate)
  | none => (toDate.minusDays 30).map (fun fromDate => (fromDate, toDate))

def dateParam (d : DateTime) : Param := .value (.datetime d)

/-! ## Webhook logs -/

namespace WebhookLogAdminView

def dateRule (lib : Library) (b : DateBounds) : FilterItem → Except PyError DateBounds
  | .group => .ok b
  | .rule rule =>
    if rule.field = "created_at" then (extractDateRange lib rule).map b.update else .ok b

def extractDateBounds (lib : Library) (now : DateTime) (filters : Option FilterGroup) :
    Except PyError (DateTime × DateTime) := do
  let bounds ← (rulesOf filters).foldlM (dateRule lib) {}
  bounds.window now

def equalFields : List String := ["direction", "status", "source", "event_name"]

def addRule (c : Parts Param) : FilterItem → Parts Param
  | .group => c
  | .rule rule =>
    if rule.field ∈ equalFields ∧ rule.value.truthy = true then
      c.push (.value rule.value) (fun p => rule.field ++ " = " ++ p)
    else c

def addDates (c : Parts Param) (dates : DateTime × DateTime) : Parts Param :=
  let params := c.params ++ [dateParam dates.1, dateParam dates.2]
  ⟨c.parts ++ ["created_at >= $" ++ toString (params.length - 1) ++ " AND created_at <= $" ++
    toString params.length], params⟩

def addSearch (c : Parts Param) (q : Option String) : Parts Param :=
  c.pushIf ((searchText q).map pattern) (fun p => "(event_name ILIKE " ++ p ++ " OR source ILIKE " ++
    p ++ " OR url ILIKE " ++ p ++ " OR error_message ILIKE " ++ p ++ ")")

def conditions (filters : Option FilterGroup) (dates : DateTime × DateTime) (q : Option String) :
    Parts Param :=
  addSearch (addDates ((rulesOf filters).foldl addRule ⟨["1=1"], []⟩) dates) q

def buildFilterQuery (lib : Library) (now : DateTime) (filters : Option FilterGroup)
    (limit skip : ℤ) (q : Option String) : Except PyError Query := do
  let dates ← extractDateBounds lib now filters
  pure (pageQuery "SELECT * FROM webhook_logs WHERE" "ORDER BY created_at DESC LIMIT"
    (conditions filters dates q) limit skip)

def count {ρ : Type} (db : LogDatabase ρ) (lib : Library) (now : DateTime) (q : Option String)
    (filters : Option FilterGroup) : ℤ :=
  AdminFilters.count db "webhook_logs" "SELECT COUNT(*) FROM webhook_logs WHERE"
    (buildFilterQuery lib now filters 0 0 q) q (rulesOf filters)

end WebhookLogAdminView

/-! ## Audit logs -/

namespace AuditLogAdminView

structure RuleValues where
  dates : DateBounds := {}
  actorId : Option ℕ := none
  actorName : Option String := none
  resource : Option String := none
  action : Option String := none

structure AuditLogQueryFilters where
  dates : DateTime × DateTime
  actorId : Option ℕ
  actorName : Option String
  resource : Option String
  action : Option String

def extractRule (lib : Library) (s : RuleValues) : FilterItem → Except PyError RuleValues
  | .group => .ok s
  | .rule rule =>
    if rule.field = "created_at" then
      (extractDateRange lib rule).map (fun range => { s with dates := s.dates.update range })
    else if rule.field = "actor_id" ∧ rule.value.truthy = true then
      (parseUuid lib (rule.value.str lib)).map (fun id => { s with actorId := some id })
    else if rule.field = "actor_name" ∧ rule.value.truthy = true then
      .ok { s with actorName := some (rule.value.str lib) }
    else if rule.field = "resource" ∧ rule.value.truthy = true then
      .ok { s with resource := some (rule.value.str lib) }
    else if rule.field = "action" ∧ rule.value.truthy = true then
      .ok { s with action := some (rule.value.str lib) }
    else .ok s

def extractQueryFilters (lib : Library) (now : DateTime) (filters : Option FilterGroup) :
    Except PyError AuditLogQueryFilters := do
  let s ← (rulesOf filters).foldlM (extractRule lib) {}
  let dates ← s.dates.window now
  pure ⟨dates, s.actorId, s.actorName, s.resource, s.action⟩

def searchColumns : List String :=
  ["u.full_name", "u.username", "u.email", "a.action", "a.resource", "a.resource_id", "a.ip_address"]

def buildSearchClause (lib : Library) (params : List Param) (searchStr : String) :
    String × List Param :=
  let params := params ++ [pattern searchStr]
  let sIdx := toString params.length
  let searchConds := searchColumns.map (fun column => column ++ " ILIKE $" ++ sIdx)
  match lib.uuid searchStr with
  | some id =>
    let params := params ++ [.uuid id]
    let uIdx := toString params.length
    ("(" ++ " OR ".intercalate (searchConds ++
      ["a.id = $" ++ uIdx ++ "::uuid", "a.actor_id = $" ++ uIdx ++ "::uuid"]) ++ ")", params)
  | none => ("(" ++ " OR ".intercalate searchConds ++ ")", params)

def addSearch (lib : Library) (c : Parts Param) (q : Option String) : Parts Param :=
  match searchText q with
  | none => c
  | some searchStr =>
    let clause := buildSearchClause lib c.params searchStr
    ⟨c.parts ++ [clause.1], clause.2⟩

def filterParts (f : AuditLogQueryFilters) : Parts Param :=
  ((((⟨["a.created_at >= $1", "a.created_at <= $2"],
    [dateParam f.dates.1, dateParam f.dates.2]⟩ : Parts Param).pushIf (f.actorId.map .uuid)
      (fun p => "a.actor_id = " ++ p ++ "::uuid")).pushIf
        ((Sql.nonEmpty f.actorName).map pattern)
      (fun p => "(u.full_name ILIKE " ++ p ++ " OR u.username ILIKE " ++ p ++ ")")).pushIf
        ((Sql.nonEmpty f.resource).map pattern)
      (fun p => "a.resource ILIKE " ++ p)).pushIf
        ((Sql.nonEmpty f.action).map pattern)
      (fun p => "a.action ILIKE " ++ p)

/-- The lines of a text, each after a line break and a number of spaces. -/
def indented : List (ℕ × String) → String
  | [] => ""
  | line :: lines =>
    "\n" ++ String.ofList (List.replicate line.1 ' ') ++ line.2 ++ indented lines

def headLines : List (ℕ × String) :=
  [(16, "SELECT"), (20, "a.id,"), (20, "a.actor_id,"),
    (20, "COALESCE(NULLIF(u.full_name, ''), u.username, 'Unknown') AS actor_name,"),
    (20, "u.username AS actor_username,"), (20, "u.email AS actor_email,"), (20, "a.action,"),
    (20, "a.resource,"), (20, "a.resource_id,"), (20, "a.details,"), (20, "a.ip_address,"),
    (20, "a.created_at"), (16, "FROM audit_logs a"), (16, "LEFT JOIN users u ON a.actor_id = u.id")]

def pageHead : String := indented (headLines ++ [(16, "WHERE"), (16, "")])

def buildFilterQuery (lib : Library) (now : DateTime) (filters : Option FilterGroup)
    (limit skip : ℤ) (q : Option String) : Except PyError Query := do
  let f ← extractQueryFilters lib now filters
  pure (pageQuery pageHead "ORDER BY a.created_at DESC LIMIT" (addSearch lib (filterParts f) q) limit
    skip)

def count {ρ : Type} (db : LogDatabase ρ) (lib : Library) (now : DateTime) (q : Option String)
    (filters : Option FilterGroup) : ℤ :=
  AdminFilters.count db "audit_logs"
    "SELECT COUNT(*) FROM audit_logs a LEFT JOIN users u ON a.actor_id = u.id WHERE"
    (buildFilterQuery lib now filters 0 0 q) q (rulesOf filters)

end AuditLogAdminView

end FastapiTemplate.AdminFilters
