import Rulebook.Api.Order
import Rulebook.Api.Response
import Rulebook.Api.Route
/-!
# Handling requests

A request is answered without the engine, refused, or read as an order. A body that is not JSON is
refused first, then a request without a tenant or an engine, and only then what is invalid in it.
-/

namespace Rulebook

/-- What a request meets. -/
structure Site where
  /-- The name of the application. -/
  appName : String
  /-- Whether there is an engine. -/
  hasEngine : Bool
  /-- Whether the database answers. -/
  hasDatabase : Bool
  /-- What the clock shows. -/
  now : Moment
  /-- The identifiers for parts that come without one. -/
  ids : FreshIds
  /-- The identifier for a request that comes without one. -/
  requestId : String

/-- What a request comes to. -/
inductive Decision where
  /-- It is answered. -/
  | answer (a : ApiResponse)
  /-- It is refused. -/
  | refuse (x : Refusal)
  /-- It is an order. -/
  | order (o : Order)

/-- The most characters of the name of a tenant. -/
def tenantLength : Nat := 64

namespace ApiRequest

/-- The tenant that a request is for. -/
def tenant (r : ApiRequest) : Except Refusal String :=
  let name := Text.trim ((r.header? "x-tenant-id").getD "")
  if name.isEmpty then .error (.plain 400 "X-Tenant-ID header is required")
  else if tenantLength < name.length then .error (.plain 400 "X-Tenant-ID header is too long")
  else .ok name

/-- Refuses a request if there is no engine. -/
def meetEngine (site : Site) : Except Refusal Unit :=
  if site.hasEngine then .ok () else .error (.plain 503 "Automation engine is not ready")

/-- The tenant of a request that finds an engine. -/
def entry (r : ApiRequest) (site : Site) : Except Refusal String := do
  let tenantId ← r.tenant
  meetEngine site
  .ok tenantId

/-- Takes what is valid. -/
def demand {α : Type} (c : Checked α) : Except Refusal α := c.toExcept.mapError .invalid

/-- The body of a request, for what takes one. -/
def readBody (r : ApiRequest) : Except Refusal ApiBody :=
  match r.body with
  | .ok b => .ok b
  | .error (.notJson n) => .error (.invalid [⟨[.name "body", .index n], .notJson⟩])
  | .error .tooLong => .error (.plain 400 "There was an error parsing the body")

/-- A flaw as it is told of a body: any object will do where a model is required. -/
def bodyFlaw : Flaw → Flaw
  | .notModel _ => .notRecord
  | f => f

/-- Reads a body that has to be there. -/
def demandBody {α : Type} (s : Schema α) (b : ApiBody) : Except Refusal α :=
  let c : Checked α := match b with
    | .absent => .fail .missing
    | .bytes => .fail .notRecord
    | .json v => s v
  match c with
  | .valid a => .ok a
  | .invalid is => .error (.invalid (is.map fun i => ⟨.name "body" :: i.place, bodyFlaw i.flaw⟩))

/-- Reads the body of a webhook call: fields, or nothing. -/
def demandFields (b : ApiBody) : Except Refusal Fields :=
  match b with
  | .absent => .ok []
  | .bytes => .error (.invalid [⟨[.name "body"], .notObject⟩])
  | .json v => ((Schema.optional Schema.object v).within (.name "body") |> demand).map (·.getD [])

/-- Reads the query. -/
def demandQuery {α : Type} (r : ApiRequest) (read : Fields → Checked α) : Except Refusal α :=
  demand ((read r.queryFields).within (.name "query"))

/-- A field of a query that may be absent. -/
def optionalField {α : Type} (fs : Fields) (name : String) (s : Schema α) : Checked (Option α) :=
  Schema.defaulted fs name (fun v => (s v).map some) none

/-- The moment in UTC if it has no offset of its own. -/
def inUtc (m : Moment) : Moment := { m with offset := some (m.offset.getD 0) }

/-- The period between two ends of which one may be absent; there is none if both are. -/
def periodOf (now : Moment) (start stop : Option Moment) : Except Refusal (Option Period) := do
  if start.isNone && stop.isNone then .ok none
  else
    let failed {α : Type} (r : Except TimeFault α) : Except Refusal α :=
      r.mapError fun f => .failed (.time f)
    let stop := (stop.map inUtc).getD now
    let start ← match start with
      | some m => .ok (inUtc m)
      | none => failed (stop.add (-Engine.metricsWindow))
    if ← failed (stop.before start) then .error (.plain 422 "end must not precede start")
    else .ok (some ⟨start, stop⟩)

/-- Reads the part of a query about executions. -/
def executionsQuery (tenantId : String) (fs : Fields) : Checked Order :=
  Order.executions tenantId
    <$> optionalField fs "rule_id" Schema.text
    <*> optionalField fs "status" Schema.named
    <*> Schema.defaulted fs "limit" (Schema.intBetween 1 (some 500)) 50
    <*> Schema.defaulted fs "offset" (Schema.intBetween 0 none) 0

/-- The event with the tenant in its circumstances. -/
def eventOf (tenantId : String) (e : EventReport) : EventReport :=
  { e with context := { e.context with
      metadata := Fields.insert e.context.metadata "tenant_id" (.text tenantId) } }

/-- The order that a request for an endpoint is, if it is one. -/
def order (r : ApiRequest) (site : Site) : Endpoint → Option (Except Refusal Order)
  | .page => none
  | .front => none
  | .health => none
  | .ready => none
  | .createRule => some do
    let b ← r.readBody
    let tenantId ← r.entry site
    let d ← demandBody (RuleDefinition.read site.ids) b
    .ok (.createRule ⟨d, tenantId⟩)
  | .listRules => some do
    let tenantId ← r.entry site
    let active ← r.demandQuery fun fs => optionalField fs "is_active" Schema.bool
    .ok (.listRules tenantId active)
  | .rule ruleId => some do
    .ok (.rule (← r.entry site) ruleId)
  | .updateRule ruleId => some do
    let b ← r.readBody
    let tenantId ← r.entry site
    let d ← demandBody (RuleDefinition.read site.ids) b
    .ok (.updateRule tenantId ruleId d)
  | .deactivateRule ruleId => some do
    .ok (.deactivateRule (← r.entry site) ruleId)
  | .template name => some do
    let b ← r.readBody
    let tenantId ← r.entry site
    let o ← demandBody TemplateOrder.read b
    .ok (.template site.ids tenantId name o)
  | .executeRule ruleId => some do
    let b ← r.readBody
    let tenantId ← r.entry site
    let c ← demandBody ManualCall.read b
    .ok (.execute tenantId ruleId c)
  | .event => some do
    let b ← r.readBody
    let tenantId ← r.entry site
    let e ← demandBody EventReport.read b
    .ok (.event (eventOf tenantId e))
  | .webhook webhookId => some do
    let b ← r.readBody
    meetEngine site
    let data ← demandFields b
    .ok (.webhook webhookId data r.headers)
  | .executions => some do
    let tenantId ← r.entry site
    r.demandQuery (executionsQuery tenantId)
  | .execution executionId => some do
    .ok (.execution (← r.entry site) executionId)
  | .cancel executionId => some do
    .ok (.cancel (← r.entry site) executionId)
  | .metrics => some do
    let tenantId ← r.entry site
    let (start, stop) ← r.demandQuery fun fs => Prod.mk
      <$> optionalField fs "start" Schema.moment
      <*> optionalField fs "end" Schema.moment
    let period ← periodOf site.now start stop
    .ok (.metrics tenantId period)

/-- The body of what is answered without the engine. -/
def plainBody (site : Site) : Endpoint → Value
  | .front => .object [("app", .text site.appName), ("docs", .text "/docs"),
      ("health", .text "/health"), ("ready", .text "/ready")]
  | .health => .object [("ok", .bool true)]
  | .ready => .object [("ok", .bool site.hasDatabase)]
  | _ => .null

/-- A response that only says why there is no other. -/
def briefly (status : Nat) (headers : List (String × String)) (reason : String) : ApiResponse :=
  ⟨status, headers, .object [("detail", .text reason)]⟩

/-- The characters that an address keeps. -/
def addressChars : List Char := ":/%#?=@[]!$&'()*+,;".toList

/-- The address of a path on the host of a request, with the query of the request. -/
def addressOf (r : ApiRequest) (path : String) : String :=
  let query := if r.query.isEmpty then "" else "?" ++ r.query
  Text.percentEncode addressChars ("http://" ++ (r.header? "host").getD "" ++ path ++ query)

/-- What a request comes to. -/
def decide (r : ApiRequest) (site : Site) : Decision :=
  match Route.find r.method r.path with
  | .nowhere => .answer (briefly 404 [] "Not Found")
  | .wrongMethod allowed =>
    .answer (briefly 405 [("allow", ", ".intercalate allowed)] "Method Not Allowed")
  | .moved path => .answer ⟨307, [("location", r.addressOf path)], .null⟩
  | .found e =>
    match r.order site e with
    | none => .answer ⟨200, [], plainBody site e⟩
    | some (.error x) => .refuse x
    | some (.ok o) => .order o

end ApiRequest

/-- The response to an order that was done. -/
def Order.response (o : Order) (v : Value) : ApiResponse := ⟨o.status, [], v.written.sent⟩

end Rulebook
