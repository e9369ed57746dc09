import Rulebook.Api.Payload
import Rulebook.Engine.Execution
/-!
# Orders

An order is what a valid request asks of the engine. It is done at once, or when the executions have
ended that it leads to.
-/

namespace Rulebook

/-- What is asked of the engine. -/
inductive Order where
  /-- A new rule. -/
  | createRule (d : RuleDraft)
  /-- The rules of a tenant, all or only those that are in use or not. -/
  | listRules (tenantId : String) (active : Option Bool)
  /-- A rule. -/
  | rule (tenantId ruleId : String)
  /-- A new definition of a rule. -/
  | updateRule (tenantId ruleId : String) (d : RuleDefinition)
  /-- Putting a rule out of use. -/
  | deactivateRule (tenantId ruleId : String)
  /-- A rule from a template. -/
  | template (ids : FreshIds) (tenantId name : String) (o : TemplateOrder)
  /-- The execution of a rule. -/
  | execute (tenantId ruleId : String) (c : ManualCall)
  /-- What an event leads to. -/
  | event (e : EventReport)
  /-- What the call of a webhook leads to. -/
  | webhook (webhookId : String) (data : Fields) (headers : List (String × String))
  /-- A page of the executions of a tenant. -/
  | executions (tenantId : String) (ruleId : Option String) (status : Option ExecutionStatus)
    (limit offset : Int)
  /-- An execution. -/
  | execution (tenantId executionId : String)
  /-- The end of an execution. -/
  | cancel (tenantId executionId : String)
  /-- The metrics of a tenant. -/
  | metrics (tenantId : String) (period : Option Period)

/-- How far an order has come. -/
inductive OrderState where
  /-- It is done. -/
  | done (v : Value)
  /-- The execution of a rule of a tenant is called. -/
  | called (tenantId : String) (l : Launch)
  /-- Rules are being executed. -/
  | dispatched (p : Progress)

namespace Order

variable {σ : Type}

/-- The status of the response when the order is done. -/
def status : Order → Nat
  | createRule _ => 201
  | template _ _ _ _ => 201
  | _ => 200

/-- The page of executions that is asked for. -/
def listing (rows : List Execution) (ruleId : Option String) (status : Option ExecutionStatus)
    (limit offset : Int) : ExecutionListing :=
  let (items, info) := page rows limit offset
  ⟨items, info, ruleId, status⟩

/-- Makes a rule and shows it. -/
def create (v : Environment σ) (now : Moment) (d : RuleDraft) : EngineM σ OrderState := do
  let r ← Engine.createRule v now d
  pure (.done r.toValue)

/-- Begins an order. -/
def start (v : Environment σ) (now : Moment) : Order → EngineM σ OrderState
  | createRule d => create v now d
  | listRules tenantId active => do
    let rules ← Engine.lift ((← get).listRules tenantId)
    let wanted := rules.filter fun r => active.all (· == r.isActive)
    pure (.done (RuleListing.toValue ⟨wanted⟩))
  | rule tenantId ruleId => do
    let r ← Engine.lift ((← get).getRule ruleId (some tenantId))
    pure (.done r.toValue)
  | updateRule tenantId ruleId d => do
    let r ← Engine.updateRule v now ruleId d (some tenantId)
    pure (.done r.toValue)
  | deactivateRule tenantId ruleId => do
    let r ← Engine.deactivateRule now ruleId (some tenantId)
    pure (.done r.toValue)
  | template ids tenantId name o => do
    let d ← Engine.lift (RuleTemplate.draft ids name o.config tenantId o.createdBy)
    create v now d
  | execute tenantId ruleId c => do
    let _ ← Engine.lift ((← get).getRule ruleId (some tenantId))
    let (e, l) := (← get).execute v now ruleId c.triggerData c.context (some "manual")
    set e
    pure (.called tenantId l)
  | event report => do
    let (e, p) := (Engine.host v now).event report.eventType report.data report.context (← get)
    set e
    let p ← Engine.lift p
    pure (.dispatched p)
  | webhook webhookId data headers => do
    let (e, p) := (Engine.host v now).webhook webhookId data headers (← get)
    set e
    pure (.dispatched p)
  | executions tenantId ruleId status limit offset => do
    let rows ← Engine.lift ((← get).listExecutions ⟨tenantId, none, ruleId, status⟩)
    pure (.done (listing rows ruleId status limit offset).toValue)
  | execution tenantId executionId => do
    let x ← Engine.lift ((← get).getExecution executionId (some tenantId))
    pure (.done x.toValue)
  | cancel tenantId executionId => do
    let x ← Engine.cancel now executionId (some tenantId)
    pure (.done x.toValue)
  | metrics tenantId period => do
    let m ← Engine.lift ((← get).metrics now tenantId period)
    pure (.done m.toValue)

end Order

end Rulebook
