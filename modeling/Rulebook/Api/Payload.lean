import Rulebook.Execution.Basic
import Rulebook.Pagination
/-!
# Payloads of requests and responses
-/

namespace Rulebook

/-- An event that is reported. -/
structure EventReport where
  /-- Its type. -/
  eventType : String
  /-- Its data. -/
  data : Fields
  /-- Its circumstances. -/
  context : ExecutionContext

namespace EventReport

/-- Reads an event. -/
def read : Schema EventReport := Schema.model "EventTriggerIn" fun fs =>
  EventReport.mk
    <$> Schema.required fs "event_type" (Schema.textOfLength 1 (some 120))
    <*> Schema.defaulted fs "data" Schema.object []
    <*> Schema.defaulted fs "context" ExecutionContext.read .empty

/-- The payload of an event. -/
def toValue (e : EventReport) : Value :=
  .object [("event_type", .text e.eventType), ("data", .object e.data),
    ("context", e.context.toValue)]

end EventReport

/-- A manual call of a rule. -/
structure ManualCall where
  /-- The data for the rule. -/
  triggerData : Fields
  /-- The circumstances. -/
  context : ExecutionContext

namespace ManualCall

/-- Reads a manual call. -/
def read : Schema ManualCall := Schema.model "ExecuteRuleIn" fun fs =>
  ManualCall.mk
    <$> Schema.defaulted fs "trigger_data" Schema.object []
    <*> Schema.defaulted fs "context" ExecutionContext.read .empty

/-- The payload of a manual call. -/
def toValue (c : ManualCall) : Value :=
  .object [("trigger_data", .object c.triggerData), ("context", c.context.toValue)]

end ManualCall

/-- A request for a rule from a template. -/
structure TemplateOrder where
  /-- The settings of the template. -/
  config : Fields
  /-- Who makes the rule. -/
  createdBy : String

namespace TemplateOrder

/-- Reads a request for a rule from a template. -/
def read : Schema TemplateOrder := Schema.model "TemplateRuleIn" fun fs =>
  TemplateOrder.mk
    <$> Schema.defaulted fs "config" Schema.object []
    <*> Schema.defaulted fs "created_by" (Schema.textOfLength 1 (some 64)) "system"

/-- The payload of a request for a rule from a template. -/
def toValue (o : TemplateOrder) : Value :=
  .object [("config", .object o.config), ("created_by", .text o.createdBy)]

end TemplateOrder

/-- A list of rules. -/
structure RuleListing where
  /-- The rules. -/
  items : List Rule

namespace RuleListing

/-- Reads a list of rules. -/
def read (ids : FreshIds) : Schema RuleListing := Schema.model "RuleListOut" fun fs =>
  RuleListing.mk <$> Schema.required fs "items" (Schema.listOf fun _ => Rule.read ids)

/-- The payload of a list of rules. -/
def toValue (l : RuleListing) : Value := .object [("items", .list (l.items.map Rule.toValue))]

end RuleListing

/-- A page of executions. -/
structure ExecutionListing where
  /-- The executions. -/
  items : List Execution
  /-- What the page says about itself. -/
  page : PageInfo
  /-- The rule that was asked for. -/
  ruleId : Option String
  /-- The status that was asked for. -/
  status : Option ExecutionStatus

namespace ExecutionListing

/-- Reads a page of executions. -/
def read : Schema ExecutionListing := Schema.model "ExecutionListOut" fun fs =>
  ExecutionListing.mk
    <$> Schema.required fs "items" (Schema.listOf fun _ => Execution.read)
    <*> Schema.required fs "pagination" PageInfo.read
    <*> Schema.defaulted fs "rule_id" (Schema.optional Schema.text) none
    <*> Schema.defaulted fs "status" (Schema.optional Schema.named) none

/-- The payload of a page of executions. -/
def toValue (l : ExecutionListing) : Value :=
  .object [("items", .list (l.items.map Execution.toValue)), ("pagination", l.page.toValue),
    ("rule_id", .ofOption .text l.ruleId), ("status", .ofOption .ofName l.status)]

end ExecutionListing

/-- The payload of the answer to an event or a webhook call: the executions made. -/
def dispatchValue (executionIds : List String) : Value :=
  .object [("execution_ids", .texts executionIds)]

end Rulebook
