import Rulebook.Api.Payload
import Rulebook.Metrics
/-!
# Models

Every kind of payload has a name under which it can be checked on its own. A valid payload is given
back in full: with all fields, absent ones having their defaults, and with times written as texts.
-/

namespace Rulebook

instance : Enumeration ErrorKind where
  members := [.timeout, .network, .permission, .validation, .database, .other]
  name := ErrorKind.name

namespace Schema

/-- Reads required fields one after the other. -/
def eachField (fs : Fields) : List (String × Schema Value) → Checked Fields
  | [] => .valid []
  | (k, s) :: r => .apply (.map (fun v l => (k, v) :: l) (required fs k s)) (eachField fs r)

/-- An object of the named model, of which all fields are required. -/
def record (name : String) (fields : List (String × Schema Value)) : Schema Value :=
  model name fun fs => (eachField fs fields).map .object

/-- A reader whose results are payloads again. -/
def full {α : Type} (s : Schema α) (toValue : α → Value) : Schema Value := fun v => (s v).map toValue

end Schema

/-- A kind of payload. -/
structure Model where
  /-- Its name. -/
  name : String
  /-- Checks a payload and gives it back in full. -/
  complete : Value → Outcome Value

namespace Model

/-- The model with a reader and the payload of what is read. -/
def of {α : Type} (name : String) (s : Schema α) (toValue : α → Value) : Model :=
  ⟨name, fun v => ((s v).toExcept.mapError Failure.invalid).map fun a => (toValue a).written⟩

/-- A count. -/
def count : Schema Value := Schema.full Schema.int .int

/-- A rate. -/
def rate : Schema Value := Schema.full Schema.float .float

/-- A text. -/
def text : Schema Value := Schema.full Schema.text .text

/-- The executions of a rule. -/
def topRule : Schema Value :=
  Schema.record "TopRule"
    [("rule_id", text), ("name", text), ("executions", count), ("success_rate", rate)]

/-- The executions of a day. -/
def executionTrend : Schema Value :=
  Schema.record "ExecutionTrend"
    [("date", Schema.full Schema.day fun d => .text d.text), ("executions", count),
      ("successes", count), ("failures", count)]

/-- The failures of a kind. -/
def errorCategory : Schema Value :=
  Schema.record "ErrorCategory"
    [("error_type", Schema.full (Schema.named : Schema ErrorKind) .ofName), ("count", count),
      ("percentage", count)]

/-- A list of payloads of one model. -/
def listOf (s : Schema Value) : Schema Value := Schema.full (Schema.listOf fun _ => s) .list

/-- Metrics of rules and executions. -/
def metrics : Schema Value :=
  Schema.record "AutomationMetrics"
    [("total_rules", count), ("active_rules", count), ("total_executions", count),
      ("successful_executions", count), ("failed_executions", count),
      ("skipped_executions", count), ("avg_execution_time", rate), ("top_rules", listOf topRule),
      ("execution_trends", listOf executionTrend), ("error_analysis", listOf errorCategory)]

/-- The models of reports. -/
def reports : List Model :=
  [("TopRule", topRule), ("ExecutionTrend", executionTrend), ("ErrorCategory", errorCategory),
    ("AutomationMetrics", metrics),
    ("DispatchOut", Schema.record "DispatchOut" [("execution_ids", listOf text)])].map
    fun (name, s) => of name s id

/-- The model of what actions of a kind do. -/
def config (name : String) (k : ActionKind) : Model :=
  of name (Action.readConfig k) ActionConfig.toValue

/-- The models of parts of rules. -/
def parts : List Model :=
  [of "HttpAuthentication" Authentication.read Authentication.toValue,
    of "Condition" (Condition.read (FreshIds.id 0)) Condition.toValue,
    of "RuleSettings" RuleSettings.read RuleSettings.toValue,
    of "RuleMetadata" RuleMetadata.read RuleMetadata.toValue,
    of "ScheduleConfig" Schedule.read Schedule.toValue,
    of "WebhookTriggerConfig" WebhookEndpoint.read WebhookEndpoint.toValue,
    of "PollingCondition" Polling.read Polling.toValue,
    config "NotificationConfig" .notification, config "EmailConfig" .email,
    config "WebhookActionConfig" .webhook, config "DatabaseConfig" .database,
    config "FileConfig" .fileOperation, config "WorkflowConfig" .workflow,
    config "AssignmentConfig" .assignment, config "CustomConfig" .custom]

/-- The name of the model of a kind of triggers or actions. -/
def variantName (kind rest : String) : String :=
  match kind with
  | "file_operation" => "File" ++ rest
  | kind => kind.capitalize ++ rest

/-- The models of the kinds of triggers and actions. -/
def variants : List Model :=
  (Trigger.variants (FreshIds.id 0)).map (fun (kind, read) =>
    let name := variantName kind "Trigger"
    of name (Schema.model name read) Trigger.toValue) ++
  (Action.variants (FreshIds.id 0)).map fun (kind, read) =>
    let name := variantName kind "Action"
    of name (Schema.model name read) Action.toValue

/-- The models of rules, executions, requests and responses. -/
def wholes : List Model :=
  [of "RuleDefinition" (RuleDefinition.read ⟨0⟩) RuleDefinition.toValue,
    of "RuleCreate" (RuleDraft.read ⟨0⟩) RuleDraft.toValue,
    of "Rule" (Rule.read ⟨0⟩) Rule.toValue,
    of "ExecutionContext" ExecutionContext.read ExecutionContext.toValue,
    of "ExecutionStep" ExecutionStep.read ExecutionStep.toValue,
    of "Execution" Execution.read Execution.toValue,
    of "EventTriggerIn" EventReport.read EventReport.toValue,
    of "ExecuteRuleIn" ManualCall.read ManualCall.toValue,
    of "TemplateRuleIn" TemplateOrder.read TemplateOrder.toValue,
    of "RuleListOut" (RuleListing.read ⟨0⟩) RuleListing.toValue,
    of "ExecutionListOut" ExecutionListing.read ExecutionListing.toValue,
    of "PaginationMeta" PageInfo.read PageInfo.toValue,
    ⟨"MetricsPeriod", fun v => (Period.read v).map fun p => p.toValue.written⟩]

/-- All models. -/
def all : List Model := parts ++ variants ++ wholes ++ reports

/-- The model of a name. -/
def find? (name : String) : Option Model := all.find? (·.name == name)

end Model

end Rulebook
