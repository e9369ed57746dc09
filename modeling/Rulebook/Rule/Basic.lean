import Rulebook.Rule.Action
/-!
# Rules

A rule joins triggers, conditions and actions with limits on its execution. A definition is what a
user writes, a draft belongs to a tenant, and a rule has an identifier and a history.
-/

namespace Rulebook

/-- The subject of a rule. -/
inductive Category where
  /-- Quality control. -/
  | qc
  /-- Files. -/
  | files
  /-- Projects. -/
  | projects
  /-- Users. -/
  | users
  /-- The system itself. -/
  | system
  /-- Anything else. -/
  | custom
deriving DecidableEq, Repr

instance : Enumeration Category where
  members := [.qc, .files, .projects, .users, .system, .custom]
  name
    | .qc => "qc"
    | .files => "files"
    | .projects => "projects"
    | .users => "users"
    | .system => "system"
    | .custom => "custom"

/-- The limits on executions of a rule. -/
structure RuleSettings where
  /-- The most executions on one day. -/
  maxExecutionsPerDay : Int
  /-- The minutes between executions. -/
  cooldownPeriod : Int
  /-- How often a failed action is tried again. -/
  retryAttempts : Int
  /-- The seconds that the actions may take; no limit if zero. -/
  timeoutSeconds : Int
  /-- Whether the actions run side by side. -/
  runInParallel : Bool
deriving DecidableEq, Repr

namespace RuleSettings

/-- The limits of a rule that sets none. -/
def plain : RuleSettings := ⟨1000, 0, 0, 0, false⟩

/-- Reads limits. -/
def read : Schema RuleSettings := Schema.model "RuleSettings" fun fs =>
  RuleSettings.mk
    <$> Schema.defaulted fs "max_executions_per_day" (Schema.intBetween 1 none) 1000
    <*> Schema.defaulted fs "cooldown_period" (Schema.intBetween 0 none) 0
    <*> Schema.defaulted fs "retry_attempts" (Schema.intBetween 0 (some 10)) 0
    <*> Schema.defaulted fs "timeout_seconds" (Schema.intBetween 0 (some 86400)) 0
    <*> Schema.defaulted fs "run_in_parallel" Schema.bool false

/-- The payload of limits. -/
def toValue (s : RuleSettings) : Value :=
  .object [("max_executions_per_day", .int s.maxExecutionsPerDay),
    ("cooldown_period", .int s.cooldownPeriod), ("retry_attempts", .int s.retryAttempts),
    ("timeout_seconds", .int s.timeoutSeconds), ("run_in_parallel", .bool s.runInParallel)]

end RuleSettings

/-- Who made a rule, what it is about, and how its executions went. -/
structure RuleMetadata where
  /-- Who made it. -/
  createdBy : String
  /-- Its subject. -/
  category : Category
  /-- Its tags. -/
  tags : List String
  /-- When the last recorded execution was triggered. -/
  lastExecuted : Option Moment
  /-- How many executions are recorded. -/
  executionCount : Int
  /-- The share of recorded executions that completed. -/
  successRate : Float
  /-- The mean duration of recorded executions in milliseconds. -/
  avgExecutionTime : Float

namespace RuleMetadata

/-- The metadata of a rule without any. -/
def plain : RuleMetadata := ⟨"system", .custom, [], none, 0, 0, 0⟩

/-- Reads metadata. -/
def read : Schema RuleMetadata := Schema.model "RuleMetadata" fun fs =>
  RuleMetadata.mk
    <$> Schema.defaulted fs "created_by" Schema.text "system"
    <*> Schema.defaulted fs "category" Schema.named .custom
    <*> Schema.defaulted fs "tags" Schema.texts []
    <*> Schema.defaulted fs "last_executed" (Schema.optional Schema.moment) none
    <*> Schema.defaulted fs "execution_count" Schema.int 0
    <*> Schema.defaulted fs "success_rate" Schema.float 0
    <*> Schema.defaulted fs "avg_execution_time" Schema.float 0

/-- The payload of metadata. -/
def toValue (m : RuleMetadata) : Value :=
  .object [("created_by", .text m.createdBy), ("category", .ofName m.category),
    ("tags", .texts m.tags), ("last_executed", .ofOption .moment m.lastExecuted),
    ("execution_count", .int m.executionCount), ("success_rate", .float m.successRate),
    ("avg_execution_time", .float m.avgExecutionTime)]

end RuleMetadata

/-- What a rule does and when. -/
structure RuleDefinition where
  /-- Its name. -/
  name : String
  /-- Its description. -/
  description : String
  /-- Rules of higher priority run first. -/
  priority : Int
  /-- Whether the rule is in use. -/
  isActive : Bool
  /-- What starts it. -/
  triggers : List Trigger
  /-- What has to hold. -/
  conditions : List Condition
  /-- What it does. -/
  actions : List Action
  /-- Its limits. -/
  settings : RuleSettings
  /-- Its metadata. -/
  metadata : RuleMetadata

/-- A rule that a tenant is about to create. -/
structure RuleDraft extends RuleDefinition where
  /-- The tenant. -/
  tenantId : String

/-- A rule. -/
structure Rule extends RuleDraft where
  /-- Its identifier. -/
  id : String
  /-- When it was created. -/
  createdAt : Moment
  /-- When it was last changed. -/
  updatedAt : Moment

/-- Identifiers for parts that come without one. The first is given; each list counts on from
where the one before it ends, so no two parts of a rule get the same. -/
structure FreshIds where
  /-- The number of the first identifier. -/
  first : Nat

namespace FreshIds

/-- What fresh identifiers begin with. -/
def stem : String := "auto"

/-- The number of digits in a fresh identifier. -/
def digits : Nat := 18

/-- The fresh identifier of a number. -/
def id (n : Nat) : String := stem ++ Date.padded digits n

/-- The number of items of a list in a field. -/
def countIn (fs : Fields) (name : String) : Nat :=
  match Fields.get? fs name with
  | some (.list l) => l.length
  | _ => 0

/-- How many identifiers a rule with these fields may need. -/
def needed (fs : Fields) : Nat :=
  countIn fs "triggers" + countIn fs "conditions" + countIn fs "actions"

end FreshIds

namespace RuleDefinition

/-- Reads the fields of a definition. -/
def readFields (ids : FreshIds) (fs : Fields) : Checked RuleDefinition :=
  let triggerId := ids.first
  let conditionId := triggerId + FreshIds.countIn fs "triggers"
  let actionId := conditionId + FreshIds.countIn fs "conditions"
  RuleDefinition.mk
    <$> Schema.required fs "name" (Schema.textOfLength 2 (some 120))
    <*> Schema.defaulted fs "description" (Schema.textOfLength 0 (some 255)) ""
    <*> Schema.defaulted fs "priority" Schema.int 0
    <*> Schema.defaulted fs "is_active" Schema.bool true
    <*> Schema.defaulted fs "triggers"
      (Schema.listOf fun i => Trigger.read (FreshIds.id (triggerId + i))) []
    <*> Schema.defaulted fs "conditions"
      (Schema.listOf fun i => Condition.read (FreshIds.id (conditionId + i))) []
    <*> Schema.defaulted fs "actions"
      (Schema.listOf fun i => Action.read (FreshIds.id (actionId + i))) []
    <*> Schema.defaulted fs "settings" RuleSettings.read .plain
    <*> Schema.defaulted fs "metadata" RuleMetadata.read .plain

/-- Reads a definition. -/
def read (ids : FreshIds) : Schema RuleDefinition :=
  Schema.model "RuleDefinition" (readFields ids)

/-- The fields of the payload of a definition. -/
def toFields (d : RuleDefinition) : Fields :=
  [("name", .text d.name), ("description", .text d.description), ("priority", .int d.priority),
    ("is_active", .bool d.isActive), ("triggers", .list (d.triggers.map Trigger.toValue)),
    ("conditions", .list (d.conditions.map Condition.toValue)),
    ("actions", .list (d.actions.map Action.toValue)), ("settings", d.settings.toValue),
    ("metadata", d.metadata.toValue)]

/-- The payload of a definition. -/
def toValue (d : RuleDefinition) : Value := .object d.toFields

end RuleDefinition

namespace RuleDraft

/-- Reads the fields of a draft. -/
def readFields (ids : FreshIds) (fs : Fields) : Checked RuleDraft :=
  RuleDraft.mk <$> RuleDefinition.readFields ids fs
    <*> Schema.required fs "tenant_id" (Schema.textOfLength 1 (some 64))

/-- Reads a draft. -/
def read (ids : FreshIds) : Schema RuleDraft := Schema.model "RuleCreate" (readFields ids)

/-- The fields of the payload of a draft. -/
def toFields (d : RuleDraft) : Fields := d.toRuleDefinition.toFields ++ [("tenant_id", .text d.tenantId)]

/-- The payload of a draft. -/
def toValue (d : RuleDraft) : Value := .object d.toFields

end RuleDraft

namespace Rule

/-- Reads a rule. -/
def read (ids : FreshIds) : Schema Rule := Schema.model "Rule" fun fs =>
  Rule.mk <$> RuleDraft.readFields ids fs
    <*> Schema.required fs "id" Schema.text
    <*> Schema.required fs "created_at" Schema.moment
    <*> Schema.required fs "updated_at" Schema.moment

/-- The payload of a rule. -/
def toValue (r : Rule) : Value :=
  .object (r.toRuleDraft.toFields ++ [("id", .text r.id), ("created_at", .moment r.createdAt),
    ("updated_at", .moment r.updatedAt)])

/-- The triggers in use. -/
def enabledTriggers (r : Rule) : List Trigger := r.triggers.filter (·.enabled)

/-- The actions in use, by order; those of equal order stay as they are. -/
def enabledActions (r : Rule) : List Action :=
  (r.actions.filter (·.enabled)).mergeSort fun a b => a.order ≤ b.order

end Rule

mutual

/-- The value with times written as texts. -/
def Value.written : Value → Value
  | .moment m => .text m.text
  | .list l => .list (writtenItems l)
  | .object fs => .object (writtenFields fs)
  | v => v

/-- The items with times written as texts. -/
def writtenItems : List Value → List Value
  | [] => []
  | v :: l => v.written :: writtenItems l

/-- The fields with times written as texts. -/
def writtenFields : List (String × Value) → List (String × Value)
  | [] => []
  | (k, v) :: fs => (k, v.written) :: writtenFields fs

end

end Rulebook
