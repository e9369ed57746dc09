import Rulebook.Rule.Basic
/-!
# Executions

An execution is one run of a rule: what started it, the steps taken, and how it ended. Its status
only moves until it is terminal; the transition to a terminal status sets the end and the duration.
-/

namespace Rulebook

/-- The stages of an execution. -/
inductive ExecutionStatus where
  /-- Not started. -/
  | pending
  /-- Under way. -/
  | running
  /-- Ended well. -/
  | completed
  /-- Ended with an error. -/
  | failed
  /-- Ended by a user. -/
  | cancelled
  /-- Ended because it took too long. -/
  | timeout
  /-- A status outside the life cycle. -/
  | unlisted (name : String)
deriving DecidableEq, Repr

instance : Enumeration ExecutionStatus where
  members := [.pending, .running, .completed, .failed, .cancelled, .timeout]
  name
    | .pending => "pending"
    | .running => "running"
    | .completed => "completed"
    | .failed => "failed"
    | .cancelled => "cancelled"
    | .timeout => "timeout"
    | .unlisted name => name

namespace ExecutionStatus

/-- The status of that name. -/
def ofName (name : String) : ExecutionStatus :=
  ((Enumeration.members : List ExecutionStatus).find? fun s => Enumeration.name s == name).getD
    (.unlisted name)

/-- Whether an execution with this status has ended. -/
def isTerminal : ExecutionStatus → Bool
  | .completed | .failed | .cancelled | .timeout => true
  | _ => false

end ExecutionStatus

/-- The stages of a step. -/
inductive StepStatus where
  /-- Not started. -/
  | pending
  /-- Under way. -/
  | running
  /-- Ended well. -/
  | completed
  /-- Ended with an error. -/
  | failed
  /-- Left out. -/
  | skipped
deriving DecidableEq, Repr

instance : Enumeration StepStatus where
  members := [.pending, .running, .completed, .failed, .skipped]
  name
    | .pending => "pending"
    | .running => "running"
    | .completed => "completed"
    | .failed => "failed"
    | .skipped => "skipped"

/-- What a step does. -/
inductive StepKind where
  /-- Checks a condition. -/
  | condition
  /-- Runs an action. -/
  | action
deriving DecidableEq, Repr

instance : Enumeration StepKind where
  members := [.condition, .action]
  name
    | .condition => "condition"
    | .action => "action"

/-- The circumstances in which a rule is started. -/
structure ExecutionContext where
  /-- The user. -/
  userId : Option String
  /-- The kind of the entity concerned. -/
  entityType : Option String
  /-- The entity concerned. -/
  entityId : Option String
  /-- Anything else. -/
  metadata : Fields

namespace ExecutionContext

/-- No circumstances. -/
def empty : ExecutionContext := ⟨none, none, none, []⟩

/-- Reads a context. -/
def read : Schema ExecutionContext := Schema.model "ExecutionContext" fun fs =>
  ExecutionContext.mk
    <$> Schema.defaulted fs "user_id" (Schema.optional Schema.text) none
    <*> Schema.defaulted fs "entity_type" (Schema.optional Schema.text) none
    <*> Schema.defaulted fs "entity_id" (Schema.optional Schema.text) none
    <*> Schema.defaulted fs "metadata" Schema.object []

/-- The fields of the payload of a context. -/
def toFields (c : ExecutionContext) : Fields :=
  [("user_id", .ofOption .text c.userId), ("entity_type", .ofOption .text c.entityType),
    ("entity_id", .ofOption .text c.entityId), ("metadata", .object c.metadata)]

/-- The payload of a context. -/
def toValue (c : ExecutionContext) : Value := .object c.toFields

/-- The context with an entry of its metadata set. -/
def withMetadata (c : ExecutionContext) (name : String) (v : Value) : ExecutionContext :=
  { c with metadata := Fields.insert c.metadata name v }

end ExecutionContext

/-- The data that conditions and templates see: that of the trigger, overridden by the context. -/
def evaluationData (triggerData : Fields) (context : Option ExecutionContext) : Fields :=
  match context with
  | some c => Fields.merge triggerData c.toFields
  | none => triggerData

/-- One step of an execution. -/
structure ExecutionStep where
  /-- The identifier of the action. -/
  stepId : String
  /-- What it does. -/
  kind : StepKind
  /-- The name of the action. -/
  name : String
  /-- Its stage. -/
  status : StepStatus
  /-- When it started. -/
  startedAt : Option Moment
  /-- When it ended. -/
  completedAt : Option Moment
  /-- How long it took, in milliseconds. -/
  duration : Option Float
  /-- What it was given. -/
  input : Option Fields
  /-- What it gave. -/
  output : Option Fields
  /-- Why it failed. -/
  error : Option String
  /-- How often the action was tried. -/
  attempts : Int

namespace ExecutionStep

/-- Reads a step. -/
def read : Schema ExecutionStep := Schema.model "ExecutionStep" fun fs =>
  ExecutionStep.mk
    <$> Schema.required fs "step_id" Schema.text
    <*> Schema.defaulted fs "type" Schema.named .action
    <*> Schema.required fs "name" Schema.text
    <*> Schema.defaulted fs "status" Schema.named .pending
    <*> Schema.defaulted fs "started_at" (Schema.optional Schema.moment) none
    <*> Schema.defaulted fs "completed_at" (Schema.optional Schema.moment) none
    <*> Schema.defaulted fs "duration" (Schema.optional Schema.float) none
    <*> Schema.defaulted fs "input" (Schema.optional Schema.object) none
    <*> Schema.defaulted fs "output" (Schema.optional Schema.object) none
    <*> Schema.defaulted fs "error" (Schema.optional Schema.text) none
    <*> Schema.defaulted fs "attempts" Schema.int 0

/-- The payload of a step. -/
def toValue (s : ExecutionStep) : Value :=
  .object [("step_id", .text s.stepId), ("type", .ofName s.kind), ("name", .text s.name),
    ("status", .ofName s.status), ("started_at", .ofOption .moment s.startedAt),
    ("completed_at", .ofOption .moment s.completedAt), ("duration", .ofOption .float s.duration),
    ("input", .ofOption .object s.input), ("output", .ofOption .object s.output),
    ("error", .ofOption .text s.error), ("attempts", .int s.attempts)]

end ExecutionStep

/-- One run of a rule. -/
structure Execution where
  /-- Its identifier. -/
  id : String
  /-- The rule. -/
  ruleId : String
  /-- The tenant of the rule. -/
  tenantId : String
  /-- What started it. -/
  triggeredBy : String
  /-- When it was triggered. -/
  triggeredAt : Moment
  /-- Its stage. -/
  status : ExecutionStatus
  /-- When it started. -/
  startedAt : Option Moment
  /-- When it ended. -/
  completedAt : Option Moment
  /-- How long it took, in milliseconds. -/
  duration : Option Float
  /-- The data of the trigger. -/
  triggerData : Fields
  /-- The circumstances. -/
  context : ExecutionContext
  /-- The steps taken. -/
  steps : List ExecutionStep
  /-- Why it failed. -/
  error : Option String
  /-- Its result. -/
  result : Option Fields

namespace Execution

/-- Reads an execution. -/
def read : Schema Execution := Schema.model "Execution" fun fs =>
  Execution.mk
    <$> Schema.required fs "id" Schema.text
    <*> Schema.required fs "rule_id" Schema.text
    <*> Schema.required fs "tenant_id" Schema.text
    <*> Schema.defaulted fs "triggered_by" Schema.text "manual"
    <*> Schema.required fs "triggered_at" Schema.moment
    <*> Schema.defaulted fs "status" Schema.named .pending
    <*> Schema.defaulted fs "started_at" (Schema.optional Schema.moment) none
    <*> Schema.defaulted fs "completed_at" (Schema.optional Schema.moment) none
    <*> Schema.defaulted fs "duration" (Schema.optional Schema.float) none
    <*> Schema.defaulted fs "trigger_data" Schema.object []
    <*> Schema.defaulted fs "context" ExecutionContext.read .empty
    <*> Schema.defaulted fs "steps" (Schema.listOf fun _ => ExecutionStep.read) []
    <*> Schema.defaulted fs "error" (Schema.optional Schema.text) none
    <*> Schema.defaulted fs "result" (Schema.optional Schema.object) none

/-- The payload of an execution. -/
def toValue (e : Execution) : Value :=
  .object [("id", .text e.id), ("rule_id", .text e.ruleId), ("tenant_id", .text e.tenantId),
    ("triggered_by", .text e.triggeredBy), ("triggered_at", .moment e.triggeredAt),
    ("status", .ofName e.status), ("started_at", .ofOption .moment e.startedAt),
    ("completed_at", .ofOption .moment e.completedAt), ("duration", .ofOption .float e.duration),
    ("trigger_data", .object e.triggerData), ("context", e.context.toValue),
    ("steps", .list (e.steps.map ExecutionStep.toValue)), ("error", .ofOption .text e.error),
    ("result", .ofOption .object e.result)]

/-- Whether the execution has ended. -/
def isTerminal (e : Execution) : Bool := e.status.isTerminal

/-- Whether the execution completed without running its actions. -/
def wasSkipped (e : Execution) : Bool :=
  e.status == .completed &&
    ((Fields.get? (e.result.getD []) "skipped").map Value.isTruthy).getD false

/-- A length of time in milliseconds, nothing if it is negative. -/
def milliseconds (micros : Int) : Float :=
  let x := ((Binary64.nearestSigned? micros 1000000).getD 0) * 1000
  if 0 ≤ x then x else 0

/-- The end and the duration of an execution that ends now. -/
def ending (e : Execution) (now : Moment) : Except TimeFault (Moment × Float) :=
  (now.since (e.startedAt.getD now)).map fun micros => (now, milliseconds micros)

/-- Moves to a status unless the execution has ended, which is answered by `false`. -/
def transition (e : Execution) (status : ExecutionStatus) (now : Moment) (error : Option String) :
    Except TimeFault (Execution × Bool) :=
  if e.isTerminal then .ok (e, false)
  else do
    let e := { e with status }
    let e := if status = .running ∧ e.startedAt.isNone then { e with startedAt := some now } else e
    let e ← if status.isTerminal then
        (e.ending now).map fun (at_, duration) =>
          { e with completedAt := some at_, duration := some duration }
      else .ok e
    .ok ({ e with error := error.or e.error }, true)

end Execution

end Rulebook
