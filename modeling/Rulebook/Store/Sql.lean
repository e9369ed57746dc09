import Rulebook.Store.Memory
import Rulebook.Value.Equality
/-!
# Tables in a database

Each rule and each execution is a row. Times are kept in UTC, a clock of unknown offset being read as
UTC; nested parts are kept as payloads, in which times are texts. Integers have to fit in 64 bits.
A row that is written again keeps the payloads that have the same content as before, so a truth value
does not replace the number that it counts as. Rules come back in the order of their creation times,
executions in the order of their trigger times; of equal times the smaller identifier comes first.
-/

namespace Rulebook

namespace Stored

/-- A time as it is kept. -/
def time (m : Moment) : Outcome Moment := m.normalize.mapError .time

/-- An optional time as it is kept. -/
def time? (m : Option Moment) : Outcome (Option Moment) := m.mapM time

/-- An integer as it is kept. -/
def integer (n : Int) : Outcome Int :=
  if -(Nat.pow 2 63 : Int) ≤ n ∧ n < Nat.pow 2 63 then .ok n else .error .integerTooLong

/-- A number as it is kept: what is not a number becomes null, and zero has no sign. -/
def real? (x : Option Float) : Option Float :=
  (x.filter fun x => !x.isNaN).map fun x => if x == 0 then 0 else x

/-- A payload that is written over another one, which stays if it has the same content. -/
def overlay (old new : Value) : Value := if new.agrees old then old else new

end Stored

/-- The row of a rule. -/
structure RuleRow where
  /-- The identifier. -/
  id : String
  /-- The tenant. -/
  tenantId : String
  /-- The name. -/
  name : String
  /-- The description. -/
  description : String
  /-- The priority. -/
  priority : Int
  /-- Whether the rule is in use. -/
  isActive : Bool
  /-- Payload of the triggers. -/
  triggers : Value
  /-- Payload of the conditions. -/
  conditions : Value
  /-- Payload of the actions. -/
  actions : Value
  /-- Payload of the settings. -/
  settings : Value
  /-- Payload of the metadata. -/
  metadata : Value
  /-- When the rule was created. -/
  createdAt : Moment
  /-- When it was last changed. -/
  updatedAt : Moment

namespace RuleRow

/-- The row of a rule. -/
def ofRule (r : Rule) : Outcome RuleRow := do
  let createdAt ← Stored.time r.createdAt
  let updatedAt ← Stored.time r.updatedAt
  let priority ← Stored.integer r.priority
  .ok {
    id := r.id, tenantId := r.tenantId, name := r.name, description := r.description, priority
    isActive := r.isActive
    triggers := (Value.list (r.triggers.map Trigger.toValue)).written
    conditions := (Value.list (r.conditions.map Condition.toValue)).written
    actions := (Value.list (r.actions.map Action.toValue)).written
    settings := r.settings.toValue.written
    metadata := r.metadata.toValue.written
    createdAt, updatedAt }

/-- The payload that a row stands for. -/
def toValue (row : RuleRow) : Value :=
  .object [("id", .text row.id), ("tenant_id", .text row.tenantId), ("name", .text row.name),
    ("description", .text row.description), ("priority", .int row.priority),
    ("is_active", .bool row.isActive), ("triggers", row.triggers),
    ("conditions", row.conditions), ("actions", row.actions), ("settings", row.settings),
    ("metadata", row.metadata), ("created_at", .moment row.createdAt),
    ("updated_at", .moment row.updatedAt)]

/-- The row that is kept when it is written over another one. -/
def overlay (old new : RuleRow) : RuleRow :=
  { new with
    triggers := Stored.overlay old.triggers new.triggers
    conditions := Stored.overlay old.conditions new.conditions
    actions := Stored.overlay old.actions new.actions
    settings := Stored.overlay old.settings new.settings
    metadata := Stored.overlay old.metadata new.metadata }

/-- Reads the rule of a row. -/
def toRule (row : RuleRow) : Outcome Rule := (Rule.read ⟨0⟩ row.toValue).toExcept.mapError .invalid

end RuleRow

/-- The row of a step. -/
structure StepRow where
  /-- The step, its times in UTC. -/
  step : ExecutionStep
  /-- Payload of what it was given. -/
  input : Value
  /-- Payload of what it gave. -/
  output : Value

namespace StepRow

/-- The row of a step. -/
def ofStep (s : ExecutionStep) : Outcome StepRow := do
  let startedAt ← Stored.time? s.startedAt
  let completedAt ← Stored.time? s.completedAt
  let attempts ← Stored.integer s.attempts
  .ok {
    step := { s with startedAt, completedAt, attempts, duration := Stored.real? s.duration }
    input := (Value.ofOption .object s.input).written
    output := (Value.ofOption .object s.output).written }

/-- Fields of a payload that may be null. -/
def fields? : Value → Option Fields
  | .object fs => some fs
  | _ => none

/-- The step of a row. -/
def toStep (row : StepRow) : ExecutionStep :=
  { row.step with input := fields? row.input, output := fields? row.output }

end StepRow

/-- The row of an execution, with those of its steps. -/
structure ExecutionRow where
  /-- The execution, its times in UTC, without its nested parts. -/
  execution : Execution
  /-- Payload of the data of the trigger. -/
  triggerData : Value
  /-- Payload of the circumstances. -/
  context : Value
  /-- Payload of the result. -/
  result : Value
  /-- The rows of the steps in order. -/
  steps : List StepRow

namespace ExecutionRow

/-- The row of an execution. -/
def ofExecution (e : Execution) : Outcome ExecutionRow := do
  let triggeredAt ← Stored.time e.triggeredAt
  let startedAt ← Stored.time? e.startedAt
  let completedAt ← Stored.time? e.completedAt
  let steps ← e.steps.mapM StepRow.ofStep
  .ok {
    execution := { e with
      triggeredAt, startedAt, completedAt, duration := Stored.real? e.duration
      triggerData := [], context := .empty, result := none, steps := [] }
    triggerData := (Value.object e.triggerData).written
    context := e.context.toValue.written
    result := (Value.ofOption .object e.result).written
    steps }

/-- The row that is kept when it is written over another one. -/
def overlay (old new : ExecutionRow) : ExecutionRow :=
  { new with
    triggerData := Stored.overlay old.triggerData new.triggerData
    context := Stored.overlay old.context new.context
    result := Stored.overlay old.result new.result }

/-- Reads the execution of a row. -/
def toExecution (row : ExecutionRow) : Outcome Execution := do
  let context ← (ExecutionContext.read row.context).toExcept.mapError .invalid
  .ok { row.execution with
    triggerData := (StepRow.fields? row.triggerData).getD []
    context
    result := StepRow.fields? row.result
    steps := row.steps.map StepRow.toStep }

/-- The identifier of the execution. -/
def id (row : ExecutionRow) : String := row.execution.id

/-- The instant at which the execution was triggered. -/
def triggered (row : ExecutionRow) : Int := row.execution.triggeredAt.instant

end ExecutionRow

/-- Whether the first of two dated identifiers comes first. -/
def isEarlier (a b : Int × String) : Bool := a.1 < b.1 || (a.1 == b.1 && (a.2 < b.2 || a.2 == b.2))

/-- The rows of rules. -/
structure RuleRows where
  /-- The rows. -/
  rows : List RuleRow

namespace RuleRows

/-- No rows. -/
def empty : RuleRows := ⟨[]⟩

/-- The row of an identifier. -/
def row? (t : RuleRows) (id : String) : Option RuleRow := t.rows.find? (·.id == id)

/-- The rule of an identifier. -/
def get (t : RuleRows) (id : String) : Outcome (Option Rule) := (t.row? id).mapM RuleRow.toRule

/-- The rules of a tenant, or all. -/
def list (t : RuleRows) (tenantId : Option String) : Outcome (List Rule) :=
  let wanted := t.rows.filter fun row => (tenantId.map (· == row.tenantId)).getD true
  (wanted.mergeSort fun a b =>
    isEarlier (a.createdAt.instant, a.id) (b.createdAt.instant, b.id)).mapM RuleRow.toRule

/-- Adds a rule. -/
def create (t : RuleRows) (r : Rule) : Outcome RuleRows :=
  if (t.row? r.id).isSome then .error (.ruleExists r.id)
  else (RuleRow.ofRule r).map fun row => ⟨t.rows ++ [row]⟩

/-- The row that is kept of a rule that is written. -/
def written (t : RuleRows) (r : Rule) : Outcome RuleRow :=
  (RuleRow.ofRule r).map fun row => (t.row? r.id).elim row (·.overlay row)

/-- Replaces the rule of the same identifier. -/
def update (t : RuleRows) (r : Rule) : Outcome RuleRows :=
  if (t.row? r.id).isSome then
    (t.written r).map fun row => ⟨t.rows.map fun s => if s.id == r.id then row else s⟩
  else .error (.nothingToUpdate r.id)

end RuleRows

/-- The rows of executions. -/
structure ExecutionRows where
  /-- The rows. -/
  rows : List ExecutionRow

namespace ExecutionRows

/-- No rows. -/
def empty : ExecutionRows := ⟨[]⟩

/-- The row of an identifier. -/
def row? (t : ExecutionRows) (id : String) : Option ExecutionRow := t.rows.find? (·.id == id)

/-- The execution of an identifier. -/
def get (t : ExecutionRows) (id : String) : Outcome (Option Execution) :=
  (t.row? id).mapM ExecutionRow.toExecution

/-- Adds an execution whose identifier is new. -/
def create (t : ExecutionRows) (e : Execution) : Outcome ExecutionRows := do
  let row ← ExecutionRow.ofExecution e
  if (t.row? e.id).isSome then .error (.duplicateKey e.id) else .ok ⟨t.rows ++ [row]⟩

/-- The row that is kept of an execution that is written. -/
def written (t : ExecutionRows) (e : Execution) : Outcome ExecutionRow :=
  (ExecutionRow.ofExecution e).map fun row => (t.row? e.id).elim row (·.overlay row)

/-- Replaces the execution of the same identifier. -/
def update (t : ExecutionRows) (e : Execution) : Outcome ExecutionRows :=
  if (t.row? e.id).isSome then
    (t.written e).map fun row => ⟨t.rows.map fun s => if s.id == e.id then row else s⟩
  else .error (.nothingToUpdate e.id)

/-- Whether a row was triggered in a period. -/
def isIn (start stop : Moment) (row : ExecutionRow) : Bool :=
  start.instant ≤ row.triggered && row.triggered < stop.instant

/-- The executions that are wanted. -/
def list (t : ExecutionRows) (q : ExecutionQuery) : Outcome (List Execution) := do
  let bounds ← q.period.mapM fun p => do
    let start ← Stored.time p.start
    let stop ← Stored.time p.stop
    Except.ok (start, stop)
  let wanted := t.rows.filter fun row =>
    row.execution.tenantId == q.tenantId &&
      (bounds.map fun (start, stop) => isIn start stop row).getD true &&
      q.accepts row.execution.ruleId row.execution.status
  (wanted.mergeSort fun a b => isEarlier (a.triggered, a.id) (b.triggered, b.id)).mapM
    ExecutionRow.toExecution

/-- How many executions of a rule were triggered on a day. -/
def count (t : ExecutionRows) (ruleId : String) (day : Date) : Outcome Nat := do
  let start := Moment.ofDate day 0 (some 0)
  let stop ← (start.add microsPerDay).mapError .time
  .ok (t.rows.countP fun row => row.execution.ruleId == ruleId && isIn start stop row)

/-- When the last execution of a rule started; attempts that never ran do not count. -/
def lastStarted (t : ExecutionRows) (ruleId : String) : Option Moment :=
  match (t.rows.filter (·.execution.ruleId == ruleId)).filterMap (·.execution.startedAt) with
  | [] => none
  | first :: rest => some (rest.foldl ExecutionTable.later first)

end ExecutionRows

end Rulebook
