import Rulebook.Execution.Basic
import Rulebook.Period
/-!
# Tables in memory

Rules and executions by identifier, in the order in which they were first stored.
-/

namespace Rulebook

/-- Which executions are wanted. -/
structure ExecutionQuery where
  /-- The tenant. -/
  tenantId : String
  /-- When they were triggered. -/
  period : Option Period
  /-- The rule. -/
  ruleId : Option String
  /-- The status. -/
  status : Option ExecutionStatus

namespace ExecutionQuery

/-- All executions of a tenant. -/
def ofTenant (tenantId : String) : ExecutionQuery := ⟨tenantId, none, none, none⟩

/-- Whether rule and status are the wanted ones. -/
def accepts (q : ExecutionQuery) (ruleId : String) (status : ExecutionStatus) : Bool :=
  (q.ruleId.map (· == ruleId)).getD true && (q.status.map (· == status)).getD true

end ExecutionQuery

/-- Rules in memory. -/
structure RuleTable where
  /-- The rules in the order of creation. -/
  rules : List Rule

namespace RuleTable

/-- The table without rules. -/
def empty : RuleTable := ⟨[]⟩

/-- The rule of an identifier. -/
def get? (t : RuleTable) (id : String) : Option Rule := t.rules.find? (·.id == id)

/-- The rules of a tenant, or all. -/
def list (t : RuleTable) (tenantId : Option String) : List Rule :=
  match tenantId with
  | some tenant => t.rules.filter (·.tenantId == tenant)
  | none => t.rules

/-- Adds a rule. -/
def create (t : RuleTable) (r : Rule) : Outcome RuleTable :=
  if (t.get? r.id).isSome then .error (.ruleExists r.id) else .ok ⟨t.rules ++ [r]⟩

/-- Replaces the rule of the same identifier. -/
def update (t : RuleTable) (r : Rule) : Outcome RuleTable :=
  if (t.get? r.id).isSome then .ok ⟨t.rules.map fun s => if s.id == r.id then r else s⟩
  else .error (.nothingToUpdate r.id)

end RuleTable

/-- Executions in memory. -/
structure ExecutionTable where
  /-- The executions in the order of creation. -/
  executions : List Execution

namespace ExecutionTable

/-- The table without executions. -/
def empty : ExecutionTable := ⟨[]⟩

/-- The execution of an identifier. -/
def get? (t : ExecutionTable) (id : String) : Option Execution := t.executions.find? (·.id == id)

/-- Replaces the execution of the same identifier. -/
def replace (t : ExecutionTable) (e : Execution) : ExecutionTable :=
  ⟨t.executions.map fun d => if d.id == e.id then e else d⟩

/-- Adds an execution, or replaces the one of the same identifier. -/
def create (t : ExecutionTable) (e : Execution) : ExecutionTable :=
  if (t.get? e.id).isSome then t.replace e else ⟨t.executions ++ [e]⟩

/-- Replaces the execution of the same identifier. -/
def update (t : ExecutionTable) (e : Execution) : Outcome ExecutionTable :=
  if (t.get? e.id).isSome then .ok (t.replace e) else .error (.nothingToUpdate e.id)

/-- Moments can be ordered only if the offsets of all are known, or those of none. -/
def comparable (moments : List Moment) : Except TimeFault Unit :=
  if moments.all (·.isAware) || moments.all (!·.isAware) then .ok () else .error .mixedOffsets

/-- The executions that are wanted, in the order in which they were triggered; those triggered at
the same time stay in the order of creation. -/
def list (t : ExecutionTable) (q : ExecutionQuery) : Except TimeFault (List Execution) := do
  let ofTenant := t.executions.filter (·.tenantId == q.tenantId)
  let inPeriod ← match q.period with
    | some p => ofTenant.filterM fun e => p.contains e.triggeredAt
    | none => .ok ofTenant
  let wanted := inPeriod.filter fun e => q.accepts e.ruleId e.status
  comparable (wanted.map (·.triggeredAt))
  .ok (wanted.mergeSort fun a b => decide (a.triggeredAt.instant ≤ b.triggeredAt.instant))

/-- How many executions of a rule were triggered on a day. -/
def count (t : ExecutionTable) (ruleId : String) (day : Date) : Except TimeFault Nat := do
  let days ← (t.executions.filter (·.ruleId == ruleId)).mapM (·.triggeredAt.utcDay)
  .ok (days.count day)

/-- The later of two moments, the first one if they are the same instant. -/
def later (a b : Moment) : Moment := if a.instant < b.instant then b else a

/-- When the last execution of a rule started; attempts that never ran do not count. -/
def lastStarted (t : ExecutionTable) (ruleId : String) : Except TimeFault (Option Moment) :=
  let starts := (t.executions.filter (·.ruleId == ruleId)).filterMap (·.startedAt)
  match starts with
  | [] => .ok none
  | first :: rest => do
    comparable starts
    .ok (some (rest.foldl later first))

end ExecutionTable

end Rulebook
