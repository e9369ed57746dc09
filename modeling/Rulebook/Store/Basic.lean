import Rulebook.Store.Sql
import Rulebook.Text.Lowercase
/-!
# Stores

The rules and executions that a service keeps, in memory or in a database. A failed operation leaves
the store as it was.
-/

namespace Rulebook

/-- Where rules are kept. -/
inductive RuleStore where
  /-- In memory. -/
  | memory (t : RuleTable)
  /-- In a database. -/
  | sql (t : RuleRows)

namespace RuleStore

/-- The rule of an identifier. -/
def get : RuleStore → String → Outcome (Option Rule)
  | memory t, id => .ok (t.get? id)
  | sql t, id => t.get id

/-- The rules of a tenant, or all. -/
def list : RuleStore → Option String → Outcome (List Rule)
  | memory t, tenantId => .ok (t.list tenantId)
  | sql t, tenantId => t.list tenantId

/-- Adds a rule. -/
def create : RuleStore → Rule → Outcome RuleStore
  | memory t, r => (t.create r).map memory
  | sql t, r => (t.create r).map sql

/-- Replaces the rule of the same identifier. -/
def update : RuleStore → Rule → Outcome RuleStore
  | memory t, r => (t.update r).map memory
  | sql t, r => (t.update r).map sql

end RuleStore

/-- Where executions are kept. -/
inductive ExecutionStore where
  /-- In memory. -/
  | memory (t : ExecutionTable)
  /-- In a database. -/
  | sql (t : ExecutionRows)

namespace ExecutionStore

/-- The execution of an identifier. -/
def get : ExecutionStore → String → Outcome (Option Execution)
  | memory t, id => .ok (t.get? id)
  | sql t, id => t.get id

/-- Adds an execution. -/
def create : ExecutionStore → Execution → Outcome ExecutionStore
  | memory t, e => .ok (memory (t.create e))
  | sql t, e => (t.create e).map sql

/-- Replaces the execution of the same identifier. -/
def update : ExecutionStore → Execution → Outcome ExecutionStore
  | memory t, e => (t.update e).map memory
  | sql t, e => (t.update e).map sql

/-- The executions that are wanted. -/
def list : ExecutionStore → ExecutionQuery → Outcome (List Execution)
  | memory t, q => (t.list q).mapError .time
  | sql t, q => t.list q

/-- How many executions of a rule were triggered on a day. -/
def count : ExecutionStore → String → Date → Outcome Nat
  | memory t, ruleId, day => (t.count ruleId day).mapError .time
  | sql t, ruleId, day => t.count ruleId day

/-- When the last execution of a rule started. -/
def lastStarted : ExecutionStore → String → Outcome (Option Moment)
  | memory t, ruleId => (t.lastStarted ruleId).mapError .time
  | sql t, ruleId => .ok (t.lastStarted ruleId)

end ExecutionStore

/-- Whether a database address names a database that lives in memory. -/
def isMemoryAddress (address : String) : Bool :=
  let text := Text.lower address
  text == "sqlite://" || text == "sqlite:///" || Text.occursIn ":memory:".toList text.toList

end Rulebook
