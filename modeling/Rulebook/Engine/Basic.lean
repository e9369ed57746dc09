import Rulebook.Engine.Run
import Rulebook.Identifier
import Rulebook.Metrics
import Rulebook.RateLimit
import Rulebook.Registry.Dispatch
import Rulebook.Rule.Library
/-!
# The engine

The engine keeps rules and executions, registers rules that are in use, and holds the runs that wait
for replies. A computation of the engine changes its state and may fail; what it did before it fails
remains.
-/

namespace Rulebook

/-- What an alarm is for. -/
inductive Timer where
  /-- The reply that a lane of a run waits for. -/
  | wake (executionId : String) (lane : Nat)
  /-- The end of the time that a run may take. -/
  | expire (executionId : String)
deriving DecidableEq, Repr

/-- An alarm that is asked for. -/
structure Alarm where
  /-- After how many microseconds it rings. -/
  delay : Int
  /-- What it is for. -/
  timer : Timer
deriving Repr

/-- Who waits for a run. -/
inductive Watch where
  /-- Its caller, no longer than the rule's time limit if it is timed. -/
  | caller (isTimed : Bool)
  /-- Nobody, but its end is recorded. -/
  | late
  /-- Nobody. -/
  | nobody
deriving DecidableEq, Repr

/-- An execution under way that waits for replies. -/
structure Run where
  /-- The rule as it was when the execution began. -/
  rule : Rule
  /-- The execution as it is by now. -/
  execution : Execution
  /-- Its actions. -/
  phase : Phase
  /-- Who waits for it. -/
  watch : Watch

/-- The engine; the state of its services is of type `σ`. -/
structure Engine (σ : Type) where
  /-- The rules. -/
  rules : RuleStore
  /-- The executions. -/
  executions : ExecutionStore
  /-- The registry. -/
  registry : Registry
  /-- The executions that can be cancelled. -/
  inFlight : List String
  /-- The runs that wait. -/
  runs : List Run
  /-- How many identifiers of rules are taken. -/
  ruleIds : Nat
  /-- How many identifiers of executions are taken. -/
  executionIds : Nat
  /-- The state of the services. -/
  world : σ
  /-- The log. -/
  log : List LogEntry
  /-- The alarms that were asked for and are not set yet. -/
  alarms : List Alarm

/-- A computation of the engine. -/
abbrev EngineM (σ α : Type) := ExceptT Failure (StateM (Engine σ)) α

namespace Engine

variable {σ : Type}

/-- An engine without rules and executions. -/
def start (rules : RuleStore) (executions : ExecutionStore) (world : σ) : Engine σ :=
  ⟨rules, executions, .empty, [], [], 0, 0, world, [], []⟩

/-- The engine after a restart: what is kept and what is under way remain, but nothing is registered
and nothing that is under way can be cancelled. -/
def restart (e : Engine σ) : Engine σ := { e with registry := .empty, inFlight := [] }

/-- Runs a computation. -/
def perform {α : Type} (e : Engine σ) (m : EngineM σ α) : Engine σ × Outcome α :=
  let (r, e) := m.run.run e
  (e, r)

/-- A computation that only may fail. -/
def lift {α : Type} (r : Outcome α) : EngineM σ α := ExceptT.mk (pure r)

/-- Leaves notes. -/
def note (notes : List LogEntry) : EngineM σ Unit :=
  modify fun e => { e with log := e.log ++ notes }

/-- Writes a changed rule. -/
def saveRule (r : Rule) : EngineM σ Unit := do
  let t ← lift ((← get).rules.update r)
  modify fun e => { e with rules := t }

/-- Writes a changed execution. -/
def saveExecution (x : Execution) : EngineM σ Unit := do
  let t ← lift ((← get).executions.update x)
  modify fun e => { e with executions := t }

/-! ### Rules -/

/-- A rule of a tenant, or of any. -/
def getRule (e : Engine σ) (ruleId : String) (tenantId : Option String) : Outcome Rule := do
  match ← e.rules.get ruleId with
  | some r => if tenantId.all (· == r.tenantId) then .ok r else .error (.ruleNotFound ruleId)
  | none => .error (.ruleNotFound ruleId)

/-- Rules of higher priority first, older ones before newer ones of equal priority. -/
def ranked (rules : List Rule) : List Rule :=
  rules.mergeSort fun a b =>
    b.priority < a.priority ||
      (a.priority == b.priority && a.createdAt.instant ≤ b.createdAt.instant)

/-- The rules of a tenant. -/
def listRules (e : Engine σ) (tenantId : String) : Outcome (List Rule) :=
  (e.rules.list (some tenantId)).map ranked

/-- Registers a rule. -/
def register (v : Environment σ) (now : Moment) (r : Rule) : EngineM σ Unit := do
  let (g, result) := (← get).registry.register v.source.isSome now r
  modify fun e => { e with registry := g }
  note result.notes
  lift result.outcome

/-- The note about a change of a rule. -/
def ruleNote (event : String) (r : Rule) (more : Fields) : LogEntry :=
  ⟨.info, event, [("rule_id", .text r.id), ("tenant_id", .text r.tenantId)] ++ more⟩

/-- Creates a rule. -/
def createRule (v : Environment σ) (now : Moment) (d : RuleDraft) : EngineM σ Rule := do
  let n := (← get).ruleIds + 1
  modify fun e => { e with ruleIds := n }
  let r : Rule := { d with id := identifier "rule" n, createdAt := now, updatedAt := now }
  let t ← lift ((← get).rules.create r)
  modify fun e => { e with rules := t }
  register v now r
  note [ruleNote "rule.created" r [("name", .text r.name)]]
  return r

/-- A rule with a new definition; who made it and how its executions went stay as they are. -/
def redefine (r : Rule) (d : RuleDefinition) (now : Moment) : Rule :=
  { d with
    metadata := { r.metadata with category := d.metadata.category, tags := d.metadata.tags }
    tenantId := r.tenantId, id := r.id, createdAt := r.createdAt, updatedAt := now }

/-- Gives a rule a new definition. -/
def updateRule (v : Environment σ) (now : Moment) (ruleId : String) (d : RuleDefinition)
    (tenantId : Option String) : EngineM σ Rule := do
  let existing ← lift ((← get).getRule ruleId tenantId)
  let r := redefine existing d now
  saveRule r
  register v now r
  note [ruleNote "rule.updated" r []]
  return r

/-- Takes a rule out of use. -/
def deactivateRule (now : Moment) (ruleId : String) (tenantId : Option String) : EngineM σ Rule := do
  let existing ← lift ((← get).getRule ruleId tenantId)
  let r := { existing with isActive := false, updatedAt := now }
  saveRule r
  modify fun e => { e with registry := e.registry.unregister r.id }
  note [ruleNote "rule.deactivated" r []]
  return r

/-- Registers rules in order. -/
def registerAll (v : Environment σ) (now : Moment) : List Rule → EngineM σ Unit
  | [] => pure ()
  | r :: rest => do
    register v now r
    registerAll v now rest

/-- Registers the rules that are kept and tells how many are in use. -/
def setUp (v : Environment σ) (now : Moment) : EngineM σ Nat := do
  let rules ← lift ((← get).rules.list none)
  registerAll v now rules
  let count := rules.countP (·.isActive)
  note [⟨.info, "triggers.registered", [("rules", .int count)]⟩]
  return count

/-! ### Queries -/

/-- An execution of a tenant, or of any. -/
def getExecution (e : Engine σ) (executionId : String) (tenantId : Option String) :
    Outcome Execution := do
  match ← e.executions.get executionId with
  | some x =>
    if tenantId.all (· == x.tenantId) then .ok x else .error (.executionNotFound executionId)
  | none => .error (.executionNotFound executionId)

/-- The executions that are wanted, the latest first. -/
def listExecutions (e : Engine σ) (q : ExecutionQuery) : Outcome (List Execution) :=
  (e.executions.list q).map List.reverse

/-- The length of the period that metrics are about if none is given: thirty days. -/
def metricsWindow : Int := 30 * microsPerDay

/-- The period up to a moment. -/
def periodUntil (now : Moment) : Except TimeFault Period := do
  let start ← now.add (-metricsWindow)
  let stop ← now.add microsPerSecond
  .ok ⟨start, stop⟩

/-- The metrics of a tenant. -/
def metrics (e : Engine σ) (now : Moment) (tenantId : String) (period : Option Period) :
    Outcome Metrics := do
  let period ← match period with
    | some p => .ok p
    | none => (periodUntil now).mapError .time
  let rules ← e.rules.list (some tenantId)
  let executions ← e.executions.list ⟨tenantId, some period, none, none⟩
  (Metrics.compute rules executions (some period)).mapError .time

end Engine

end Rulebook
