import Rulebook.Execution.Basic
import Rulebook.Period
import Rulebook.Text.Lowercase
/-!
# Metrics

Counts and rates of executions, in total, by rule, by day of UTC, and by category of error.
-/

namespace Rulebook

/-- What an error is about. -/
inductive ErrorKind where
  /-- Something took too long. -/
  | timeout
  /-- The network. -/
  | network
  /-- Missing rights. -/
  | permission
  /-- Invalid data. -/
  | validation
  /-- The database. -/
  | database
  /-- Anything else. -/
  | other
deriving DecidableEq, Repr

namespace ErrorKind

/-- The name of a kind. -/
def name : ErrorKind → String
  | timeout => "Timeout"
  | network => "Network"
  | permission => "Permission"
  | validation => "Validation"
  | database => "Database"
  | other => "Other"

/-- The words by which kinds are recognised; the first kind with a word in the text wins. -/
def words : List (ErrorKind × List String) :=
  [(timeout, ["timeout", "timed out"]),
    (network, ["network", "fetch", "connect"]),
    (permission, ["permission", "unauthorized", "forbidden"]),
    (validation, ["validation", "invalid"]),
    (database, ["database", "sql"])]

/-- The kind of an error text, in which case does not matter. -/
def ofText (error : String) : ErrorKind :=
  let text := (Text.lower error).toList
  ((words.find? fun (_, ws) => ws.any fun w => Text.occursIn w.toList text).map (·.1)).getD other

end ErrorKind

/-- How often each item occurs, in the order of first occurrences. -/
def tally {α : Type} [BEq α] (items : List α) : List (α × Nat) :=
  items.foldl (fun counts a =>
    if counts.any (·.1 == a) then
      counts.map fun (b, n) => if b == a then (b, n + 1) else (b, n)
    else counts ++ [(a, 1)]) []

/-- The counted items, most frequent first; those of equal count stay as they are. -/
def mostFrequent {α : Type} (counts : List (α × Nat)) : List (α × Nat) :=
  counts.mergeSort fun a b => decide (b.2 ≤ a.2)

namespace Execution

/-- Whether the execution completed and ran its actions. -/
def isSuccess (e : Execution) : Bool := e.status == .completed && !e.wasSkipped

/-- Whether the execution failed. -/
def isFailure (e : Execution) : Bool := e.status == .failed

/-- The error of an execution followed by those of its failed steps, with blanks between. -/
def failureText (e : Execution) : String :=
  let ofSteps := e.steps.map fun s => if s.status == .failed then s.error.getD "" else ""
  " ".intercalate ((e.error.getD "" :: ofSteps).filter (!·.isEmpty))

end Execution

/-- The executions of one rule. -/
structure RuleTally where
  /-- The rule. -/
  ruleId : String
  /-- Its name. -/
  name : String
  /-- How often it was executed. -/
  executions : Nat
  /-- The share of executions that succeeded. -/
  successRate : Float

/-- The executions of one day. -/
structure DayTally where
  /-- The day. -/
  date : Date
  /-- The executions triggered on it. -/
  executions : Nat
  /-- Those that succeeded. -/
  successes : Nat
  /-- Those that failed. -/
  failures : Nat

/-- The failures of one kind. -/
structure ErrorTally where
  /-- The kind. -/
  kind : ErrorKind
  /-- How many there are. -/
  count : Nat
  /-- Their share of all failures in percent. -/
  percentage : Int

/-- Metrics of rules and executions. -/
structure Metrics where
  /-- The number of rules. -/
  totalRules : Nat
  /-- Those in use. -/
  activeRules : Nat
  /-- The number of executions. -/
  totalExecutions : Nat
  /-- Those that succeeded. -/
  successes : Nat
  /-- Those that failed. -/
  failures : Nat
  /-- Those that completed without running actions. -/
  skipped : Nat
  /-- The mean duration in milliseconds. -/
  meanDuration : Float
  /-- The rules with the most executions. -/
  topRules : List RuleTally
  /-- The executions by day. -/
  days : List DayTally
  /-- The failures by kind. -/
  errors : List ErrorTally

namespace Metrics

/-- The most rules that are listed. -/
def topRulesLimit : Nat := 10

/-- The quotient of two counts, rounded to a binary64 number. -/
def ratio (part whole : Nat) : Float := (Binary64.nearest? part whole).getD 0

/-- The name of a rule. -/
def ruleName (rules : List Rule) (id : String) : String :=
  ((rules.reverse.find? (·.id == id)).map (·.name)).getD "Unknown Rule"

/-- The rules with the most executions. -/
def topRulesOf (rules : List Rule) (executions : List Execution) : List RuleTally :=
  ((mostFrequent (tally (executions.map (·.ruleId)))).take topRulesLimit).map fun (id, count) =>
    let successes := (executions.filter fun e => e.ruleId == id && e.isSuccess).length
    ⟨id, ruleName rules id, count, Binary64.roundPlaces (ratio successes count) 4⟩

/-- The executions by day, in the order of days. -/
def daysOf (executions : List Execution) : Except TimeFault (List DayTally) := do
  let dated ← executions.mapM fun e => e.triggeredAt.utcDay.map fun day => (day, e)
  let days := (tally (dated.map (·.1))).mergeSort fun a b => decide (a.1.toDays ≤ b.1.toDays)
  .ok (days.map fun (day, count) =>
    let ofDay := (dated.filter fun d => d.1 == day).map (·.2)
    ⟨day, count, ofDay.countP (·.isSuccess), ofDay.countP (·.isFailure)⟩)

/-- A share in percent, to the nearest whole number. -/
def percentage (part whole : Nat) : Int :=
  match Binary64.view (ratio part whole * 100) with
  | .finite x => x.roundToInt
  | _ => 0

/-- The failures by kind, most frequent first. -/
def errorsOf (executions : List Execution) : List ErrorTally :=
  let failed := executions.filter (·.isFailure)
  (mostFrequent (tally (failed.map fun e => ErrorKind.ofText e.failureText))).map fun (kind, count) =>
    ⟨kind, count, percentage count failed.length⟩

/-- The mean of durations, to two decimals; zero if there are none. -/
def meanOf (durations : List Float) : Float :=
  if durations.isEmpty then 0
  else Binary64.roundPlaces (durations.foldl (· + ·) 0 / Float.ofNat durations.length) 2

/-- The metrics of rules and of the executions triggered in a period. -/
def compute (rules : List Rule) (executions : List Execution) (period : Option Period) :
    Except TimeFault Metrics := do
  let executions ← match period with
    | some p => executions.filterM fun e => p.contains e.triggeredAt
    | none => .ok executions
  let days ← daysOf executions
  .ok {
    totalRules := rules.length
    activeRules := rules.countP (·.isActive)
    totalExecutions := executions.length
    successes := executions.countP (·.isSuccess)
    failures := executions.countP (·.isFailure)
    skipped := executions.countP (·.wasSkipped)
    meanDuration := meanOf (executions.filterMap (·.duration))
    topRules := topRulesOf rules executions
    days
    errors := errorsOf executions }

/-- The payload of metrics. -/
def toValue (m : Metrics) : Value :=
  .object [("total_rules", .int m.totalRules), ("active_rules", .int m.activeRules),
    ("total_executions", .int m.totalExecutions), ("successful_executions", .int m.successes),
    ("failed_executions", .int m.failures), ("skipped_executions", .int m.skipped),
    ("avg_execution_time", .float m.meanDuration),
    ("top_rules", .list (m.topRules.map fun r =>
      .object [("rule_id", .text r.ruleId), ("name", .text r.name),
        ("executions", .int r.executions), ("success_rate", .float r.successRate)])),
    ("execution_trends", .list (m.days.map fun d =>
      .object [("date", .text d.date.text), ("executions", .int d.executions),
        ("successes", .int d.successes), ("failures", .int d.failures)])),
    ("error_analysis", .list (m.errors.map fun e =>
      .object [("error_type", .text e.kind.name), ("count", .int e.count),
        ("percentage", .int e.percentage)]))]

end Metrics

end Rulebook
