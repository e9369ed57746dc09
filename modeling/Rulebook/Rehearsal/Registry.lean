import Rulebook.Registry.Dispatch
import Rulebook.RateLimit
import Rulebook.Rehearsal.Readings
/-!
# Rehearsal of a registry

A registry whose rules are not executed: every call is written down and answered as laid out
beforehand.
-/

namespace Rulebook

/-- How a call of a rule is answered. -/
inductive Verdict where
  /-- It fails. -/
  | fails (f : Failure)
  /-- The rule ran too often; the refused execution is recorded or not. -/
  | limited (isRecorded : Bool)

/-- A registry in rehearsal. -/
structure RegistryRehearsal where
  /-- The registry. -/
  registry : Registry
  /-- What the clock shows. -/
  clock : Moment
  /-- The calls so far, in order. -/
  calls : List (String × Occasion)
  /-- The rules whose calls do not succeed. -/
  verdicts : List (String × Verdict)
  /-- The readings of polled conditions, if there are any. -/
  readings : Option Readings
  /-- The log. -/
  log : List LogEntry

namespace RegistryRehearsal

/-- Executes a rule: the call is written down and answered. -/
def execute (s : RegistryRehearsal) (ruleId : String) (o : Occasion) :
    RegistryRehearsal × Launch :=
  let s := { s with calls := s.calls ++ [(ruleId, o)] }
  let id := "exec_" ++ Decimal.intText s.calls.length
  match s.verdicts.lookup ruleId with
  | none => (s, .ended (.ok id))
  | some (.fails f) => (s, .ended (.error f))
  | some (.limited isRecorded) =>
    let reason := RateLimit.message .dailyQuota
    (s, .ended (.error (.rateLimited reason (if isRecorded then some id else none))))

/-- Takes a reading of a polled condition. -/
def take (s : RegistryRehearsal) (r : Rule) : RegistryRehearsal × Reading :=
  match s.readings with
  | some readings =>
    let (left, reading) := readings.take r.id
    ({ s with readings := some left }, reading)
  | none => (s, .ok none)

/-- Where the rules of the rehearsal are executed. -/
def host (polls : Bool) : Host RegistryRehearsal where
  registry s := s.registry
  schedule s jobs := { s with registry := { s.registry with scheduler := jobs } }
  note s notes := { s with log := s.log ++ notes }
  execute := execute
  source := if polls then some take else none

/-- Where the rules are executed in a given state. -/
def stage (s : RegistryRehearsal) : Host RegistryRehearsal := host s.readings.isSome

/-- Registers a rule. -/
def register (s : RegistryRehearsal) (r : Rule) : RegistryRehearsal × Outcome Unit :=
  let (g, result) := s.registry.register s.readings.isSome s.clock r
  ({ s with registry := g, log := s.log ++ result.notes }, result.outcome)

/-- The executions of a dispatch, none of which has to be waited for. -/
def idsOf : Progress → List String
  | .finished ids => ids
  | .waits _ _ e => e.ids

/-- Fires the jobs that are due. -/
def tick (s : RegistryRehearsal) (now : Moment) : RegistryRehearsal × Outcome (List String) :=
  let (s, p) := s.stage.tick now s
  (s, p.map idsOf)

/-- Executes the rules that an event means. -/
def event (s : RegistryRehearsal) (eventType : String) (data : Fields) (context : ExecutionContext) :
    RegistryRehearsal × Outcome (List String) :=
  let (s, p) := s.stage.event eventType data context s
  (s, p.map idsOf)

/-- Executes the rules that a call of a webhook means. -/
def webhook (s : RegistryRehearsal) (webhookId : String) (data : Fields)
    (headers : List (String × String)) : RegistryRehearsal × List String :=
  let (s, p) := s.stage.webhook webhookId data headers s
  (s, idsOf p)

/-- The note about a look at the schedules that failed. -/
def tickNote (f : Failure) : LogEntry :=
  ⟨.error, "scheduler.tick_failed", [("error", .text f.message)]⟩

/-- Looks at the schedules again and again, a number of microseconds apart. -/
def patrol (poll : Int) : Nat → RegistryRehearsal → RegistryRehearsal
  | 0, s => s
  | n + 1, s =>
    let (s, r) := s.tick s.clock
    let s := match r with
      | .ok _ => s
      | .error f => { s with log := s.log ++ [tickNote f] }
    if n = 0 then s
    else patrol poll n { s with clock := { s.clock with wall := s.clock.wall + poll } }

/-- Looks at the schedules for a length of time, from now on. -/
def runFor (s : RegistryRehearsal) (poll length : Int) : RegistryRehearsal :=
  let looks := if poll ≤ 0 then 1 else (Int.fdiv length poll + 1).toNat
  { patrol poll looks s with clock := { s.clock with wall := s.clock.wall + length } }

end RegistryRehearsal

end Rulebook
