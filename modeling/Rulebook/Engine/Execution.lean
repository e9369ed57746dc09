import Rulebook.Engine.Basic
/-!
# Executing rules

To execute a rule is to open a record, to check the conditions, to run the actions, and to close the
record. Between the opening and the closing the actions may wait; meanwhile the execution can be
cancelled, and its time may run out, upon which the record is closed while the action under way is
left to finish.
-/

namespace Rulebook

/-- A mean with another sample, rounded. The samples are not kept: those before it add up to the mean times their
number. -/
def rollingMean {α : Type} [Add α] [Mul α] [Div α] (round : α → α) (mean before sample after : α) : α :=
  round ((mean * before + sample) / after)

/-- The metadata of a rule after another execution. -/
def RuleMetadata.recording (m : RuleMetadata) (x : Execution) : Outcome RuleMetadata :=
  let count := m.executionCount + 1
  match Binary64.ofInt? m.executionCount, Binary64.ofInt? count with
  | some before, some after =>
    if count = 0 then .error .divisionByZero
    else
      let success : Float := if x.status = .completed then 1 else 0
      .ok { m with
        successRate := rollingMean (Binary64.roundPlaces · 4) m.successRate before success after
        avgExecutionTime :=
          rollingMean (Binary64.roundPlaces · 2) m.avgExecutionTime before (x.duration.getD 0) after
        executionCount := count
        lastExecuted := some x.triggeredAt }
  | _, _ => .error (.number .tooLargeForFloat)

namespace Execution

/-- The result of an execution whose actions are done. -/
def summary (x : Execution) : Fields :=
  let count (s : StepStatus) : Value := .int (x.steps.countP fun step => step.status = s)
  [("steps_total", .int x.steps.length), ("steps_completed", count .completed),
    ("steps_failed", count .failed)]

/-- The result of an execution whose conditions do not hold. -/
def skipped : Fields := [("skipped", .bool true), ("reason", .text "Conditions not met")]

/-- What the conditions of the rule see. -/
def seen (x : Execution) : Value := .object (evaluationData x.triggerData (some x.context))

/-- The execution after its actions: completed, unless it has ended otherwise. -/
def close (x : Execution) (now : Moment) : Execution :=
  match x.moveTo .completed now none with
  | (x, true) => { x with result := some x.summary }
  | (x, false) => x

/-- The note about an execution that has ended. -/
def endNote (x : Execution) : LogEntry :=
  ⟨if x.status = .completed then .info else .warning, "execution." ++ Enumeration.name x.status,
    [("execution_id", .text x.id), ("rule_id", .text x.ruleId),
      ("triggered_by", .text x.triggeredBy), ("duration_ms", .ofOption .float x.duration),
      ("steps", .int x.steps.length), ("error", .ofOption .text x.error)]⟩

/-- The note about an execution that could not be carried out. -/
def crashNote (x : Execution) : LogEntry :=
  ⟨.error, "execution.crashed",
    [("execution_id", .text x.id), ("rule_id", .text x.ruleId), ("error", .ofOption .text x.error)]⟩

/-- The note about an execution that was refused. -/
def refusalNote (x : Execution) (reason : RateLimit) : LogEntry :=
  ⟨.warning, "execution.rate_limited",
    [("execution_id", .text x.id), ("rule_id", .text x.ruleId), ("reason", .text reason.message)]⟩

/-- The note about an execution that was cancelled. -/
def cancelNote (x : Execution) : LogEntry :=
  ⟨.info, "execution.cancelled", [("execution_id", .text x.id), ("rule_id", .text x.ruleId)]⟩

end Execution

namespace Phase

/-- The alarms for the replies that actions wait for. -/
def alarms (executionId : String) : Phase → List Alarm
  | .sequence o _ => [⟨o.waiting.delay, .wake executionId 0⟩]
  | .lanes l => l.zipIdx.filterMap fun (lane, n) =>
    match lane with
    | .waits o => some ⟨o.waiting.delay, .wake executionId n⟩
    | .done _ _ => none

/-- The alarms for the reply that a lane waits for. -/
def alarmsOf (executionId : String) (lane : Nat) (p : Phase) : List Alarm :=
  match p with
  | .sequence _ _ => p.alarms executionId
  | .lanes _ => (p.alarms executionId).filter fun a => a.timer == .wake executionId lane

end Phase

namespace Engine

variable {σ : Type}

/-- Sets alarms. -/
def setAlarms (alarms : List Alarm) : EngineM σ Unit :=
  modify fun e => { e with alarms := e.alarms ++ alarms }

/-- Forgets that an execution can be cancelled. -/
def land (executionId : String) : EngineM σ Unit :=
  modify fun e => { e with inFlight := e.inFlight.filter (· != executionId) }

/-- The run of an execution. -/
def run? (e : Engine σ) (executionId : String) : Option Run :=
  e.runs.find? (·.execution.id == executionId)

/-- Drops the run of an execution. -/
def dropRun (executionId : String) : EngineM σ Unit :=
  modify fun e => { e with runs := e.runs.filter (·.execution.id != executionId) }

/-- Replaces the run of an execution. -/
def putRun (r : Run) : EngineM σ Unit :=
  modify fun e =>
    { e with runs := e.runs.map fun x => if x.execution.id == r.execution.id then r else x }

/-- Writes down how an execution went in the metadata of its rule, if there still is one. -/
def recordOutcome (x : Execution) : EngineM σ Unit := do
  match ← lift ((← get).rules.get x.ruleId) with
  | none => pure ()
  | some r =>
    let metadata ← lift (r.metadata.recording x)
    saveRule { r with metadata }

/-- Closes the record of an execution that has ended. -/
def closeRecord (x : Execution) : EngineM σ String := do
  land x.id
  saveExecution x
  recordOutcome x
  note [x.endNote]
  return x.id

/-- Closes the record of an execution that cannot be carried out. -/
def crash (x : Execution) (now : Moment) (f : Failure) : EngineM σ Launch := do
  let (x, _) := x.moveTo .failed now (some (Failure.shorten f.message))
  land x.id
  saveExecution x
  note [x.crashNote]
  throw f

/-- What started an execution: what is said, what the circumstances say, or a manual call. -/
def starter (triggeredBy : Option String) (context : ExecutionContext) : String :=
  match triggeredBy.filter (!·.isEmpty), Fields.get? context.metadata "triggered_by" with
  | some t, _ => t
  | none, some v => if v.isTruthy then v.display else "manual"
  | none, none => "manual"

/-- The execution of a rule that has not started. -/
def pending (r : Rule) (id : String) (now : Moment) (data : Fields) (context : ExecutionContext)
    (triggeredBy : Option String) : Execution :=
  { id, ruleId := r.id, tenantId := r.tenantId, triggeredBy := starter triggeredBy context,
    triggeredAt := now, status := .pending, startedAt := none, completedAt := none,
    duration := none, triggerData := data, context, steps := [], error := none, result := none }

/-- A rule in use. -/
def activeRule (e : Engine σ) (ruleId : String) : Outcome Rule := do
  match ← e.rules.get ruleId with
  | none => .error (.ruleNotFound ruleId)
  | some r => if r.isActive then .ok r else .error (.ruleInactive ruleId)

/-- Opens the record of an execution; if the rule ran too often, the record is closed at once. -/
def openRecord (now : Moment) (ruleId : String) (data : Fields) (context : ExecutionContext)
    (triggeredBy : Option String) : EngineM σ (Rule × Execution) := do
  let r ← lift ((← get).activeRule ruleId)
  let n := (← get).executionIds + 1
  modify fun e => { e with executionIds := n }
  let x := pending r (identifier "exec" n) now data context triggeredBy
  let reason ← lift (RateLimit.check (← get).executions r.id r.settings now)
  match reason with
  | some reason =>
    let (x, _) := x.moveTo .failed now (some reason.message)
    let t ← lift ((← get).executions.create x)
    modify fun e => { e with executions := t }
    note [x.refusalNote reason]
    throw (.rateLimited reason.message (some x.id))
  | none =>
    let (x, _) := x.moveTo .running now none
    let t ← lift ((← get).executions.create x)
    modify fun e => { e with executions := t, inFlight := e.inFlight ++ [x.id] }
    return (r, x)

/-- Whether a rule limits the time of its executions. -/
def isTimed (r : Rule) : Bool := 0 < r.settings.timeoutSeconds

/-- Sets the alarm for the end of the time that an execution may take, if its rule limits it. -/
def limitTime (r : Rule) (x : Execution) : EngineM σ Unit :=
  setAlarms <|
    if isTimed r then [⟨r.settings.timeoutSeconds * microsPerSecond, .expire x.id⟩] else []

/-- Runs the actions of a rule. -/
def runPhase (v : Environment σ) (now : Moment) (r : Rule) (x : Execution) : EngineM σ Launch := do
  limitTime r x
  let (c, ended) := v.runActions now r ⟨(← get).world, x, []⟩
  modify fun e => { e with world := c.world }
  note c.notes
  match ended with
  | .done => return .ended (.ok (← closeRecord (c.execution.close now)))
  | .waits p =>
    setAlarms (p.alarms x.id)
    modify fun e => { e with runs := e.runs ++ [⟨r, c.execution, p, .caller (isTimed r)⟩] }
    return .underway x.id

/-- Carries out an execution that has been opened, as far as it goes without waiting. -/
def carryOut (v : Environment σ) (now : Moment) (r : Rule) (x : Execution) : EngineM σ Launch := do
  note (Condition.notes x.seen r.conditions)
  match Condition.allHold r.conditions x.seen with
  | .error f => crash x now (.number f)
  | .ok false =>
    let (x, _) := { x with result := some Execution.skipped }.moveTo .completed now none
    return .ended (.ok (← closeRecord x))
  | .ok true => runPhase v now r x

/-- Begins the execution of a rule. -/
def begin (v : Environment σ) (now : Moment) (ruleId : String) (data : Fields)
    (context : ExecutionContext) (triggeredBy : Option String) : EngineM σ Launch := do
  let (r, x) ← openRecord now ruleId data context triggeredBy
  carryOut v now r x

/-- Executes a rule, as far as it goes without waiting. -/
def execute (e : Engine σ) (v : Environment σ) (now : Moment) (ruleId : String) (data : Fields)
    (context : ExecutionContext) (triggeredBy : Option String) : Engine σ × Launch :=
  match e.perform (begin v now ruleId data context triggeredBy) with
  | (e, .ok l) => (e, l)
  | (e, .error f) => (e, .ended (.error f))

/-- Records the end of a run for which nobody waits any more. -/
def recordLate (x : Execution) : EngineM σ Unit := do
  match (← get).executions.update x with
  | .ok t => modify fun e => { e with executions := t }
  | .error _ => pure ()

/-- Goes on with a run when the reply that a lane waits for is there; answers the identifier if this
ends the call of its caller. -/
def goOn (v : Environment σ) (now : Moment) (executionId : String) (lane : Nat) :
    EngineM σ (Option String) := do
  let some run := (← get).run? executionId | return none
  let (c, ended) := v.resumeActions now run.rule lane run.phase ⟨(← get).world, run.execution, []⟩
  modify fun e => { e with world := c.world }
  note c.notes
  match ended, run.watch with
  | .waits p, _ =>
    setAlarms (p.alarmsOf executionId lane)
    putRun { run with execution := c.execution, phase := p }
    return none
  | .done, .caller _ =>
    dropRun executionId
    return some (← closeRecord (c.execution.close now))
  | .done, .late =>
    dropRun executionId
    recordLate c.execution
    return none
  | .done, .nobody =>
    dropRun executionId
    return none

/-- Ends the time of a run: its caller gets the identifier, and the actions go on without it. -/
def timeOut (now : Moment) (executionId : String) : EngineM σ (Option String) := do
  let some run := (← get).run? executionId | return none
  match run.watch with
  | .caller true =>
    let limit := Decimal.intText run.rule.settings.timeoutSeconds
    let (x, _) := run.execution.moveTo .timeout now (some ("Execution timed out after " ++ limit ++ "s"))
    let x := x.close now
    putRun { run with execution := x, watch := .late }
    return some (← closeRecord x)
  | _ => return none

/-- What the ring of an alarm does to the engine; the call that it ends is answered with its
outcome. -/
def ring (e : Engine σ) (v : Environment σ) (now : Moment) (t : Timer) :
    Engine σ × Option (String × Outcome String) :=
  let (executionId, m) := match t with
    | .wake executionId lane => (executionId, goOn v now executionId lane)
    | .expire executionId => (executionId, timeOut now executionId)
  match e.perform m with
  | (e, .ok none) => (e, none)
  | (e, .ok (some id)) => (e, some (executionId, .ok id))
  | (e, .error f) => (e, some (executionId, .error f))

/-- Whether an alarm still is for something. -/
def awaits (e : Engine σ) (t : Timer) : Bool :=
  match t with
  | .wake executionId _ => (e.run? executionId).isSome
  | .expire executionId =>
    match e.run? executionId with
    | some run => run.watch == .caller true
    | none => false

/-- The engine when the caller of a run goes away: a timed run goes on and is not recorded, any other
is broken off. -/
def abandon (e : Engine σ) (executionId : String) : Engine σ :=
  let e := { e with inFlight := e.inFlight.filter (· != executionId) }
  match (e.run? executionId).map Run.watch with
  | some (.caller true) =>
    { e with runs := e.runs.map fun x =>
      if x.execution.id == executionId then { x with watch := .nobody } else x }
  | some (.caller false) => { e with runs := e.runs.filter (·.execution.id != executionId) }
  | _ => e

/-- Cancels an execution under way; any other is only looked up. -/
def cancel (now : Moment) (executionId : String) (tenantId : Option String) :
    EngineM σ Execution := do
  let e ← get
  match e.run? executionId, e.inFlight.contains executionId with
  | some run, true =>
    if tenantId.all (· == run.execution.tenantId) then
      let (x, moved) := run.execution.moveTo .cancelled now (some "Execution cancelled")
      putRun { run with execution := x }
      if moved then
        saveExecution x
        note [x.cancelNote]
      return x
    else throw (.executionNotFound executionId)
  | _, _ => lift (e.getExecution executionId tenantId)

/-- Where the rules of the engine are executed. -/
def host (v : Environment σ) (now : Moment) : Host (Engine σ) where
  registry e := e.registry
  schedule e jobs := { e with registry := { e.registry with scheduler := jobs } }
  note e notes := { e with log := e.log ++ notes }
  execute e ruleId o := e.execute v now ruleId o.data o.context (some o.triggeredBy)
  source := v.source.map fun reading e r =>
    let (world, x) := reading e.world r
    ({ e with world }, x)

end Engine

end Rulebook
