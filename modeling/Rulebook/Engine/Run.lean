import Rulebook.Action.Plan
/-!
# Runs

A run is an execution under way: the actions of a rule are tried one after another or side by side,
each in a step of its own, until all are done or one fails that must not. Actions may wait for
replies; a run that waits holds what is needed to go on, and the execution as it is by then.
-/

namespace Rulebook

/-- Which step of which execution. -/
structure StepRef where
  /-- The execution. -/
  executionId : String
  /-- The place of the step among the steps of the execution. -/
  place : Nat
deriving DecidableEq, Repr

/-- What an engine works with; the state behind it is of type `σ`. The action that is tried is told
apart from equal ones by the step that it is tried for. -/
structure Environment (σ : Type) where
  /-- Begins a try of the action of a step. -/
  begin : StepRef → Action → Fields → ExecutionContext → σ → σ × Attempt
  /-- Goes on with a try when the reply that it waits for is there. -/
  resume : StepRef → Waiting → σ → σ × Attempt
  /-- Takes the reading of a rule's polled condition; `none` if conditions cannot be polled. -/
  source : Option (σ → Rule → σ × Outcome (Option Fields))

/-- The environment that services make, which treat the actions of all steps alike. -/
def Services.environment {σ : Type} (s : Services σ) : Environment σ where
  begin _ a := s.attempt a.config
  resume _ := s.resume
  source := s.source

instance {σ : Type} : Coe (Services σ) (Environment σ) := ⟨Services.environment⟩

/-- An action that waits for a reply. -/
structure OpenStep where
  /-- The action. -/
  action : Action
  /-- The place of its step among the steps of the execution. -/
  step : Nat
  /-- What it waits for. -/
  waiting : Waiting

/-- One of the actions that run side by side. -/
inductive Lane where
  /-- It waits. -/
  | waits (s : OpenStep)
  /-- It is done. -/
  | done (action : Action) (succeeded : Bool)

/-- The actions of a run that waits. -/
inductive Phase where
  /-- One of them waits, and the others come after it. -/
  | sequence (current : OpenStep) (rest : List Action)
  /-- They run side by side. -/
  | lanes (l : List Lane)

/-- The state that a run changes: that of the services, the execution, and the log. -/
structure Course (σ : Type) where
  /-- The state of the services. -/
  world : σ
  /-- The execution. -/
  execution : Execution
  /-- The notes that the run leaves. -/
  notes : List LogEntry

/-- How the trying of an action ends. -/
inductive StepEnd where
  /-- It is done. -/
  | done (succeeded : Bool)
  /-- It waits. -/
  | waits (s : OpenStep)

/-- How far the actions of a run got. -/
inductive PhaseEnd where
  /-- They are done. -/
  | done
  /-- They wait. -/
  | waits (p : Phase)

/-- The step of an action that starts. -/
def Action.newStep (a : Action) (now : Moment) : ExecutionStep :=
  { stepId := a.id, kind := .action, name := a.displayName, status := .running,
    startedAt := some now, completedAt := none, duration := none,
    input := some [("type", .ofName a.config.kind), ("config", a.config.toValue.written)],
    output := none, error := none, attempts := 1 }

namespace Execution

/-- The execution in another status, if it had not ended. -/
def moveTo (x : Execution) (status : ExecutionStatus) (now : Moment) (error : Option String) :
    Execution × Bool :=
  match x.transition status now error with
  | .ok r => r
  | .error _ => (x, false)

/-- The execution with a step for an action that starts. -/
def startStep (x : Execution) (a : Action) (now : Moment) : Execution :=
  { x with steps := x.steps ++ [a.newStep now] }

/-- The execution with a step changed. -/
def changeStep (x : Execution) (n : Nat) (change : ExecutionStep → ExecutionStep) : Execution :=
  { x with steps := x.steps.modify n change }

/-- The execution with another attempt counted in a step. -/
def countAttempt (x : Execution) (n : Nat) : Execution :=
  x.changeStep n fun s => { s with attempts := s.attempts + 1 }

/-- The execution with a step ended. -/
def finishStep (x : Execution) (n : Nat) (now : Moment) (status : StepStatus)
    (output : Option Fields) (error : Option String) : Execution :=
  x.changeStep n fun s =>
    let passed := ((now.since (s.startedAt.getD now)).toOption.getD 0)
    { s with status, completedAt := some now, duration := some (milliseconds passed), output, error }

/-- The execution that fails because of an action. -/
def failFor (x : Execution) (a : Action) (now : Moment) : Execution :=
  (x.moveTo .failed now (some ("Action failed: " ++ a.displayName))).1

end Execution

namespace Course

variable {σ : Type}

/-- The course with another attempt counted in a step. -/
def countAttempt (c : Course σ) (n : Nat) : Course σ :=
  { c with execution := c.execution.countAttempt n }

/-- The course with a step for an action that starts. -/
def start (c : Course σ) (a : Action) (now : Moment) : Course σ :=
  { c with execution := c.execution.startStep a now }

/-- The course with a step ended. -/
def finish (c : Course σ) (n : Nat) (now : Moment) (status : StepStatus) (output : Option Fields)
    (error : Option String) : Course σ :=
  { c with execution := c.execution.finishStep n now status output error }

/-- The course in which the execution fails because of an action. -/
def failFor (c : Course σ) (a : Action) (now : Moment) : Course σ :=
  { c with execution := c.execution.failFor a now }

/-- The note about an action that is tried again. -/
def retryNote (c : Course σ) (n : Nat) (f : Failure) : LogEntry :=
  let step := c.execution.steps[n]?
  ⟨.warning, "action.retry",
    [("execution_id", .text c.execution.id),
      ("step_id", .text ((step.map (·.stepId)).getD "")),
      ("attempt", .int ((step.map (·.attempts)).getD 0)), ("error", .text f.message)]⟩

end Course

/-- Whether an action that failed so may be tried again. -/
def Failure.isRetryable : Failure → Bool
  | .action _ _ => true
  | _ => false

/-- The fields of a result, if it has fields. -/
def Value.fields? : Value → Option Fields
  | .object fs => some fs
  | _ => none

/-- Whether the failure of an action ends the execution. -/
def Action.isFatal (a : Action) (succeeded : Bool) : Bool :=
  !succeeded && !a.continueOnError

/-- Whether a lane waits. -/
def Lane.isOpen : Lane → Bool
  | .waits _ => true
  | .done _ _ => false

/-- The action of a lane whose failure ends the execution. -/
def Lane.fatal? : Lane → Option Action
  | .done a succeeded => if a.isFatal succeeded then some a else none
  | .waits _ => none

namespace Environment

variable {σ : Type}

/-- Goes on after an attempt of the action of a step: tries it again while it fails and may be tried
again, at most as often as is left, unless the execution has ended. -/
def settle (v : Environment σ) (now : Moment) (a : Action) (n : Nat) :
    Nat → Attempt → Course σ → Course σ × StepEnd
  | _, .waits w, c => (c, .waits ⟨a, n, w⟩)
  | _, .over (.ok v), c => (c.finish n now .completed v.fields? none, .done true)
  | 0, .over (.error f), c => (c.finish n now .failed none (some f.message), .done false)
  | left + 1, .over (.error f), c =>
    if f.isRetryable && !c.execution.isTerminal then
      let c := { c with notes := c.notes ++ [c.retryNote n f] }
      let (world, attempt) :=
        v.begin ⟨c.execution.id, n⟩ a c.execution.triggerData c.execution.context c.world
      v.settle now a n left attempt ({ c with world }.countAttempt n)
    else (c.finish n now .failed none (some f.message), .done false)

/-- Starts the step of an action. -/
def beginStep (v : Environment σ) (now : Moment) (retries : Nat) (a : Action) (c : Course σ) :
    Course σ × StepEnd :=
  let n := c.execution.steps.length
  let c := c.start a now
  let (world, attempt) :=
    v.begin ⟨c.execution.id, n⟩ a c.execution.triggerData c.execution.context c.world
  v.settle now a n retries attempt { c with world }

/-- How often the action of a step may still be tried again. -/
def retriesLeft (retries : Nat) (c : Course σ) (n : Nat) : Nat :=
  match c.execution.steps[n]? with
  | some step => (retries + 1 - step.attempts).toNat
  | none => 0

/-- Goes on with a step when the reply that it waits for is there. -/
def resumeStep (v : Environment σ) (now : Moment) (retries : Nat) (o : OpenStep) (c : Course σ) :
    Course σ × StepEnd :=
  let (world, attempt) := v.resume ⟨c.execution.id, o.step⟩ o.waiting c.world
  v.settle now o.action o.step (retriesLeft retries c o.step) attempt { c with world }

/-- Runs actions one after another, until one fails that must not or the execution has ended. -/
def runSequence (v : Environment σ) (now : Moment) (retries : Nat) :
    List Action → Course σ → Course σ × PhaseEnd
  | [], c => (c, .done)
  | a :: rest, c =>
    if c.execution.isTerminal then (c, .done)
    else
      match v.beginStep now retries a c with
      | (c, .waits o) => (c, .waits (.sequence o rest))
      | (c, .done succeeded) =>
        if a.isFatal succeeded then (c.failFor a now, .done)
        else v.runSequence now retries rest c

/-- Starts actions side by side. -/
def startLanes (v : Environment σ) (now : Moment) (retries : Nat) :
    List Action → Course σ → Course σ × List Lane
  | [], c => (c, [])
  | a :: rest, c =>
    let (c, ended) := v.beginStep now retries a c
    let (c, more) := v.startLanes now retries rest c
    match ended with
    | .waits o => (c, .waits o :: more)
    | .done succeeded => (c, .done a succeeded :: more)

/-- The end of actions that run side by side: when all are done, the first one that must not fail
and did fails the execution. -/
def closeLanes (now : Moment) (l : List Lane) (c : Course σ) : Course σ × PhaseEnd :=
  if l.any (·.isOpen) then (c, .waits (.lanes l))
  else
    match l.findSome? (·.fatal?) with
    | some a => (c.failFor a now, .done)
    | none => (c, .done)

/-- Runs the actions of a rule. -/
def runActions (v : Environment σ) (now : Moment) (r : Rule) (c : Course σ) : Course σ × PhaseEnd :=
  let retries := r.settings.retryAttempts.toNat
  if r.settings.runInParallel then
    let (c, l) := v.startLanes now retries r.enabledActions c
    closeLanes now l c
  else v.runSequence now retries r.enabledActions c

/-- Goes on with the actions of a rule when the reply that one of them waits for is there; side by
side, they are told apart by their places. -/
def resumeActions (v : Environment σ) (now : Moment) (r : Rule) (lane : Nat) (p : Phase) (c : Course σ) :
    Course σ × PhaseEnd :=
  let retries := r.settings.retryAttempts.toNat
  match p with
  | .sequence o rest =>
    match v.resumeStep now retries o c with
    | (c, .waits o) => (c, .waits (.sequence o rest))
    | (c, .done succeeded) =>
      if o.action.isFatal succeeded then (c.failFor o.action now, .done)
      else v.runSequence now retries rest c
  | .lanes l =>
    match l[lane]? with
    | some (.waits o) =>
      match v.resumeStep now retries o c with
      | (c, .waits o) => (c, .waits (.lanes (l.set lane (.waits o))))
      | (c, .done succeeded) => closeLanes now (l.set lane (.done o.action succeeded)) c
    | _ => (c, .waits p)

end Environment

end Rulebook
