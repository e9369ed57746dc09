import Rulebook.Proofs.Engine.Operation
import Rulebook.Proofs.Execution.Transition

/-!
# Executions in the core of the engine

What executing, going on, running out of time, cancelling and going away do to the core of an engine,
as functions of the core. They are what the computations of the engine do to it
(`Engine.execute_core`, `Engine.go_on_core`, `Engine.time_out_core`, `Engine.cancel_core`,
`Engine.abandon_core`).
-/

namespace Rulebook

/-- An execution that has started. -/
def Execution.opened (r : Rule) (id : String) (now : Moment) (data : Fields)
    (context : ExecutionContext) (triggeredBy : Option String) : Execution :=
  { Engine.pending r id now data context triggeredBy with
    status := .running, startedAt := some now }

/-- An execution that is refused. -/
def Execution.refused (r : Rule) (id : String) (now : Moment) (data : Fields)
    (context : ExecutionContext) (triggeredBy : Option String) (reason : RateLimit) : Execution :=
  ((Engine.pending r id now data context triggeredBy).moveTo .failed now (some reason.message)).1

/-- An execution that cannot be carried out. -/
def Execution.crashed (x : Execution) (now : Moment) (f : NumberFault) : Execution :=
  (x.moveTo .failed now (some (Failure.shorten (Failure.number f).message))).1

/-- An execution whose conditions do not hold. -/
def Execution.unmet (x : Execution) (now : Moment) : Execution :=
  (({ x with result := some Execution.skipped } : Execution).moveTo .completed now none).1

/-- An execution whose time has run out. -/
def Execution.expired (x : Execution) (r : Rule) (now : Moment) : Execution :=
  (x.moveTo .timeout now (some
    ("Execution timed out after " ++ Decimal.intText r.settings.timeoutSeconds ++ "s"))).1.close now

namespace Core

variable {σ : Type} (k : Core σ)

/-- The run of an execution. -/
def run? (id : String) : Option Run := k.runs.find? (·.execution.id == id)

/-- The core without the run of an execution. -/
def dropRun (id : String) : Core σ := { k with runs := k.runs.filter (·.execution.id != id) }

/-- The core with a further run. -/
def addRun (r : Run) : Core σ := { k with runs := k.runs ++ [r] }

/-- The core in which nobody waits for the run of an execution. -/
def unwatch (id : String) : Core σ :=
  { k with
    runs := k.runs.map fun x => if x.execution.id == id then { x with watch := .nobody } else x }

/-- The core with the run of an execution replaced. -/
def putRun (r : Run) : Core σ :=
  { k with runs := k.runs.map fun x => if x.execution.id == r.execution.id then r else x }

/-- The core with an execution replaced in the store. -/
def save (x : Execution) : Core σ := { k with executions := k.executions.saved x }

/-- The core in which an execution cannot be cancelled. -/
def release (id : String) : Core σ := { k with inFlight := k.inFlight.filter (· != id) }

/-- The core with the record of an execution closed. -/
def close (x : Execution) : Core σ := (k.save x).release x.id

/-- The core with the record of an execution opened. -/
def opened (x : Execution) : Core σ :=
  { k with
    executions := k.executions.created x, inFlight := k.inFlight ++ [x.id]
    executionIds := k.executionIds + 1 }

/-- The core with the record of an execution that is refused. -/
def turnedDown (x : Execution) : Core σ :=
  { k with executions := k.executions.created x, executionIds := k.executionIds + 1 }

/-- The core after an execution that has been opened went as far as it goes without waiting; its
conditions hold or not, or cannot be told. -/
def launch (v : Environment σ) (now : Moment) (r : Rule) (x : Execution) :
    Except NumberFault Bool → Core σ
  | .error f => k.close (x.crashed now f)
  | .ok false => k.close (x.unmet now)
  | .ok true =>
    match v.runActions now r ⟨k.world, x, []⟩ with
    | (c, .done) => { k with world := c.world }.close (c.execution.close now)
    | (c, .waits p) =>
      { k with world := c.world }.addRun ⟨r, c.execution, p, .caller (Engine.isTimed r)⟩

/-- The core after a run went on. -/
def goOn (v : Environment σ) (now : Moment) (id : String) (lane : Nat) : Core σ :=
  match k.run? id with
  | none => k
  | some run =>
    match v.resumeActions now run.rule lane run.phase ⟨k.world, run.execution, []⟩, run.watch with
    | (c, .waits p), _ =>
      { k with world := c.world }.putRun { run with execution := c.execution, phase := p }
    | (c, .done), .caller _ =>
      ({ k with world := c.world }.dropRun id).close (c.execution.close now)
    | (c, .done), .late => ({ k with world := c.world }.dropRun id).save c.execution
    | (c, .done), .nobody => { k with world := c.world }.dropRun id

/-- The core after the time of a run ran out. -/
def timeOut (now : Moment) (id : String) : Core σ :=
  match k.run? id with
  | none => k
  | some run =>
    if run.watch = .caller true then
      (k.putRun { run with execution := run.execution.expired run.rule now, watch := .late }).close
        (run.execution.expired run.rule now)
    else k

/-- The core after an execution was cancelled. -/
def cancel (now : Moment) (id : String) (tenantId : Option String) : Core σ :=
  match k.run? id, k.inFlight.contains id with
  | some run, true =>
    if tenantId.all (· == run.execution.tenantId) then
      let (x, moved) := run.execution.moveTo .cancelled now (some "Execution cancelled")
      let k := k.putRun { run with execution := x }
      if moved then k.save x else k
    else k
  | _, _ => k

/-- The core after the caller of a run went away. -/
def abandon (id : String) : Core σ :=
  match (k.run? id).map Run.watch with
  | some (.caller true) => (k.release id).unwatch id
  | some (.caller false) => (k.release id).dropRun id
  | _ => k.release id

end Core

namespace Engine

variable {σ : Type} (v : Environment σ) (now : Moment) (e : Engine σ)

/-- An execution that has not started is opened by starting it. -/
theorem pending_move_to (r : Rule) (id : String) (data : Fields) (context : ExecutionContext)
    (triggeredBy : Option String) :
    (pending r id now data context triggeredBy).moveTo .running now none =
      (Execution.opened r id now data context triggeredBy, true) :=
  Execution.move_to_running rfl rfl

variable (ruleId : String) (data : Fields) (context : ExecutionContext) (triggeredBy : Option String)

/-- Opening a record takes an identifier unless the rule is not in use, and gives a started execution
unless the rule ran too often. -/
theorem open_record_eq :
    e.perform (openRecord now ruleId data context triggeredBy) =
      match e.activeRule ruleId with
      | .error f => (e, .error f)
      | .ok r =>
        let id := identifier "exec" (e.executionIds + 1)
        let e' := { e with executionIds := e.executionIds + 1 }
        match RateLimit.check e.executions r.id r.settings now with
        | .error f => (e', .error f)
        | .ok (some reason) =>
          let x := Execution.refused r id now data context triggeredBy reason
          match e.executions.create x with
          | .error f => (e', .error f)
          | .ok t =>
            ({ e' with executions := t, log := e.log ++ [x.refusalNote reason] },
              .error (.rateLimited reason.message (some x.id)))
        | .ok none =>
          let x := Execution.opened r id now data context triggeredBy
          match e.executions.create x with
          | .error f => (e', .error f)
          | .ok t => ({ e' with executions := t, inFlight := e.inFlight ++ [x.id] }, .ok (r, x)) := by
  rw [openRecord, perform_bind, perform_get]
  dsimp only
  rw [perform_bind, perform_lift]
  cases e.activeRule ruleId with
  | error f => rfl
  | ok r =>
      dsimp only
      rw [perform_bind, perform_get]
      dsimp only
      rw [perform_bind, perform_modify]
      dsimp only
      rw [perform_bind, perform_get]
      dsimp only
      rw [perform_bind, perform_lift]
      rcases RateLimit.check e.executions r.id r.settings now with f | _ | reason
      · rfl
      · dsimp only
        rw [pending_move_to, perform_bind, perform_get]
        dsimp only
        rw [perform_bind, perform_lift]
        cases e.executions.create
          (Execution.opened r (identifier "exec" (e.executionIds + 1)) now data context triggeredBy)
          <;> rfl
      · dsimp only
        rw [perform_bind, perform_get]
        dsimp only
        rw [perform_bind, perform_lift, ← Execution.refused]
        cases e.executions.create
          (Execution.refused r (identifier "exec" (e.executionIds + 1)) now data context triggeredBy
            reason) <;> rfl

/-- Running the actions of a rule does to the core what it says. -/
theorem run_phase_core (r : Rule) (x : Execution) :
    (e.perform (runPhase v now r x)).1.core = e.core.launch v now r x (.ok true) := by
  rw [runPhase, limitTime, setAlarms, perform_bind, perform_modify]
  dsimp only
  rw [perform_bind, perform_get, Core.launch]
  dsimp only
  have hworld : e.core.world = e.world := rfl
  rw [hworld]
  rcases v.runActions now r ⟨e.world, x, []⟩ with ⟨c, _ | p⟩
  · dsimp only
    rw [perform_bind, perform_modify]
    dsimp only
    rw [perform_bind, note, perform_modify]
    dsimp only
    rw [core_bind fun _ => leaves_pure _, close_record_core]
    rfl
  · rfl

/-- Carrying out an execution does to the core what it says. -/
theorem carry_out_core (r : Rule) (x : Execution) :
    (e.perform (carryOut v now r x)).1.core =
      e.core.launch v now r x (Condition.allHold r.conditions x.seen) := by
  rw [carryOut, perform_bind, note, perform_modify]
  dsimp only
  rcases Condition.allHold r.conditions x.seen with f | _ | _
  · exact crash_core now _ x (.number f)
  · dsimp only
    rw [core_bind fun _ => leaves_pure _]
    exact close_record_core _ _
  · exact run_phase_core v now _ r x

/-- Executing a rule does to the core what beginning does. -/
theorem execute_begin_core :
    (e.execute v now ruleId data context triggeredBy).1.core =
      (e.perform (begin v now ruleId data context triggeredBy)).1.core := by
  rw [execute]
  rcases e.perform (begin v now ruleId data context triggeredBy) with ⟨e', f | l⟩ <;> rfl

/-- Executing a rule in use that may run opens a record and carries out the execution. -/
theorem execute_opened_core {r : Rule} {t : ExecutionStore} (hrule : e.activeRule ruleId = .ok r)
    (hrate : RateLimit.check e.executions r.id r.settings now = .ok none)
    (hcreate : e.executions.create (Execution.opened r (identifier "exec" (e.executionIds + 1)) now data
      context triggeredBy) = .ok t) :
    let x := Execution.opened r (identifier "exec" (e.executionIds + 1)) now data context triggeredBy
    (e.execute v now ruleId data context triggeredBy).1.core =
      (e.core.opened x).launch v now r x (Condition.allHold r.conditions x.seen) := by
  have hcreated : e.core.executions.created (Execution.opened r
      (identifier "exec" (e.executionIds + 1)) now data context triggeredBy) = t :=
    ExecutionStore.created_eq hcreate
  dsimp only
  rw [execute_begin_core, begin, perform_bind, open_record_eq, hrule]
  dsimp only
  rw [hrate]
  dsimp only
  rw [hcreate]
  dsimp only
  rw [carry_out_core, Core.opened, hcreated]
  rfl

/-- Executing a rule in use that ran too often leaves the record of a refused execution. -/
theorem execute_refused_core {r : Rule} {reason : RateLimit} {t : ExecutionStore}
    (hrule : e.activeRule ruleId = .ok r)
    (hrate : RateLimit.check e.executions r.id r.settings now = .ok (some reason))
    (hcreate : e.executions.create (Execution.refused r (identifier "exec" (e.executionIds + 1)) now data
      context triggeredBy reason) = .ok t) :
    (e.execute v now ruleId data context triggeredBy).1.core = e.core.turnedDown
      (Execution.refused r (identifier "exec" (e.executionIds + 1)) now data context triggeredBy reason) := by
  have hcreated : e.core.executions.created (Execution.refused r
      (identifier "exec" (e.executionIds + 1)) now data context triggeredBy reason) = t :=
    ExecutionStore.created_eq hcreate
  rw [execute_begin_core, begin, perform_bind, open_record_eq, hrule]
  dsimp only
  rw [hrate]
  dsimp only
  rw [hcreate, Core.turnedDown, hcreated]
  rfl

/-- Executing a rule does nothing to the core if the rule is not in use; else it takes an identifier, or
opens a record that is closed at once because the rule ran too often, or opens a record and carries out
the execution. -/
theorem execute_core :
    ((∃ f, e.activeRule ruleId = .error f) ∧
      (e.execute v now ruleId data context triggeredBy).1.core = e.core) ∨
    (e.execute v now ruleId data context triggeredBy).1.core =
      { e.core with executionIds := e.executionIds + 1 } ∨
    (∃ r reason, e.activeRule ruleId = .ok r ∧
      RateLimit.check e.executions r.id r.settings now = .ok (some reason) ∧
      (e.execute v now ruleId data context triggeredBy).1.core = e.core.turnedDown
        (Execution.refused r (identifier "exec" (e.executionIds + 1)) now data context triggeredBy
          reason)) ∨
    ∃ r x t, e.activeRule ruleId = .ok r ∧
      RateLimit.check e.executions r.id r.settings now = .ok none ∧
      x = Execution.opened r (identifier "exec" (e.executionIds + 1)) now data context triggeredBy ∧
      e.executions.create x = .ok t ∧
      (e.execute v now ruleId data context triggeredBy).1.core =
        (e.core.opened x).launch v now r x (Condition.allHold r.conditions x.seen) := by
  have hbegin := execute_begin_core v now e ruleId data context triggeredBy
  rw [begin, perform_bind, open_record_eq] at hbegin
  cases hrule : e.activeRule ruleId with
  | error f =>
      rw [hbegin, hrule]
      exact .inl ⟨⟨f, rfl⟩, rfl⟩
  | ok r =>
      -- the identifier is taken first, whatever the limits say
      rcases hrate : RateLimit.check e.executions r.id r.settings now with f | _ | reason
      · rw [hbegin, hrule]
        dsimp only
        rw [hrate]
        exact .inr (.inl rfl)
      · cases hcreate : e.executions.create (Execution.opened r
          (identifier "exec" (e.executionIds + 1)) now data context triggeredBy) with
        | error f =>
            rw [hbegin, hrule]
            dsimp only
            rw [hrate]
            dsimp only
            rw [hcreate]
            exact .inr (.inl rfl)
        | ok t =>
            exact .inr (.inr (.inr ⟨r, _, t, rfl, hrate, rfl, hcreate,
              execute_opened_core v now e ruleId data context triggeredBy hrule hrate hcreate⟩))
      · cases hcreate : e.executions.create (Execution.refused r
          (identifier "exec" (e.executionIds + 1)) now data context triggeredBy reason) with
        | error f =>
            rw [hbegin, hrule]
            dsimp only
            rw [hrate]
            dsimp only
            rw [hcreate]
            exact .inr (.inl rfl)
        | ok t =>
            exact .inr (.inr (.inl ⟨r, reason, rfl, hrate,
              execute_refused_core v now e ruleId data context triggeredBy hrule hrate hcreate⟩))

/-- Going away does to the core what it says. -/
theorem abandon_core (id : String) : (e.abandon id).core = e.core.abandon id := by
  rw [abandon, Core.abandon]
  dsimp only
  have hrun : e.core.run? id =
      ({ e with inFlight := e.inFlight.filter (· != id) } : Engine σ).run? id := rfl
  rw [hrun]
  rcases (({ e with inFlight := e.inFlight.filter (· != id) } : Engine σ).run? id).map Run.watch
    with _ | (_ | _) | _ | _ <;> rfl

/-- Running out of time does to the core what it says. -/
theorem time_out_core (id : String) :
    (e.perform (timeOut now id)).1.core = e.core.timeOut now id := by
  have hrun : e.core.run? id = e.run? id := rfl
  rw [timeOut, Core.timeOut, hrun, perform_bind, perform_get]
  dsimp only
  cases e.run? id with
  | none => rfl
  | some run =>
      rcases hwatch : run.watch with (_ | _) | _ | _
      · simp [hwatch]
      · simp only [hwatch, if_true]
        rw [perform_bind, putRun, perform_modify]
        dsimp only
        rw [core_bind fun _ => leaves_pure _]
        exact close_record_core _ _
      · simp [hwatch]
      · simp [hwatch]

/-- Cancelling does to the core what it says. -/
theorem cancel_core (id : String) (tenantId : Option String) :
    (e.perform (cancel now id tenantId)).1.core = e.core.cancel now id tenantId := by
  have hrun : e.core.run? id = e.run? id := rfl
  have hflight : e.core.inFlight = e.inFlight := rfl
  rw [cancel, Core.cancel, hrun, hflight, perform_bind, perform_get]
  dsimp only
  cases e.run? id with
  | none => rfl
  | some run =>
      cases e.inFlight.contains id with
      | false => rfl
      | true =>
          dsimp only
          split
          next htenant =>
            rcases run.execution.moveTo .cancelled now (some "Execution cancelled") with ⟨x, _ | _⟩
            · rfl
            · simp only [if_true]
              rw [perform_bind, putRun, perform_modify]
              dsimp only
              rw [core_bind fun _ => leaves_bind (leaves_note _) fun _ => leaves_pure _]
              exact save_execution_core _ x
          next htenant => rfl

/-- Going on does to the core what it says. -/
theorem go_on_core (id : String) (lane : Nat) :
    (e.perform (goOn v now id lane)).1.core = e.core.goOn v now id lane := by
  have hrun : e.core.run? id = e.run? id := rfl
  have hworld : e.core.world = e.world := rfl
  rw [goOn, Core.goOn, hrun, hworld, perform_bind, perform_get]
  dsimp only
  cases e.run? id with
  | none => rfl
  | some run =>
      dsimp only
      rw [perform_bind, perform_get]
      dsimp only
      rcases v.resumeActions now run.rule lane run.phase ⟨e.world, run.execution, []⟩
        with ⟨c, _ | p⟩
      · dsimp only
        rw [perform_bind, perform_modify]
        dsimp only
        rw [perform_bind, note, perform_modify]
        dsimp only
        rcases run.watch with timed | _ | _
        · dsimp only
          rw [perform_bind, dropRun, perform_modify]
          dsimp only
          rw [core_bind fun _ => leaves_pure _]
          exact close_record_core _ _
        · dsimp only
          rw [perform_bind, dropRun, perform_modify]
          dsimp only
          rw [core_bind fun _ => leaves_pure _]
          exact record_late_core _ _
        · rfl
      · dsimp only
        rw [perform_bind, perform_modify]
        dsimp only
        rw [perform_bind, note, perform_modify]
        rcases run.watch with timed | _ | _ <;> rfl

/-- The ring of an alarm does to the core what it is for. -/
theorem ring_core (t : Timer) :
    (e.ring v now t).1.core = match t with
      | .wake id lane => e.core.goOn v now id lane
      | .expire id => e.core.timeOut now id := by
  cases t with
  | wake id lane =>
      dsimp only
      rw [← go_on_core, ring]
      rcases e.perform (goOn v now id lane) with ⟨e', f | _ | _⟩ <;> rfl
  | expire id =>
      dsimp only
      rw [← time_out_core, ring]
      rcases e.perform (timeOut now id) with ⟨e', f | _ | _⟩ <;> rfl

end Engine

end Rulebook
