import Rulebook.Proofs.Engine.Computation

/-!
# Operations on the core of the engine

What each operation of the engine does to its core. Operations on rules, notes and alarms leave it
(`Engine.Leaves`); closing a record replaces the execution and ends that it can be cancelled
(`Engine.close_record_core`).
-/

namespace Rulebook.Engine

variable {σ α : Type} (v : Environment σ) (now : Moment)

/-! ### What leaves the core -/

/-- Notes leave the core. -/
theorem leaves_note (notes : List LogEntry) : Leaves core (note notes : EngineM σ Unit) :=
  leaves_modify fun _ => rfl

/-- Writing a rule leaves the core. -/
theorem leaves_save_rule (r : Rule) : Leaves core (saveRule r : EngineM σ Unit) :=
  leaves_bind leaves_get fun _ => leaves_bind (leaves_lift _) fun _ => leaves_modify fun _ => rfl

/-- Registering a rule leaves the core. -/
theorem leaves_register (r : Rule) : Leaves core (register v now r) :=
  leaves_bind leaves_get fun _ => leaves_bind (leaves_modify fun _ => rfl) fun _ =>
    leaves_bind (leaves_note _) fun _ => leaves_lift _

/-- Creating a rule leaves the core. -/
theorem leaves_create_rule (d : RuleDraft) : Leaves core (createRule v now d) :=
  leaves_bind leaves_get fun _ => leaves_bind (leaves_modify fun _ => rfl) fun _ =>
    leaves_bind leaves_get fun _ => leaves_bind (leaves_lift _) fun _ =>
      leaves_bind (leaves_modify fun _ => rfl) fun _ =>
        leaves_bind (leaves_register v now _) fun _ =>
          leaves_bind (leaves_note _) fun _ => leaves_pure _

/-- Giving a rule a new definition leaves the core. -/
theorem leaves_update_rule (ruleId : String) (d : RuleDefinition) (tenantId : Option String) :
    Leaves core (updateRule v now ruleId d tenantId) :=
  leaves_bind leaves_get fun _ => leaves_bind (leaves_lift _) fun _ =>
    leaves_bind (leaves_save_rule _) fun _ => leaves_bind (leaves_register v now _) fun _ =>
      leaves_bind (leaves_note _) fun _ => leaves_pure _

/-- Taking a rule out of use leaves the core. -/
theorem leaves_deactivate_rule (ruleId : String) (tenantId : Option String) :
    Leaves core (deactivateRule now ruleId tenantId : EngineM σ Rule) :=
  leaves_bind leaves_get fun _ => leaves_bind (leaves_lift _) fun _ =>
    leaves_bind (leaves_save_rule _) fun _ => leaves_bind (leaves_modify fun _ => rfl) fun _ =>
      leaves_bind (leaves_note _) fun _ => leaves_pure _

/-- Registering rules leaves the core. -/
theorem leaves_register_all (rules : List Rule) : Leaves core (registerAll v now rules) := by
  induction rules with
  | nil => exact leaves_pure ()
  | cons r rest ih => exact leaves_bind (leaves_register v now r) fun _ => ih

/-- Registering the rules that are kept leaves the core. -/
theorem leaves_set_up : Leaves core (setUp v now) :=
  leaves_bind leaves_get fun _ => leaves_bind (leaves_lift _) fun _ =>
    leaves_bind (leaves_register_all v now _) fun _ =>
      leaves_bind (leaves_note _) fun _ => leaves_pure _

/-- Writing down in the rule how an execution went leaves the core. -/
theorem leaves_record_outcome (x : Execution) :
    Leaves core (recordOutcome x : EngineM σ Unit) := by
  refine leaves_bind leaves_get fun e => leaves_bind (leaves_lift _) fun r => ?_
  cases r with
  | none => exact leaves_pure ()
  | some r => exact leaves_bind (leaves_lift _) fun _ => leaves_save_rule _

/-! ### What changes the core -/

variable (e : Engine σ)

/-- To write an execution is to replace it in the store. -/
theorem save_execution_core (x : Execution) :
    (e.perform (saveExecution x)).1.core = { e.core with executions := e.executions.saved x } := by
  rw [saveExecution, perform_bind, perform_get]
  dsimp only
  rw [perform_bind, perform_lift, ExecutionStore.saved]
  cases e.executions.update x with
  | error f => rfl
  | ok t => rfl

/-- To record the end of a run that nobody waits for is to replace the execution. -/
theorem record_late_core (x : Execution) :
    (e.perform (recordLate x)).1.core = { e.core with executions := e.executions.saved x } := by
  rw [recordLate, perform_bind, perform_get]
  dsimp only
  rw [ExecutionStore.saved]
  cases e.executions.update x with
  | error f => rfl
  | ok t => rfl

/-- To close a record is to replace the execution, which cannot be cancelled any more. -/
theorem close_record_core (x : Execution) :
    (e.perform (closeRecord x)).1.core =
      { e.core with
        executions := e.executions.saved x, inFlight := e.inFlight.filter (· != x.id) } := by
  rw [closeRecord, land, perform_bind, perform_modify]
  dsimp only
  rw [core_bind fun _ => leaves_bind (leaves_record_outcome x) fun _ =>
    leaves_bind (leaves_note _) fun _ => leaves_pure _]
  exact save_execution_core _ x

/-- To close the record of an execution that cannot be carried out is to fail it. -/
theorem crash_core (x : Execution) (f : Failure) :
    (e.perform (crash x now f)).1.core =
      let y := (x.moveTo .failed now (some (Failure.shorten f.message))).1
      { e.core with
        executions := e.executions.saved y, inFlight := e.inFlight.filter (· != y.id) } := by
  rw [crash]
  dsimp only
  rw [land, perform_bind, perform_modify]
  dsimp only
  rw [core_bind fun _ => leaves_bind (leaves_note _) fun _ => leaves_throw f]
  exact save_execution_core _ _

end Rulebook.Engine
