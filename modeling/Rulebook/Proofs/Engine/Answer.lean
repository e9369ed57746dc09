import Rulebook.Proofs.Engine.Act
import Rulebook.Proofs.Fault

/-!
# How calls are answered

A call of `Engine.execute` is answered at once, or later by the ring of an alarm (`Act.answer`). What the
answer is depends on the version with which the record is closed, on whether the store can keep it, and
on whether the outcome can be recorded in the rule (`Engine.carry_out_answer`, `Engine.go_on_answer`,
`Engine.time_out_answer`).
-/

namespace Rulebook

namespace RuleStore

/-- The store gives back rules and keeps them when their metadata changes. -/
structure Answers (s : RuleStore) : Prop where
  found : ∀ ruleId, ∃ r, s.get ruleId = .ok r
  kept : ∀ ruleId r m, s.get ruleId = .ok (some r) → ∃ t, s.update { r with metadata := m } = .ok t

/-- Why no further execution of a rule can be counted, if there is a reason. -/
def fault? (s : RuleStore) (ruleId : String) : Option Failure :=
  match s.get ruleId with
  | .ok (some r) => r.metadata.fault?
  | _ => none

/-- The answer when the record of an execution is closed: its identifier, unless it cannot be counted. -/
def answerTo (s : RuleStore) (x : Execution) : Outcome String :=
  match s.fault? x.ruleId with
  | some f => .error f
  | none => .ok x.id

end RuleStore

/-- A rule is not found or not in use, or ran too often. -/
def Failure.isExpected : Failure → Bool
  | .ruleNotFound _ | .ruleInactive _ | .rateLimited _ _ => true
  | _ => false

/-- The execution that an alarm is about. -/
def Timer.executionId : Timer → String
  | wake executionId _ => executionId
  | expire executionId => executionId

/-- The answer to a call that has been made, if it is answered at once. -/
def Launch.answer? : Launch → Option (Outcome String)
  | ended r => some r
  | underway _ => none

/-- The answer to a call of `Engine.execute`, if an act ends one. -/
def Act.answer {σ : Type} (v : Environment σ) (now : Moment) (e : Engine σ) :
    Act → Option (Outcome String)
  | execute ruleId data context triggeredBy =>
    (e.execute v now ruleId data context triggeredBy).2.answer?
  | ring t => (e.ring v now t).2.map (·.2)
  | _ => none

/-- The version with which the record of an execution is closed that is carried out, if that is done
without waiting; its conditions hold or not, or cannot be told. -/
def Environment.launched? {σ : Type} (v : Environment σ) (now : Moment) (world : σ) (r : Rule)
    (x : Execution) : Except NumberFault Bool → Option Execution
  | .error f => some (x.crashed now f)
  | .ok false => some (x.unmet now)
  | .ok true =>
    match v.runActions now r ⟨world, x, []⟩ with
    | (c, .done) => some (c.execution.close now)
    | (_, .waits _) => none

/-- The version with which the record of a run is closed for its caller when it goes on, if that ends
its actions. -/
def Environment.returned? {σ : Type} (v : Environment σ) (now : Moment) (world : σ) (run : Run)
    (lane : Nat) : Option Execution :=
  match v.resumeActions now run.rule lane run.phase ⟨world, run.execution, []⟩, run.watch with
  | (c, .done), .caller _ => some (c.execution.close now)
  | _, _ => none

/-- The version with which the record of a run is closed for its caller when an alarm rings, if it is. -/
def Engine.closed? {σ : Type} (v : Environment σ) (now : Moment) (e : Engine σ) :
    Timer → Option Execution
  | .wake id lane => (e.run? id).bind fun run => v.returned? now e.world run lane
  | .expire id => (e.run? id).bind fun run =>
    if run.watch = .caller true then some (run.execution.expired run.rule now) else none

namespace Engine

variable {σ : Type} {v : Environment σ} {now : Moment} {e : Engine σ} {x : Execution}

/-- Closing a record that the store can keep fails exactly if the execution cannot be counted. -/
theorem close_record_answer (hrules : e.rules.Answers)
    (hstore : ∃ t, e.executions.update x = .ok t) :
    (e.perform (closeRecord x)).2 = e.rules.answerTo x := by
  obtain ⟨t, ht⟩ := hstore
  obtain ⟨found, hfound⟩ := hrules.found x.ruleId
  rw [RuleStore.answerTo, RuleStore.fault?, hfound, closeRecord, land, perform_bind, perform_modify]
  dsimp only
  rw [saveExecution, perform_bind, perform_bind, perform_get]
  dsimp only
  rw [perform_bind, perform_lift, ht]
  dsimp only
  rw [perform_modify]
  dsimp only
  rw [perform_bind, recordOutcome, perform_bind, perform_get]
  dsimp only
  rw [perform_bind, perform_lift, hfound]
  dsimp only
  cases found with
  | none => rfl
  | some r =>
      obtain ⟨f, hfault, hrecord⟩ | ⟨hfault, m, hrecord⟩ := r.metadata.recording_cases x
      · dsimp only
        rw [hfault, perform_bind, perform_lift, hrecord]
      · obtain ⟨s, hs⟩ := hrules.kept _ _ m hfound
        dsimp only
        rw [hfault, perform_bind, perform_lift, hrecord]
        dsimp only
        rw [saveRule, perform_bind, perform_get]
        dsimp only
        rw [perform_bind, perform_lift, hs]
        rfl

/-- An execution that cannot be carried out fails with the reason, if the store can keep its record. -/
theorem crash_answer {f : Failure}
    (hstore : ∃ t, e.executions.update
      (x.moveTo .failed now (some (Failure.shorten f.message))).1 = .ok t) :
    (e.perform (crash x now f)).2 = .error f := by
  obtain ⟨t, ht⟩ := hstore
  rw [crash]
  dsimp only
  rw [land, perform_bind, perform_modify]
  dsimp only
  rw [saveExecution, perform_bind, perform_bind, perform_get]
  dsimp only
  rw [perform_bind, perform_lift, ht]
  rfl

/-- Carrying out an execution whose record the store can keep fails with the fault of its conditions, or
because the execution cannot be counted. -/
theorem carry_out_answer {r : Rule} (hrules : e.rules.Answers)
    (hstore : ∀ y, v.launched? now e.world r x (Condition.allHold r.conditions x.seen) = some y →
      ∃ t, e.executions.update y = .ok t) :
    (e.perform (carryOut v now r x)).2 =
      match Condition.allHold r.conditions x.seen with
      | .error f => .error (.number f)
      | .ok b => match v.launched? now e.world r x (.ok b) with
        | some y => (e.rules.answerTo y).map fun id => .ended (.ok id)
        | none => .ok (.underway x.id) := by
  rw [carryOut, perform_bind, note, perform_modify]
  dsimp only
  generalize Condition.allHold r.conditions x.seen = conditions at hstore ⊢
  rcases conditions with f | _ | _
  · exact crash_answer (hstore _ rfl)
  · exact (perform_bind_pure _ _ _).trans
      (congrArg (Except.map _) (close_record_answer hrules (hstore _ rfl)))
  · dsimp only
    rw [runPhase, limitTime, setAlarms, perform_bind, perform_modify]
    dsimp only
    rw [perform_bind, perform_get]
    dsimp only
    unfold Environment.launched? at hstore ⊢
    dsimp only at hstore ⊢
    rcases hrun : v.runActions now r ⟨e.world, x, []⟩ with ⟨c, _ | p⟩ <;> rw [hrun] at hstore
    · dsimp only at hstore ⊢
      rw [perform_bind, perform_modify]
      dsimp only
      rw [perform_bind, note, perform_modify]
      exact (perform_bind_pure _ _ _).trans
        (congrArg (Except.map _) (close_record_answer hrules (hstore _ rfl)))
    · rfl

/-- Going on with a run is answered when its actions are done and its caller waits. -/
theorem go_on_answer (hrules : e.rules.Answers) (id : String) (lane : Nat)
    (hstore : ∀ y, e.closed? v now (.wake id lane) = some y → ∃ t, e.executions.update y = .ok t) :
    (e.perform (goOn v now id lane)).2 = match e.closed? v now (.wake id lane) with
      | some y => (e.rules.answerTo y).map some
      | none => .ok none := by
  rw [goOn, perform_bind, perform_get]
  dsimp only
  unfold closed? at hstore ⊢
  dsimp only at hstore ⊢
  cases hrun : e.run? id with
  | none => rfl
  | some run =>
      rw [hrun] at hstore
      dsimp only [Option.bind_some] at hstore ⊢
      rw [perform_bind, perform_get]
      dsimp only
      unfold Environment.returned? at hstore ⊢
      rcases hresume : v.resumeActions now run.rule lane run.phase ⟨e.world, run.execution, []⟩
        with ⟨c, _ | p⟩ <;> rw [hresume] at hstore
      · dsimp only at hstore ⊢
        rw [perform_bind, perform_modify]
        dsimp only
        rw [perform_bind, note, perform_modify]
        dsimp only
        rcases hwatch : run.watch with timed | _ | _ <;> rw [hwatch] at hstore
        · dsimp only at hstore ⊢
          rw [perform_bind, dropRun, perform_modify]
          exact (perform_bind_pure _ _ _).trans
            (congrArg (Except.map _) (close_record_answer hrules (hstore _ rfl)))
        · dsimp only
          rw [perform_bind, dropRun, perform_modify]
          dsimp only
          rw [perform_bind, recordLate, perform_bind, perform_get]
          dsimp only
          cases e.executions.update c.execution <;> rfl
        · rfl
      · dsimp only
        rw [perform_bind, perform_modify]
        dsimp only
        rw [perform_bind, note, perform_modify]
        rcases run.watch with timed | _ | _ <;> rfl

/-- The end of the time of a run is answered if its caller waits for it. -/
theorem time_out_answer (hrules : e.rules.Answers) (id : String)
    (hstore : ∀ y, e.closed? v now (.expire id) = some y → ∃ t, e.executions.update y = .ok t) :
    (e.perform (timeOut now id)).2 = match e.closed? v now (.expire id) with
      | some y => (e.rules.answerTo y).map some
      | none => .ok none := by
  rw [timeOut, perform_bind, perform_get]
  dsimp only
  unfold closed? at hstore ⊢
  dsimp only at hstore ⊢
  cases hrun : e.run? id with
  | none => rfl
  | some run =>
      rw [hrun] at hstore
      dsimp only [Option.bind_some] at hstore ⊢
      by_cases hwatch : run.watch = .caller true
      · rw [if_pos hwatch] at hstore ⊢
        rw [hwatch]
        dsimp only
        rw [perform_bind, putRun, perform_modify]
        exact (perform_bind_pure _ _ _).trans
          (congrArg (Except.map _) (close_record_answer hrules (hstore _ rfl)))
      · rw [if_neg hwatch]
        rcases hcases : run.watch with (_ | _) | _ | _
        · rfl
        · exact absurd hcases hwatch
        · rfl
        · rfl

/-- What the ring of an alarm has to tell about an execution is the result of going on or running out of time,
if there is one. -/
theorem told_answer (id : String) (r : Engine σ × Outcome (Option String)) (closed : Option Execution) :
    r.2 = (match closed with
      | some y => (e.rules.answerTo y).map some
      | none => .ok none) →
    (match r with
      | (e, .ok none) => (e, none)
      | (e, .ok (some id')) => (e, some (id, .ok id'))
      | (e, .error f) => (e, some (id, .error f)) : Engine σ × Option (String × Outcome String)).2.map (·.2) =
      closed.map e.rules.answerTo := by
  obtain ⟨e', r⟩ := r
  intro h
  dsimp only at h
  subst h
  cases closed with
  | none => rfl
  | some y => cases hy : e.rules.answerTo y <;> simp [hy, Except.map]

/-- The ring of an alarm answers a call when it closes the record of a run for its caller. -/
theorem ring_answer (hrules : e.rules.Answers) (t : Timer)
    (hstore : ∀ y, e.closed? v now t = some y → ∃ u, e.executions.update y = .ok u) :
    (Act.ring t).answer v now e = (e.closed? v now t).map e.rules.answerTo := by
  cases t with
  | wake id lane =>
      rw [Act.answer, ring]
      exact told_answer id _ _ (go_on_answer hrules id lane hstore)
  | expire id =>
      rw [Act.answer, ring]
      exact told_answer id _ _ (time_out_answer hrules id hstore)

/-- A call that was carried out is answered as that says, or with its failure. -/
theorem launched_answer (p : Engine σ × Outcome Launch) :
    (match p with
      | (e, .ok l) => (e, l)
      | (e, .error f) => (e, .ended (.error f)) : Engine σ × Launch).2.answer? =
    match p.2 with
      | .ok l => l.answer?
      | .error f => some (.error f) := by
  obtain ⟨e, f | l⟩ := p <;> rfl

/-- A call is answered at once with the failure of a look-up, with a refusal, with the failure of a store
or as carrying out the execution is. -/
theorem execute_answer (ruleId : String) (data : Fields) (context : ExecutionContext)
    (triggeredBy : Option String) :
    (Act.execute ruleId data context triggeredBy).answer v now e =
      match e.activeRule ruleId with
      | .error f => some (.error f)
      | .ok r => match RateLimit.check e.executions r.id r.settings now with
        | .error f => some (.error f)
        | .ok (some reason) =>
          match e.executions.create (.refused r e.nextExecution now data context triggeredBy reason) with
          | .error f => some (.error f)
          | .ok _ => some (.error (.rateLimited reason.message
            (some (Execution.refused r e.nextExecution now data context triggeredBy reason).id)))
        | .ok none =>
          match e.executions.create (.opened r e.nextExecution now data context triggeredBy) with
          | .error f => some (.error f)
          | .ok t =>
            match (({ e with
                executionIds := e.executionIds + 1, executions := t
                inFlight := e.inFlight ++ [e.nextExecution] } : Engine σ).perform
              (carryOut v now r (.opened r e.nextExecution now data context triggeredBy))).2 with
            | .ok l => l.answer?
            | .error f => some (.error f) := by
  rw [Act.answer, execute, begin, perform_bind, open_record_eq]
  cases e.activeRule ruleId with
  | error f => rfl
  | ok r =>
      dsimp only
      rcases RateLimit.check e.executions r.id r.settings now with f | _ | reason
      · rfl
      · dsimp only [nextExecution]
        cases e.executions.create (Execution.opened r (identifier "exec" (e.executionIds + 1)) now data
          context triggeredBy) with
        | error f => rfl
        | ok t =>
            exact launched_answer _
      · dsimp only [nextExecution]
        cases e.executions.create (Execution.refused r (identifier "exec" (e.executionIds + 1)) now data
          context triggeredBy reason) <;> rfl

end Engine

end Rulebook
