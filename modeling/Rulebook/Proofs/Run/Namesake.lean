import Rulebook.Proofs.Engine.Core

/-!
# Executions under another identifier

What becomes of an execution does not depend on its identifier: under another one (`Execution.named`) it ends the
same way (`Execution.move_to_named`), and services, which treat the actions of all steps alike, bring its actions as
far (`Services.run_actions_named`, `Services.resume_actions_named`).
-/

namespace Rulebook

/-- The execution under another identifier. -/
def Execution.named (id : String) (x : Execution) : Execution := { x with id }

namespace Execution

variable (x : Execution) (id : String) (now : Moment)

/-- An execution has its own identifier. -/
theorem named_self {id : String} (h : x.id = id) : x.named id = x := by
  subst h
  rfl

/-- An execution is brought to an end in the same way under another identifier. -/
theorem move_to_named {status : ExecutionStatus} (error : Option String) (hstatus : status.isTerminal = true) :
    (x.named id).moveTo status now error =
      ((x.moveTo status now error).1.named id, (x.moveTo status now error).2) := by
  have hterminal : (x.named id).isTerminal = x.isTerminal := rfl
  cases hopen : x.isTerminal with
  | true => rw [move_to_of_terminal hopen, move_to_of_terminal (hterminal.trans hopen)]
  | false =>
      have hspans : now.since ((x.named id).startedAt.getD now) = now.since (x.startedAt.getD now) := rfl
      cases hspan : now.since (x.startedAt.getD now) with
      | error f => rw [move_to_of_fault hspan hstatus, move_to_of_fault (hspans.trans hspan) hstatus]
      | ok micros =>
          rw [move_to_of_span hopen hspan hstatus,
            move_to_of_span (hterminal.trans hopen) (hspans.trans hspan) hstatus]
          rfl

/-- The actions of an execution are done in the same way under another identifier. -/
theorem close_named : (x.named id).close now = (x.close now).named id := by
  rw [close, move_to_named x id now none rfl, close]
  rcases x.moveTo .completed now none with ⟨y, _ | _⟩ <;> rfl

/-- The time of an execution runs out in the same way under another identifier. -/
theorem expired_named (r : Rule) : (x.named id).expired r now = (x.expired r now).named id := by
  rw [expired, move_to_named x id now _ rfl, close_named]
  rfl

/-- An execution cannot be carried out in the same way under another identifier. -/
theorem crashed_named (f : NumberFault) : (x.named id).crashed now f = (x.crashed now f).named id :=
  congrArg Prod.fst (move_to_named x id now _ rfl)

/-- The conditions of an execution do not hold in the same way under another identifier. -/
theorem unmet_named : (x.named id).unmet now = (x.unmet now).named id :=
  congrArg Prod.fst (move_to_named ({ x with result := some skipped } : Execution) id now none
    (rfl : ExecutionStatus.isTerminal .completed = true))

/-- An execution fails for an action in the same way under another identifier. -/
theorem fail_for_named (a : Action) : (x.named id).failFor a now = (x.failFor a now).named id :=
  congrArg Prod.fst (move_to_named x id now _ rfl)

/-- An execution is refused in the same way under another identifier. -/
theorem refused_named (r : Rule) (other : String) (data : Fields) (context : ExecutionContext)
    (triggeredBy : Option String) (reason : RateLimit) :
    refused r id now data context triggeredBy reason =
      (refused r other now data context triggeredBy reason).named id :=
  congrArg Prod.fst (move_to_named (Engine.pending r other now data context triggeredBy) id now
    (some reason.message) rfl)

end Execution

variable {σ α : Type} {id : String} {c d : Course σ}

/-- Two courses are those of one execution under different identifiers. -/
structure Course.Namesake (id : String) (c d : Course σ) : Prop where
  world : d.world = c.world
  execution : d.execution = c.execution.named id

/-- Two ways to run actions come equally far. -/
def Course.Keeps (id : String) (p q : Course σ × α) : Prop := p.1.Namesake id q.1 ∧ q.2 = p.2

namespace Course.Namesake

/-- A step is ended in the same way. -/
theorem finish (h : c.Namesake id d) (n : Nat) (now : Moment) (status : StepStatus) (output : Option Fields)
    (error : Option String) :
    (c.finish n now status output error).Namesake id (d.finish n now status output error) :=
  ⟨h.world, congrArg (·.finishStep n now status output error) h.execution⟩

/-- The execution fails for an action in the same way. -/
theorem fail_for (h : c.Namesake id d) (a : Action) (now : Moment) :
    (c.failFor a now).Namesake id (d.failFor a now) :=
  ⟨h.world, (congrArg (·.failFor a now) h.execution).trans (Execution.fail_for_named _ id now a)⟩

end Course.Namesake

open Course

namespace Services

variable (s : Services σ) (now : Moment)

/-- An attempt is followed in the same way. -/
theorem settle_named (a : Action) (n left : Nat) (attempt : Attempt) (h : c.Namesake id d) :
    Course.Keeps id (s.environment.settle now a n left attempt c) (s.environment.settle now a n left attempt d) := by
  induction left generalizing attempt c d with
  | zero =>
      rcases attempt with (f | r) | w
      · exact ⟨h.finish n now _ _ _, rfl⟩
      · exact ⟨h.finish n now _ _ _, rfl⟩
      · exact ⟨h, rfl⟩
  | succ left ih =>
      rcases attempt with (f | r) | w
      · obtain ⟨world, execution, notes⟩ := d
        obtain ⟨rfl, rfl⟩ := h
        rw [Environment.settle, Environment.settle, show (c.execution.named id).isTerminal = c.execution.isTerminal
          from rfl]
        split
        · exact ih _ ⟨rfl, rfl⟩
        · exact ⟨⟨rfl, rfl⟩, rfl⟩
      · exact ⟨h.finish n now _ _ _, rfl⟩
      · exact ⟨h, rfl⟩

/-- The step of an action starts in the same way. -/
theorem begin_step_named (retries : Nat) (a : Action) (h : c.Namesake id d) :
    Course.Keeps id (s.environment.beginStep now retries a c) (s.environment.beginStep now retries a d) := by
  obtain ⟨world, execution, notes⟩ := d
  obtain ⟨rfl, rfl⟩ := h
  rw [Environment.beginStep, Environment.beginStep]
  exact s.settle_named now a c.execution.steps.length retries _ ⟨rfl, rfl⟩

/-- A step goes on in the same way. -/
theorem resume_step_named (retries : Nat) (o : OpenStep) (h : c.Namesake id d) :
    Course.Keeps id (s.environment.resumeStep now retries o c) (s.environment.resumeStep now retries o d) := by
  obtain ⟨world, execution, notes⟩ := d
  obtain ⟨rfl, rfl⟩ := h
  rw [Environment.resumeStep, Environment.resumeStep]
  exact s.settle_named now o.action o.step (Environment.retriesLeft retries c o.step) _ ⟨rfl, rfl⟩

/-- Actions are run one after another in the same way. -/
theorem run_sequence_named (retries : Nat) (A : List Action) (h : c.Namesake id d) :
    Course.Keeps id (s.environment.runSequence now retries A c) (s.environment.runSequence now retries A d) := by
  induction A generalizing c d with
  | nil => exact ⟨h, rfl⟩
  | cons a A ih =>
      have hterminal : d.execution.isTerminal = c.execution.isTerminal := by rw [h.execution]; rfl
      obtain ⟨hstep, hend⟩ := s.begin_step_named now retries a h
      rw [Environment.runSequence, Environment.runSequence, hterminal]
      split
      · exact ⟨h, rfl⟩
      · rcases hc : s.environment.beginStep now retries a c with ⟨c', succeeded | o⟩ <;>
          rcases hd : s.environment.beginStep now retries a d with ⟨d', ended⟩ <;>
          rw [hc, hd] at hstep hend <;> cases hend
        · dsimp only
          split
          · exact ⟨hstep.fail_for a now, rfl⟩
          · exact ih hstep
        · exact ⟨hstep, rfl⟩

/-- Actions are started side by side in the same way. -/
theorem start_lanes_named (retries : Nat) (A : List Action) (h : c.Namesake id d) :
    Course.Keeps id (s.environment.startLanes now retries A c) (s.environment.startLanes now retries A d) := by
  induction A generalizing c d with
  | nil => exact ⟨h, rfl⟩
  | cons a A ih =>
      obtain ⟨hstep, hend⟩ := s.begin_step_named now retries a h
      obtain ⟨hrest, hlanes⟩ := ih hstep
      rw [Environment.startLanes, Environment.startLanes]
      dsimp only
      rw [hend, hlanes]
      cases (s.environment.beginStep now retries a c).2 <;> exact ⟨hrest, rfl⟩

/-- Actions that run side by side end in the same way. -/
theorem close_lanes_named (l : List Lane) (h : c.Namesake id d) :
    Course.Keeps id (Environment.closeLanes now l c) (Environment.closeLanes now l d) := by
  rw [Environment.closeLanes, Environment.closeLanes]
  split
  · exact ⟨h, rfl⟩
  · split
    · exact ⟨h.fail_for _ now, rfl⟩
    · exact ⟨h, rfl⟩

/-- The actions of a rule are run in the same way. -/
theorem run_actions_named (r : Rule) (h : c.Namesake id d) :
    Course.Keeps id (s.environment.runActions now r c) (s.environment.runActions now r d) := by
  rw [Environment.runActions, Environment.runActions]
  dsimp only
  split
  · obtain ⟨hlanes, hend⟩ := s.start_lanes_named now r.settings.retryAttempts.toNat r.enabledActions h
    rw [hend]
    exact close_lanes_named now _ hlanes
  · exact s.run_sequence_named now _ _ h

/-- The actions of a rule go on in the same way. -/
theorem resume_actions_named (r : Rule) (lane : Nat) (p : Phase) (h : c.Namesake id d) :
    Course.Keeps id (s.environment.resumeActions now r lane p c) (s.environment.resumeActions now r lane p d) := by
  cases p with
  | sequence o rest =>
      obtain ⟨hstep, hend⟩ := s.resume_step_named now r.settings.retryAttempts.toNat o h
      rw [Environment.resumeActions, Environment.resumeActions]
      rcases hc : s.environment.resumeStep now r.settings.retryAttempts.toNat o c with ⟨c', succeeded | w⟩ <;>
        rcases hd : s.environment.resumeStep now r.settings.retryAttempts.toNat o d with ⟨d', ended⟩ <;>
        rw [hc, hd] at hstep hend <;> cases hend
      · dsimp only
        split
        · exact ⟨hstep.fail_for o.action now, rfl⟩
        · exact s.run_sequence_named now _ _ hstep
      · exact ⟨hstep, rfl⟩
  | lanes l =>
      rw [Environment.resumeActions, Environment.resumeActions]
      split
      next o _ =>
        obtain ⟨hstep, hend⟩ := s.resume_step_named now r.settings.retryAttempts.toNat o h
        rcases hc : s.environment.resumeStep now r.settings.retryAttempts.toNat o c with ⟨c', succeeded | w⟩ <;>
          rcases hd : s.environment.resumeStep now r.settings.retryAttempts.toNat o d with ⟨d', ended⟩ <;>
          rw [hc, hd] at hstep hend <;> cases hend
        · exact close_lanes_named now _ hstep
        · exact ⟨hstep, rfl⟩
      next => exact ⟨h, rfl⟩

end Services

end Rulebook
