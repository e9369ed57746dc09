import Rulebook.Proofs.Execution.Transition
import Mathlib.Data.List.Infix

/-!
# Versions of an execution

An execution is written down again and again while it goes on. `Execution.Precedes y x` says that
`x` is a later version of `y`: where it came from and when it started are the same, steps are only
added, steps that have ended stay as they are, and once `y` has ended nothing of its end changes and
no step is added or tried again (`Execution.SameEnd`).
-/

namespace Rulebook

namespace ExecutionStep

/-- Whether a step has ended. -/
def isEnded (s : ExecutionStep) : Bool := s.status == .completed || s.status == .failed

/-- What a step is, however it goes. -/
def title (s : ExecutionStep) : String × StepKind × String := (s.stepId, s.kind, s.name)

/-- What a step is, and how often it was tried. -/
def tally (s : ExecutionStep) : (String × StepKind × String) × Int := (s.title, s.attempts)

/-- A running step has not ended. -/
theorem is_ended_of_running {s : ExecutionStep} (h : s.status = .running) : s.isEnded = false := by
  simp [isEnded, h]

end ExecutionStep

namespace Execution

/-- Where an execution comes from. -/
def origin (x : Execution) : String × String × String × String × Moment × Fields × ExecutionContext :=
  (x.id, x.ruleId, x.tenantId, x.triggeredBy, x.triggeredAt, x.triggerData, x.context)

/-- Two versions that have ended in the same way, after the same steps and tries. -/
structure SameEnd (y x : Execution) : Prop where
  status : x.status = y.status
  startedAt : x.startedAt = y.startedAt
  completedAt : x.completedAt = y.completedAt
  duration : x.duration = y.duration
  error : x.error = y.error
  result : x.result = y.result
  tallies : x.steps.map (·.tally) = y.steps.map (·.tally)

/-- The first version may become the second. -/
structure Precedes (y x : Execution) : Prop where
  origin : x.origin = y.origin
  startedAt : x.startedAt = y.startedAt
  titles : y.steps.map (·.title) <+: x.steps.map (·.title)
  kept : ∀ (n : Nat) (s : ExecutionStep), y.steps[n]? = some s → s.isEnded = true →
    x.steps[n]? = some s
  final : y.isTerminal = true → y.SameEnd x

variable {x y z : Execution}

/-- A version has the end of itself. -/
theorem SameEnd.refl (x : Execution) : x.SameEnd x := ⟨rfl, rfl, rfl, rfl, rfl, rfl, rfl⟩

/-- Having the same end is transitive. -/
theorem SameEnd.trans (h : x.SameEnd y) (h' : y.SameEnd z) : x.SameEnd z :=
  ⟨h'.status.trans h.status, h'.startedAt.trans h.startedAt, h'.completedAt.trans h.completedAt,
    h'.duration.trans h.duration, h'.error.trans h.error, h'.result.trans h.result,
    h'.tallies.trans h.tallies⟩

/-- A version that has the end of one that has ended has ended. -/
theorem SameEnd.is_terminal (h : y.SameEnd x) : x.isTerminal = y.isTerminal :=
  congrArg ExecutionStatus.isTerminal h.status

namespace Precedes

/-- A version precedes itself. -/
theorem refl (x : Execution) : x.Precedes x :=
  ⟨rfl, rfl, List.prefix_refl _, fun _ _ h _ => h, fun _ => .refl x⟩

/-- Preceding is transitive. -/
theorem trans (h : x.Precedes y) (h' : y.Precedes z) : x.Precedes z where
  origin := h'.origin.trans h.origin
  startedAt := h'.startedAt.trans h.startedAt
  titles := h.titles.trans h'.titles
  kept n s hs hended := h'.kept n s (h.kept n s hs hended) hended
  final hx := (h.final hx).trans (h'.final ((h.final hx).is_terminal.trans hx))

/-- The identifier stays. -/
theorem id_eq (h : y.Precedes x) : x.id = y.id := congrArg (·.1) h.origin

/-- The rule stays. -/
theorem rule_id_eq (h : y.Precedes x) : x.ruleId = y.ruleId := congrArg (·.2.1) h.origin

/-- What has ended stays ended. -/
theorem is_terminal (h : y.Precedes x) (hy : y.isTerminal = true) : x.isTerminal = true :=
  (h.final hy).is_terminal.trans hy

end Precedes

/-- An execution that is brought to an end becomes a later version. -/
theorem precedes_move_to {status : ExecutionStatus} (x : Execution) (now : Moment)
    (error : Option String) (hstatus : status.isTerminal = true) :
    x.Precedes (x.moveTo status now error).1 := by
  obtain h | ⟨hx, d, _, h⟩ := move_to_cases x now error hstatus
  · rw [h]
    exact .refl x
  · rw [h]
    exact ⟨rfl, rfl, List.prefix_refl _, fun _ _ h _ => h, fun h => absurd (hx ▸ h) (by decide)⟩

/-- An execution whose actions are done becomes a later version. -/
theorem precedes_close (x : Execution) (now : Moment) : x.Precedes (x.close now) := by
  obtain h | ⟨hx, d, _, h⟩ := move_to_cases x now none
    (rfl : ExecutionStatus.isTerminal .completed = true)
  · rw [close, h]
    exact .refl x
  · rw [close, h]
    exact ⟨rfl, rfl, List.prefix_refl _, fun _ _ h _ => h, fun h => absurd (hx ▸ h) (by decide)⟩

/-- An execution whose actions are done is brought to an end as completed and summed up, unless it had
ended. -/
theorem close_status (x : Execution) (now : Moment) :
    (x.close now).status = (x.moveTo .completed now none).1.status := by
  rw [close]
  rcases x.moveTo .completed now none with ⟨y, _ | _⟩ <;> rfl

/-- An execution whose actions are done has ended. -/
theorem close_is_terminal {aware : Bool} (hstart : x.StartsOn aware) {now : Moment}
    (hnow : now.isAware = aware) : (x.close now).isTerminal = true := by
  rw [isTerminal, close_status]
  exact move_to_is_terminal hstart hnow none rfl

/-- An execution whose actions are done stays stamped. -/
theorem Stamped.close (hx : x.Stamped) (now : Moment) : (x.close now).Stamped := by
  have hmove := hx.move_to now none (rfl : ExecutionStatus.isTerminal .completed = true)
  rw [Execution.close]
  rcases hmoved : x.moveTo .completed now none with ⟨y, _ | _⟩ <;> rw [hmoved] at hmove
  · exact hmove
  · exact ⟨hmove.completed_at, hmove.duration, hmove.nonneg⟩

/-- An execution that is brought to an end keeps its steps. -/
theorem move_to_steps {status : ExecutionStatus} (x : Execution) (now : Moment)
    (error : Option String) (hstatus : status.isTerminal = true) :
    (x.moveTo status now error).1.steps = x.steps := by
  obtain h | ⟨_, d, _, h⟩ := move_to_cases x now error hstatus <;> rw [h]

/-- An execution that is brought to an end gets no result by that. -/
theorem move_to_result {status : ExecutionStatus} (x : Execution) (now : Moment)
    (error : Option String) (hstatus : status.isTerminal = true) :
    (x.moveTo status now error).1.result = x.result := by
  obtain h | ⟨_, d, _, h⟩ := move_to_cases x now error hstatus <;> rw [h]

/-- What bringing an execution to an end makes of it. -/
structure MovesTo (x : Execution) (status : ExecutionStatus) (y : Execution) (moved : Bool) : Prop where
  later : x.Precedes y
  steps : y.steps = x.steps
  unmoved : moved = false → y = x
  ends : y = x ∨ y.status = status

/-- Bringing an execution to an end gives a later version with the same steps. -/
theorem moves_to {status : ExecutionStatus} {now : Moment} {error : Option String} {moved : Bool}
    (h : x.moveTo status now error = (y, moved)) (hstatus : status.isTerminal = true) :
    x.MovesTo status y moved := by
  have hlater := precedes_move_to x now error hstatus
  have hsteps := move_to_steps x now error hstatus
  rw [h] at hlater hsteps
  obtain heq | ⟨_, d, _, heq⟩ := move_to_cases x now error hstatus <;> rw [h] at heq
  · have hsame : y = x := congrArg Prod.fst heq
    exact ⟨hlater, hsteps, fun _ => hsame, .inl hsame⟩
  · refine ⟨hlater, hsteps, fun hmoved => ?_, .inr (congrArg (·.1.status) heq)⟩
    exact nomatch hmoved.symm.trans (congrArg Prod.snd heq)

/-- An execution whose actions are done keeps its steps. -/
theorem close_steps (x : Execution) (now : Moment) : (x.close now).steps = x.steps := by
  obtain h | ⟨_, d, _, h⟩ := move_to_cases x now none
    (rfl : ExecutionStatus.isTerminal .completed = true) <;> rw [close, h]

end Execution

end Rulebook
