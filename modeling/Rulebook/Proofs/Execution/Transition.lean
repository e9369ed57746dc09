import Rulebook.Engine.Execution

/-!
# Stages of an execution

An execution that has ended moves no further, and one that has not can be brought to any end. Both
keep the record stamped (`Execution.Stamped`): the end and the duration are there exactly when the
execution has ended, and no duration is negative. Ending an execution subtracts clock readings, so
the readings have to agree on whether the offset from UTC is known (`Execution.StartsOn`).
-/

namespace Rulebook

/-- Readings that agree on whether the offset is known can be subtracted. -/
theorem Moment.since_eq_ok {later earlier : Moment} (h : later.isAware = earlier.isAware) :
    later.since earlier = .ok (later.instant - earlier.instant) := by
  rw [Moment.since, if_pos h]

namespace Execution

/-- No length of time is negative. -/
theorem milliseconds_nonneg (micros : Int) : 0 ≤ milliseconds micros := by
  unfold milliseconds
  dsimp only
  split
  · assumption
  · decide

/-- The end and the duration are recorded exactly when the execution has ended. -/
structure Stamped (x : Execution) : Prop where
  completed_at : x.completedAt.isSome = x.isTerminal
  duration : x.duration.isSome = x.isTerminal
  nonneg : ∀ d, x.duration = some d → 0 ≤ d

/-- The clock that showed the start knows its offset, or does not, as `aware` says. -/
def StartsOn (aware : Bool) (x : Execution) : Prop :=
  ∀ m, x.startedAt = some m → m.isAware = aware

variable {x : Execution} {aware : Bool} {now : Moment} {error : Option String}
  {status : ExecutionStatus}

/-- An execution that has ended stays as it is. -/
theorem move_to_of_terminal (h : x.isTerminal = true) :
    x.moveTo status now error = (x, false) := by
  simp [moveTo, transition, h]

/-- An execution that has not ended is brought to an end if the readings can be subtracted. -/
theorem move_to_of_span {micros : Int} (h : x.isTerminal = false)
    (hspan : now.since (x.startedAt.getD now) = .ok micros) (hstatus : status.isTerminal = true) :
    x.moveTo status now error =
      ({ x with
          status, completedAt := some now, duration := some (milliseconds micros)
          error := error.or x.error }, true) := by
  have hrunning : status ≠ .running := by rintro rfl; cases hstatus
  simp [moveTo, transition, ending, h, hrunning, hstatus, hspan, Except.map, bind, Except.bind]

/-- An execution cannot be brought to an end if the readings cannot be subtracted. -/
theorem move_to_of_fault {f : TimeFault} (hspan : now.since (x.startedAt.getD now) = .error f)
    (hstatus : status.isTerminal = true) : x.moveTo status now error = (x, false) := by
  cases h : x.isTerminal with
  | true => exact move_to_of_terminal h
  | false =>
      have hrunning : status ≠ .running := by rintro rfl; cases hstatus
      simp [moveTo, transition, ending, h, hrunning, hstatus, hspan, Except.map, bind, Except.bind]

/-- An execution that has not ended is brought to an end. -/
theorem move_to_terminal (h : x.isTerminal = false) (hstart : x.StartsOn aware)
    (hnow : now.isAware = aware) (hstatus : status.isTerminal = true) :
    ∃ d, 0 ≤ d ∧ x.moveTo status now error =
      ({ x with status, completedAt := some now, duration := some d, error := error.or x.error },
        true) := by
  have hsame : now.isAware = (x.startedAt.getD now).isAware := by
    cases hx : x.startedAt with
    | none => rfl
    | some m => exact hnow.trans (hstart m hx).symm
  exact ⟨_, milliseconds_nonneg _, move_to_of_span h (Moment.since_eq_ok hsame) hstatus⟩

/-- An execution that is brought to an end has ended. -/
theorem move_to_is_terminal (hstart : x.StartsOn aware) (hnow : now.isAware = aware)
    (error : Option String) (hstatus : status.isTerminal = true) :
    (x.moveTo status now error).1.isTerminal = true := by
  cases h : x.isTerminal with
  | true => rwa [move_to_of_terminal h]
  | false =>
      obtain ⟨d, _, hmove⟩ := move_to_terminal h hstart hnow hstatus
      rw [hmove]
      exact hstatus

/-- Bringing an execution to an end leaves it as it is or ends it with a stamp; readings that cannot
be subtracted leave it as it is. -/
theorem move_to_cases (x : Execution) (now : Moment) (error : Option String)
    (hstatus : status.isTerminal = true) :
    x.moveTo status now error = (x, false) ∨ x.isTerminal = false ∧ ∃ d, 0 ≤ d ∧
      x.moveTo status now error =
        ({ x with status, completedAt := some now, duration := some d, error := error.or x.error },
          true) := by
  cases h : x.isTerminal with
  | true => exact .inl (move_to_of_terminal h)
  | false =>
      cases hspan : now.since (x.startedAt.getD now) with
      | error f => exact .inl (move_to_of_fault hspan hstatus)
      | ok micros =>
          exact .inr ⟨rfl, _, milliseconds_nonneg micros, move_to_of_span h hspan hstatus⟩

/-- An execution that has not started does so. -/
theorem move_to_running (h : x.isTerminal = false) (hstart : x.startedAt = none) :
    x.moveTo .running now none = ({ x with status := .running, startedAt := some now }, true) := by
  simp [moveTo, transition, h, hstart, ExecutionStatus.isTerminal, bind, Except.bind]

/-- Bringing an execution to an end keeps its record stamped. -/
theorem Stamped.move_to (hx : x.Stamped) (now : Moment) (error : Option String)
    (hstatus : status.isTerminal = true) : (x.moveTo status now error).1.Stamped := by
  obtain heq | ⟨_, d, hd, heq⟩ := move_to_cases x now error hstatus
  · rwa [heq]
  · rw [heq]
    exact ⟨hstatus.symm, hstatus.symm, fun _ h => Option.some.inj h ▸ hd⟩

end Execution

end Rulebook
