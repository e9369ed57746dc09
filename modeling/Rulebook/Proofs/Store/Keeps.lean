import Rulebook.Proofs.Run.Record
import Rulebook.Proofs.Store.Entry

/-!
# What a store can keep

A store in memory keeps every execution. A database keeps those whose times can be written in UTC and
whose steps count no more attempts than an integer holds (`ExecutionStore.sql_keeps`). The times of an
execution are readings of the clock that its engine runs by (`Execution.TimesIn`).
-/

namespace Rulebook

/-- What a clock can show; it knows its offset from UTC or does not. -/
structure Clock where
  /-- Its readings. -/
  Shows : Moment → Prop
  /-- Whether it knows its offset. -/
  aware : Bool
  /-- Its readings agree on that. -/
  agrees : ∀ m, Shows m → m.isAware = aware

/-- A clock that knows its offset. -/
def Clock.knowing : Clock := ⟨fun m => m.isAware = true, true, fun _ h => h⟩

/-- The times of a step are readings of a clock. -/
structure ExecutionStep.TimesIn (clock : Clock) (s : ExecutionStep) : Prop where
  started : ∀ m, s.startedAt = some m → clock.Shows m
  completed : ∀ m, s.completedAt = some m → clock.Shows m

/-- The times of an execution are readings of a clock. -/
structure Execution.TimesIn (clock : Clock) (x : Execution) : Prop where
  triggered : clock.Shows x.triggeredAt
  started : ∀ m, x.startedAt = some m → clock.Shows m
  completed : ∀ m, x.completedAt = some m → clock.Shows m
  steps : ∀ s ∈ x.steps, s.TimesIn clock

/-- A store keeps executions that were timed by a clock and whose steps were tried so often at most. -/
def ExecutionStore.Keeps (p : ExecutionStore) (clock : Clock) (most : Nat) : Prop :=
  ∀ x : Execution, x.TimesIn clock → (∀ s ∈ x.steps, 0 ≤ s.attempts ∧ s.attempts ≤ most) →
    ∃ n, p.entryOf x = .ok n

namespace Execution.TimesIn

variable {clock : Clock} {x y : Execution} {now : Moment} {status : ExecutionStatus}
  {error : Option String}

/-- The clock of an execution knew its offset when it started if it does. -/
theorem starts_on (hx : x.TimesIn clock) : x.StartsOn clock.aware :=
  fun m hm => clock.agrees m (hx.started m hm)

/-- An execution that is brought to an end at a reading of the clock is timed by it. -/
theorem move_to (hx : x.TimesIn clock) (hnow : clock.Shows now) (error : Option String)
    (hstatus : status.isTerminal = true) : (x.moveTo status now error).1.TimesIn clock := by
  obtain h | ⟨_, d, _, h⟩ := move_to_cases x now error hstatus <;> rw [h]
  · exact hx
  · exact ⟨hx.triggered, hx.started, fun m hm => Option.some.inj hm ▸ hnow, hx.steps⟩

/-- An execution whose actions are done at a reading of the clock is timed by it. -/
theorem close (hx : x.TimesIn clock) (hnow : clock.Shows now) : (x.close now).TimesIn clock := by
  have hmove := hx.move_to hnow none (rfl : ExecutionStatus.isTerminal .completed = true)
  rw [Execution.close]
  rcases hmoved : x.moveTo .completed now none with ⟨y, _ | _⟩ <;> rw [hmoved] at hmove
  · exact hmove
  · exact ⟨hmove.triggered, hmove.started, hmove.completed, hmove.steps⟩

/-- An execution stays timed by a clock when a step changes and stays so. -/
theorem change_step (hx : x.TimesIn clock) (n : Nat) {change : ExecutionStep → ExecutionStep}
    (hchange : ∀ s : ExecutionStep, s.TimesIn clock → (change s).TimesIn clock) :
    (x.changeStep n change).TimesIn clock := by
  refine ⟨hx.triggered, hx.started, hx.completed, fun t ht => ?_⟩
  obtain ⟨i, hi⟩ := List.mem_iff_getElem?.mp ht
  rw [changeStep, List.getElem?_modify] at hi
  obtain ⟨s, hs, rfl⟩ := Option.map_eq_some_iff.mp hi
  have htimed := hx.steps s (List.mem_of_getElem? hs)
  split
  next => exact hchange s htimed
  next => exact htimed

end Execution.TimesIn

section Moves

variable {now : Moment} {retries : Nat} {A : List Action} {x y : Execution} {l : List TryEvent} {clock : Clock}

/-- A move at a reading of a clock keeps an execution timed by it. -/
theorem Move.times_in (h : Move now retries A x l y) (hx : x.TimesIn clock) (hnow : clock.Shows now) :
    y.TimesIn clock := by
  cases h with
  | start a =>
      refine ⟨hx.triggered, hx.started, hx.completed, fun s hs => ?_⟩
      obtain hs | hs := List.mem_append.mp hs
      · exact hx.steps s hs
      · rw [List.mem_singleton.mp hs]
        exact ⟨fun m hm => Option.some.inj hm ▸ hnow, nofun⟩
  | retry => exact hx.change_step _ fun s hs => ⟨hs.started, hs.completed⟩
  | complete =>
      exact hx.change_step _ fun s hs => ⟨hs.started, fun m hm => Option.some.inj hm ▸ hnow⟩
  | giveUp =>
      exact hx.change_step _ fun s hs => ⟨hs.started, fun m hm => Option.some.inj hm ▸ hnow⟩
  | fail a => exact hx.move_to hnow _ rfl

/-- Moves at a reading of a clock keep an execution timed by it. -/
theorem Moves.times_in (h : Moves now retries A x l y) (hx : x.TimesIn clock)
    (hnow : clock.Shows now) : y.TimesIn clock := by
  induction h with
  | refl => exact hx
  | cons hmove _ ih => exact ih (hmove.times_in hx hnow)

end Moves

/-- An optional time can be kept if the time can. -/
theorem Stored.time_eq_ok {m : Option Moment} (h : ∀ k, m = some k → ∃ t, time k = .ok t) :
    ∃ t, time? m = .ok t := by
  cases m with
  | none => exact ⟨none, rfl⟩
  | some k =>
      obtain ⟨t, ht⟩ := h k rfl
      exact ⟨some t, Outcome.map_eq_ok.mpr ⟨t, ht, rfl⟩⟩

/-- A step can be kept if its times can and its attempts are not too many. -/
theorem StepRow.of_step_eq_ok {clock : Clock} {s : ExecutionStep} (hs : s.TimesIn clock)
    (hclock : ∀ m, clock.Shows m → ∃ t, Stored.time m = .ok t) (hleast : 0 ≤ s.attempts)
    (hmost : s.attempts < Nat.pow 2 63) : ∃ row, ofStep s = .ok row := by
  obtain ⟨started, hstarted⟩ := Stored.time_eq_ok fun m hm => hclock m (hs.started m hm)
  obtain ⟨completed, hcompleted⟩ := Stored.time_eq_ok fun m hm => hclock m (hs.completed m hm)
  have hattempts : Stored.integer s.attempts = .ok s.attempts :=
    if_pos ⟨by omega, hmost⟩
  exact ⟨_, by rw [ofStep, hstarted, hcompleted, hattempts]; rfl⟩

namespace ExecutionStore

/-- A store keeps what is timed by the clock and has the steps of a version that tells the tries. -/
theorem Keeps.entry_of {p : ExecutionStore} {clock : Clock} {retries : Nat} {x z : Execution}
    {l : List TryEvent} (h : p.Keeps clock (retries + 1)) (htells : x.Tells retries l)
    (hz : z.TimesIn clock) (hsteps : z.steps = x.steps) : ∃ n, p.entryOf z = .ok n :=
  h z hz fun s hs => by
    rw [hsteps] at hs
    exact ⟨htells.attempts_nonneg hs, by exact_mod_cast htells.attempts_le hs⟩

/-- A store in memory keeps every execution. -/
theorem memory_keeps (t : ExecutionTable) (clock : Clock) (most : Nat) :
    (memory t).Keeps clock most :=
  fun x _ _ => ⟨.execution x, rfl⟩

/-- A database keeps executions that were timed by a clock whose readings it can keep. -/
theorem sql_keeps (t : ExecutionRows) {clock : Clock} {most : Nat}
    (hclock : ∀ m, clock.Shows m → ∃ k, Stored.time m = .ok k) (hmost : most < Nat.pow 2 63) :
    (sql t).Keeps clock most := by
  intro x hx hattempts
  obtain ⟨triggered, htriggered⟩ := hclock x.triggeredAt hx.triggered
  obtain ⟨started, hstarted⟩ := Stored.time_eq_ok fun m hm => hclock m (hx.started m hm)
  obtain ⟨completed, hcompleted⟩ := Stored.time_eq_ok fun m hm => hclock m (hx.completed m hm)
  obtain ⟨steps, hsteps⟩ := Outcome.map_eq_ok_of_forall fun s hs => by
    obtain ⟨hleast, hle⟩ := hattempts s hs
    exact StepRow.of_step_eq_ok (hx.steps s hs) hclock hleast (by omega)
  exact ⟨.row _, Outcome.map_eq_ok.mpr ⟨_, ExecutionRow.of_execution_eq_ok.mpr
    ⟨triggered, htriggered, started, hstarted, completed, hcompleted, steps, hsteps, rfl⟩, rfl⟩⟩

end ExecutionStore

end Rulebook
