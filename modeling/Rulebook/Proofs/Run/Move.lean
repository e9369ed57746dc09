import Rulebook.Proofs.Execution.Version
import Rulebook.Proofs.Run.Tries

/-!
# What running actions does to an execution

Running actions changes an execution by moves: a step starts, its action is tried again, a step
completes or is given up, and the execution fails. A move says what can be seen of it, so that a
sequence of moves (`Moves`) tells the tries that were made. Moves make later versions
(`Moves.precedes`) and begin no try once the execution has ended (`Moves.begun_of_terminal`).
-/

namespace Rulebook

/-- Whether an execution was ended from outside and not by its actions. -/
def Execution.isStopped (x : Execution) : Bool := x.status == .cancelled || x.status == .timeout

/-- An execution that was ended from outside has ended. -/
theorem Execution.is_terminal_of_stopped {x : Execution} (h : x.isStopped = true) :
    x.isTerminal = true := by
  obtain h | h := Bool.or_eq_true_iff.mp h <;>
    simp [isTerminal, eq_of_beq h, ExecutionStatus.isTerminal]

/-- An execution that was ended from outside stays so. -/
theorem Execution.Precedes.is_stopped {y x : Execution} (h : y.Precedes x)
    (hy : y.isStopped = true) : x.isStopped = true := by
  rwa [isStopped, (h.final (is_terminal_of_stopped hy)).status]

/-- What is done to an execution while its actions run, and what can be seen of it. -/
inductive Move (now : Moment) (retries : Nat) (A : List Action) :
    Execution → List TryEvent → Execution → Prop where
  /-- A step starts. -/
  | start {x : Execution} {a : Action} (ha : A[x.steps.length]? = some a)
      (hx : x.isTerminal = false) :
      Move now retries A x [.begun ⟨x.id, x.steps.length⟩ a] (x.startStep a now)
  /-- The action of a step failed and is tried again. -/
  | retry {x : Execution} {n : Nat} {a : Action} {s : ExecutionStep} {f : Failure}
      (ha : A[n]? = some a) (hx : x.isTerminal = false) (hs : x.steps[n]? = some s)
      (hrunning : s.status = .running) (hf : f.isRetryable = true) (hleft : s.attempts ≤ retries) :
      Move now retries A x [.ended ⟨x.id, n⟩ (.error f), .begun ⟨x.id, n⟩ a] (x.countAttempt n)
  /-- A step completes. -/
  | complete {x : Execution} {n : Nat} {s : ExecutionStep} (v : Value) (hs : x.steps[n]? = some s)
      (hrunning : s.status = .running) :
      Move now retries A x [.ended ⟨x.id, n⟩ (.ok v)] (x.finishStep n now .completed v.fields? none)
  /-- The action of a step failed and is not tried again. -/
  | giveUp {x : Execution} {n : Nat} {s : ExecutionStep} {f : Failure} (hs : x.steps[n]? = some s)
      (hrunning : s.status = .running)
      (hend : f.isRetryable = true → (retries : Int) + 1 ≤ s.attempts ∨ x.isStopped = true) :
      Move now retries A x [.ended ⟨x.id, n⟩ (.error f)]
        (x.finishStep n now .failed none (some f.message))
  /-- The execution fails because of an action. -/
  | fail (x : Execution) (a : Action) : Move now retries A x [] (x.failFor a now)

/-- Moves one after the other, and what can be seen of them. -/
inductive Moves (now : Moment) (retries : Nat) (A : List Action) :
    Execution → List TryEvent → Execution → Prop where
  | refl (x : Execution) : Moves now retries A x [] x
  | cons {x y z : Execution} {l k : List TryEvent} :
      Move now retries A x l y → Moves now retries A y k z → Moves now retries A x (l ++ k) z

variable {now : Moment} {retries : Nat} {A : List Action} {x y z : Execution} {l k : List TryEvent}

/-- One move is a sequence of moves. -/
theorem Move.moves (h : Move now retries A x l y) : Moves now retries A x l y := by
  rw [← List.append_nil l]
  exact .cons h (.refl y)

/-- Moves can follow moves. -/
theorem Moves.trans (h : Moves now retries A x l y) (h' : Moves now retries A y k z) :
    Moves now retries A x (l ++ k) z := by
  induction h with
  | refl => exact h'
  | cons hmove _ ih =>
      rw [List.append_assoc]
      exact .cons hmove (ih h')

namespace Execution

variable {n : Nat} {s : ExecutionStep} {change : ExecutionStep → ExecutionStep}

/-- What a change keeps of each step is kept of all. -/
theorem map_change_step {α : Type} (g : ExecutionStep → α) (h : ∀ s, g (change s) = g s) :
    (x.changeStep n change).steps.map g = x.steps.map g := by
  refine List.ext_getElem? fun i => ?_
  rw [changeStep, List.getElem?_map, List.getElem?_map, List.getElem?_modify]
  split
  · simp [Option.map_map, Function.comp_def, h]
  · simp

/-- A change of a step that has not ended makes a later version, if it keeps what the step is, and how
often it was tried in case that the execution has ended. -/
theorem precedes_change_step (hs : x.steps[n]? = some s) (hended : s.isEnded = false)
    (htitle : ∀ s, (change s).title = s.title)
    (htally : x.isTerminal = true → ∀ s, (change s).tally = s.tally) :
    x.Precedes (x.changeStep n change) where
  origin := rfl
  startedAt := rfl
  titles := by rw [map_change_step _ htitle]
  kept i t ht htended := by
    have hne : n ≠ i := by
      rintro rfl
      rw [hs, Option.some.injEq] at ht
      rw [ht, htended] at hended
      cases hended
    simpa [changeStep, List.getElem?_modify, hne] using ht
  final hx := ⟨rfl, rfl, rfl, rfl, rfl, rfl, map_change_step _ (htally hx)⟩

/-- An execution that fails keeps its steps. -/
theorem fail_for_steps (x : Execution) (a : Action) (now : Moment) :
    (x.failFor a now).steps = x.steps :=
  move_to_steps x now _ rfl

end Execution

/-- A move makes a later version. -/
theorem Move.precedes (h : Move now retries A x l y) : x.Precedes y := by
  cases h with
  | start _ hx =>
      refine ⟨rfl, rfl, ?_, fun n s hs _ => ?_, fun h => absurd (hx ▸ h) (by decide)⟩
      · simp [Execution.startStep]
      · rw [Execution.startStep, List.getElem?_append_left (List.getElem?_eq_some_iff.mp hs).1]
        exact hs
  | retry _ hx hs hrunning _ _ =>
      exact Execution.precedes_change_step hs (ExecutionStep.is_ended_of_running hrunning)
        (fun _ => rfl) fun h => absurd (hx ▸ h) (by decide)
  | complete v hs hrunning =>
      exact Execution.precedes_change_step hs (ExecutionStep.is_ended_of_running hrunning)
        (fun _ => rfl) fun _ _ => rfl
  | giveUp hs hrunning _ =>
      exact Execution.precedes_change_step hs (ExecutionStep.is_ended_of_running hrunning)
        (fun _ => rfl) fun _ _ => rfl
  | fail a => exact Execution.precedes_move_to x now _ rfl

/-- Moves make a later version. -/
theorem Moves.precedes (h : Moves now retries A x l y) : x.Precedes y := by
  induction h with
  | refl => exact .refl _
  | cons hmove _ ih => exact hmove.precedes.trans ih

/-- A move keeps the record stamped. -/
theorem Move.stamped (h : Move now retries A x l y) (hx : x.Stamped) : y.Stamped := by
  cases h with
  | fail a => exact hx.move_to now _ rfl
  | _ => exact ⟨hx.completed_at, hx.duration, hx.nonneg⟩

/-- Moves keep the record stamped. -/
theorem Moves.stamped (h : Moves now retries A x l y) (hx : x.Stamped) : y.Stamped := by
  induction h with
  | refl => exact hx
  | cons hmove _ ih => exact ih (hmove.stamped hx)

/-- A move gives no result. -/
theorem Move.result_eq (h : Move now retries A x l y) : y.result = x.result := by
  cases h with
  | fail a => exact Execution.move_to_result x now _ rfl
  | _ => rfl

/-- Moves give no result. -/
theorem Moves.result_eq (h : Moves now retries A x l y) : y.result = x.result := by
  induction h with
  | refl => rfl
  | cons hmove _ ih => exact ih.trans hmove.result_eq

/-- A move concerns steps of the execution. -/
theorem Move.step_id (h : Move now retries A x l y) {t : TryEvent} (ht : t ∈ l) :
    t.step.executionId = x.id := by
  cases h with
  | retry =>
      obtain rfl | ht := List.mem_cons.mp ht
      · rfl
      · rw [List.mem_singleton.mp ht]
        rfl
  | fail => cases ht
  | _ =>
      rw [List.mem_singleton.mp ht]
      rfl

/-- Moves concern steps of the execution. -/
theorem Moves.step_id (h : Moves now retries A x l y) {t : TryEvent} (ht : t ∈ l) :
    t.step.executionId = x.id := by
  induction h with
  | refl => cases ht
  | cons hmove _ ih =>
      obtain ht | ht := List.mem_append.mp ht
      · exact hmove.step_id ht
      · exact (ih ht).trans hmove.precedes.id_eq

/-- A move does not stop the execution, nor does it undo that. -/
theorem Move.is_stopped_eq (h : Move now retries A x l y) : y.isStopped = x.isStopped := by
  cases h with
  | fail a =>
      obtain h | ⟨hx, d, _, h⟩ := Execution.move_to_cases x now _
        (rfl : ExecutionStatus.isTerminal .failed = true) <;> rw [Execution.failFor, h]
      cases hstopped : x.isStopped with
      | false => rfl
      | true => rw [Execution.is_terminal_of_stopped hstopped] at hx; cases hx
  | _ => rfl

/-- Moves do not stop the execution, nor do they undo that. -/
theorem Moves.is_stopped_eq (h : Moves now retries A x l y) : y.isStopped = x.isStopped := by
  induction h with
  | refl => rfl
  | cons hmove _ ih => exact ih.trans hmove.is_stopped_eq

/-- A move begins tries of the action in the place of the step. -/
theorem Move.tries_of (h : Move now retries A x l y) : ∀ t ∈ l, t.TriesOf A := by
  cases h with
  | start ha => simpa [TryEvent.TriesOf] using ha
  | retry ha => simpa [TryEvent.TriesOf] using ha
  | complete => simp [TryEvent.TriesOf]
  | giveUp => simp [TryEvent.TriesOf]
  | fail => simp

/-- Moves begin tries of the actions in the places of the steps. -/
theorem Moves.tries_of (h : Moves now retries A x l y) : ∀ t ∈ l, t.TriesOf A := by
  induction h with
  | refl => simp
  | cons hmove _ ih => exact List.forall_mem_append.mpr ⟨hmove.tries_of, ih⟩

/-- No move begins a try once the execution has ended. -/
theorem Move.begun_of_terminal (h : Move now retries A x l y) (hx : x.isTerminal = true) :
    l.filterMap TryEvent.begun? = [] := by
  cases h with
  | start _ hopen => exact absurd (hopen ▸ hx) (by decide)
  | retry _ hopen => exact absurd (hopen ▸ hx) (by decide)
  | complete => rfl
  | giveUp => rfl
  | fail => rfl

/-- No try begins once the execution has ended. -/
theorem Moves.begun_of_terminal (h : Moves now retries A x l y) (hx : x.isTerminal = true) :
    l.filterMap TryEvent.begun? = [] := by
  induction h with
  | refl => rfl
  | cons hmove _ ih =>
      rw [List.filterMap_append, hmove.begun_of_terminal hx, ih (hmove.precedes.is_terminal hx),
        List.append_nil]

end Rulebook
