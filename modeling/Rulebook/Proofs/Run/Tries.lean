import Rulebook.Engine.Run

/-!
# Tries of actions

`Environment.traced` is an environment that works as the given one does and writes down when a try of
an action begins and how it ends. What is written down about a step (`TryEvent.begunAt`,
`TryEvent.resultsAt`) is what the record of the step is compared with.
-/

namespace Rulebook

/-- What can be seen of the tries of actions. -/
inductive TryEvent where
  /-- A try of the action of a step begins. -/
  | begun (step : StepRef) (a : Action)
  /-- A try of the action of a step ends. -/
  | ended (step : StepRef) (result : Outcome Value)

namespace TryEvent

/-- The step that is tried. -/
def step : TryEvent → StepRef
  | begun step _ => step
  | ended step _ => step

/-- The step whose try begins. -/
def begun? : TryEvent → Option StepRef
  | begun step _ => some step
  | ended _ _ => none

/-- How a try of that step ends. -/
def result? (step : StepRef) : TryEvent → Option (Outcome Value)
  | begun _ _ => none
  | ended s r => if s = step then some r else none

/-- How many tries of a step began. -/
def begunAt (step : StepRef) (l : List TryEvent) : Nat := (l.filterMap begun?).count step

/-- How the tries of a step ended, in order. -/
def resultsAt (step : StepRef) (l : List TryEvent) : List (Outcome Value) :=
  l.filterMap (result? step)

/-- What happened to the steps of an execution. -/
def of (executionId : String) (l : List TryEvent) : List TryEvent :=
  l.filter (·.step.executionId = executionId)

/-- A try that begins for a step is one of the action in the place of the step. -/
def TriesOf (A : List Action) : TryEvent → Prop
  | begun step a => A[step.place]? = some a
  | ended _ _ => True

variable {step : StepRef} {l : List TryEvent}

@[simp] theorem begun_at_nil (step : StepRef) : begunAt step [] = 0 := rfl

@[simp] theorem results_at_nil (step : StepRef) : resultsAt step [] = [] := rfl

@[simp] theorem begun_at_begun (step : StepRef) (a : Action) (l : List TryEvent) :
    begunAt step (.begun step a :: l) = begunAt step l + 1 := List.count_cons_self

@[simp] theorem begun_at_ended (step s : StepRef) (r : Outcome Value) (l : List TryEvent) :
    begunAt step (.ended s r :: l) = begunAt step l := rfl

@[simp] theorem results_at_begun (step s : StepRef) (a : Action) (l : List TryEvent) :
    resultsAt step (.begun s a :: l) = resultsAt step l := rfl

@[simp] theorem results_at_ended (step : StepRef) (r : Outcome Value) (l : List TryEvent) :
    resultsAt step (.ended step r :: l) = r :: resultsAt step l :=
  List.filterMap_cons_some (if_pos rfl)

/-- Tries that begin one after the other add up. -/
theorem begun_at_append (step : StepRef) (l k : List TryEvent) :
    begunAt step (l ++ k) = begunAt step l + begunAt step k := by
  simp [begunAt]

/-- Tries that end one after the other are listed one after the other. -/
theorem results_at_append (step : StepRef) (l k : List TryEvent) :
    resultsAt step (l ++ k) = resultsAt step l ++ resultsAt step k :=
  List.filterMap_append

/-- No try of a step began if nothing happened to it. -/
theorem begun_at_of_forall (h : ∀ t ∈ l, t.step ≠ step) : begunAt step l = 0 := by
  rw [begunAt, List.count_eq_zero, List.mem_filterMap]
  rintro ⟨t, ht, heq⟩
  cases t with
  | begun s a => exact h _ ht (Option.some.inj heq)
  | ended s r => cases heq

/-- No try of a step ended if nothing happened to it. -/
theorem results_at_of_forall (h : ∀ t ∈ l, t.step ≠ step) : resultsAt step l = [] := by
  rw [resultsAt, List.filterMap_eq_nil_iff]
  intro t ht
  cases t with
  | begun s a => rfl
  | ended s r => exact if_neg (h _ ht)

/-- What happened to a step is found among what happened to its execution. -/
theorem filter_step_of (step : StepRef) (l : List TryEvent) :
    (of step.executionId l).filter (·.step = step) = l.filter (·.step = step) := by
  rw [of, List.filter_filter]
  refine List.filter_congr fun t _ => ?_
  by_cases h : t.step = step
  · simp [h]
  · simp [h]

/-- What happened to other steps does not matter for the tries of a step that began. -/
theorem begun_at_filter (step : StepRef) (l : List TryEvent) :
    begunAt step (l.filter (·.step = step)) = begunAt step l := by
  induction l with
  | nil => rfl
  | cons t l ih =>
      rw [← List.singleton_append, List.filter_append, begun_at_append, begun_at_append, ih]
      by_cases h : t.step = step
      · simp [h]
      · rw [begun_at_of_forall (l := [t]) (by simpa using h)]
        simp [h]

/-- What happened to other steps does not matter for how the tries of a step ended. -/
theorem results_at_filter (step : StepRef) (l : List TryEvent) :
    resultsAt step (l.filter (·.step = step)) = resultsAt step l := by
  induction l with
  | nil => rfl
  | cons t l ih =>
      rw [← List.singleton_append, List.filter_append, results_at_append, results_at_append, ih]
      by_cases h : t.step = step
      · simp [h]
      · rw [results_at_of_forall (l := [t]) (by simpa using h)]
        simp [h]

/-- The tries of a step that began are found among those of its execution. -/
theorem begun_at_of (step : StepRef) (l : List TryEvent) :
    begunAt step (of step.executionId l) = begunAt step l := by
  rw [← begun_at_filter, filter_step_of, begun_at_filter]

/-- How the tries of a step ended is found among what happened to its execution. -/
theorem results_at_of (step : StepRef) (l : List TryEvent) :
    resultsAt step (of step.executionId l) = resultsAt step l := by
  rw [← results_at_filter, filter_step_of, results_at_filter]

end TryEvent

/-- How a try ends that is over; one that waits has not ended. -/
def Attempt.endings (step : StepRef) : Attempt → List TryEvent
  | .over r => [.ended step r]
  | .waits _ => []

/-- The end of a try is one of its step. -/
theorem Attempt.step_of_endings {step : StepRef} {attempt : Attempt} {t : TryEvent}
    (h : t ∈ attempt.endings step) : t.step = step := by
  cases attempt with
  | «over» r => rw [List.mem_singleton.mp h, TryEvent.step]
  | waits w => cases h

/-- The state of an environment, and what happened to tries so far. -/
structure Traced (σ : Type) where
  /-- The state. -/
  world : σ
  /-- What happened to tries, in order. -/
  tries : List TryEvent

namespace Environment

variable {σ : Type}

/-- The environment that writes down the tries that are made in it. -/
def traced (v : Environment σ) : Environment (Traced σ) where
  begin step a data context w :=
    let (world, attempt) := v.begin step a data context w.world
    (⟨world, w.tries ++ .begun step a :: attempt.endings step⟩, attempt)
  resume step waiting w :=
    let (world, attempt) := v.resume step waiting w.world
    (⟨world, w.tries ++ attempt.endings step⟩, attempt)
  source := v.source.map fun reading w r =>
    let (world, x) := reading w.world r
    (⟨world, w.tries⟩, x)

variable {v : Environment σ} {step : StepRef} {w world : Traced σ} {attempt : Attempt}

/-- To begin a try writes that it begins, and its end if it is over. -/
theorem traced_begin_tries {a : Action} {data : Fields} {context : ExecutionContext}
    (h : v.traced.begin step a data context w = (world, attempt)) :
    world.tries = w.tries ++ .begun step a :: attempt.endings step := by
  cases h
  rfl

/-- To go on with a try writes its end if it is over. -/
theorem traced_resume_tries {waiting : Waiting}
    (h : v.traced.resume step waiting w = (world, attempt)) :
    world.tries = w.tries ++ attempt.endings step := by
  cases h
  rfl

/-- A reading of a polled condition is no try. -/
theorem traced_source_tries
    {reading : Traced σ → Rule → Traced σ × Outcome (Option Fields)}
    (h : v.traced.source = some reading) (w : Traced σ) (r : Rule) :
    (reading w r).1.tries = w.tries := by
  obtain ⟨inner, _, rfl⟩ := Option.map_eq_some_iff.mp h
  rfl

end Environment

end Rulebook
