import Rulebook.Proofs.Execution.Version
import Rulebook.Proofs.Store.Entry

/-!
# What is read of a written execution

A store in memory gives back what was written. A database keeps times in UTC and nested parts as
payloads; what is read from it (`Execution.KeptAs`) has the same stage, error and steps, and it is
stamped if what was written is (`Execution.KeptAs.stamped`). Two versions with the same end are read
with the same end (`ExecutionStore.kept_same_end`).
-/

namespace Rulebook

/-- What a step is, how it went, and how often it was tried. -/
def ExecutionStep.outline (s : ExecutionStep) :
    (String × StepKind × String) × StepStatus × Option String × Int :=
  (s.title, s.status, s.error, s.attempts)

/-- What is read of an execution that was written. -/
structure Execution.KeptAs (x v : Execution) : Prop where
  id : v.id = x.id
  ruleId : v.ruleId = x.ruleId
  tenantId : v.tenantId = x.tenantId
  status : v.status = x.status
  error : v.error = x.error
  startedAt : v.startedAt.isSome = x.startedAt.isSome
  completedAt : v.completedAt.isSome = x.completedAt.isSome
  duration : v.duration = x.duration ∨ v.duration = Stored.real? x.duration
  outlines : v.steps.map (·.outline) = x.steps.map (·.outline)

/-- What is not below zero is a number. -/
theorem Binary64.is_nan_of_nonneg {d : Float} (h : 0 ≤ d) : d.isNaN = false := by
  have hle : (0 : Float).toModel.unpack.le d.toModel.unpack = true := of_decide_eq_true h
  cases hd : d.toModel.unpack with
  | notANumber =>
      rw [hd, Float.Model.UnpackedFloat.le] at hle
      have hnone : (0 : Float).toModel.unpack.compare .notANumber = none := by
        cases (0 : Float).toModel.unpack <;> rfl
      rw [hnone] at hle
      cases hle
  | _ =>
      rw [Float.isNaN, Float.Model.isNaN, hd]
      rfl

/-- A number that is not below zero is kept, zero without a sign. -/
theorem Stored.real_of_nonneg {d : Float} (h : 0 ≤ d) :
    real? (some d) = some (if d == 0 then 0 else d) := by
  have hnumber : (!d.isNaN) = true := by rw [Binary64.is_nan_of_nonneg h]; rfl
  rw [real?, Option.filter_some, if_pos hnumber, Option.map_some]

/-- An optional time is kept if there is one. -/
theorem Stored.is_some_of_time {m k : Option Moment} (h : Stored.time? m = .ok k) :
    k.isSome = m.isSome := by
  cases m with
  | none =>
      obtain rfl := Except.ok.inj h
      rfl
  | some m =>
      obtain ⟨k', _, rfl⟩ := Outcome.map_eq_ok.mp h
      rfl

/-- An integer is kept as it is. -/
theorem Stored.integer_eq {n k : Int} (h : Stored.integer n = .ok k) : k = n := by
  rw [integer] at h
  split at h
  · exact (Except.ok.inj h).symm
  · cases h

/-- A step is read with the outline that it was written with. -/
theorem StepRow.outline_of_step {s : ExecutionStep} {r : StepRow} (h : ofStep s = .ok r) :
    r.toStep.outline = s.outline := by
  simp only [ofStep, Outcome.bind_eq_ok, Except.ok.injEq] at h
  obtain ⟨_, _, _, _, attempts, hattempts, rfl⟩ := h
  obtain rfl := Stored.integer_eq hattempts
  rfl

/-- Steps are read with the outlines that they were written with. -/
theorem StepRow.outlines_of_steps {steps : List ExecutionStep} {rows : List StepRow}
    (h : steps.mapM ofStep = .ok rows) :
    (rows.map toStep).map (·.outline) = steps.map (·.outline) := by
  have hall := Outcome.forall_of_map_eq_ok h
  clear h
  induction hall with
  | nil => rfl
  | cons hrow _ ih => rw [List.map_cons, List.map_cons, List.map_cons, outline_of_step hrow, ih]

/-- What is read of a row. -/
theorem ExecutionRow.to_execution_eq_ok {r : ExecutionRow} {v : Execution} :
    r.toExecution = .ok v ↔ ∃ context, (ExecutionContext.read r.context).toExcept = .ok context ∧
      { r.execution with
        triggerData := (StepRow.fields? r.triggerData).getD []
        context
        result := StepRow.fields? r.result
        steps := r.steps.map StepRow.toStep } = v := by
  simp only [toExecution, Outcome.bind_eq_ok, Outcome.map_error_eq_ok, Except.ok.injEq]

namespace ExecutionStore

variable {s : ExecutionStore} {x y v w : Execution} {n m : StoreEntry}

/-- What is read of an execution has its stage, error and steps. -/
theorem kept_as (hn : s.entryOf x = .ok n) (hv : n.read = .ok v) : x.KeptAs v := by
  cases s with
  | memory t =>
      obtain rfl := Except.ok.inj hn
      obtain rfl := Except.ok.inj hv
      exact ⟨rfl, rfl, rfl, rfl, rfl, rfl, rfl, .inl rfl, rfl⟩
  | sql t =>
      obtain ⟨r, hr, rfl⟩ := Outcome.map_eq_ok.mp hn
      obtain ⟨triggeredAt, _, startedAt, hstarted, completedAt, hcompleted, steps, hsteps, rfl⟩ :=
        ExecutionRow.of_execution_eq_ok.mp hr
      obtain ⟨context, _, rfl⟩ := ExecutionRow.to_execution_eq_ok.mp hv
      exact ⟨rfl, rfl, rfl, rfl, rfl, Stored.is_some_of_time hstarted,
        Stored.is_some_of_time hcompleted, .inr rfl, StepRow.outlines_of_steps hsteps⟩

/-- Steps of the same outlines were tried equally often. -/
theorem tallies_eq (h : v.steps.map (·.outline) = x.steps.map (·.outline)) :
    v.steps.map (·.tally) = x.steps.map (·.tally) := by
  have hproj := congrArg (List.map fun o => (o.1, o.2.2.2)) h
  rwa [List.map_map, List.map_map] at hproj

/-- Two versions with the same end are read with the same end. -/
theorem kept_same_end (h : y.SameEnd x) (hn : s.entryOf y = .ok n) (hv : n.read = .ok v)
    (hm : s.entryOf x = .ok m) (hw : m.read = .ok w) : v.SameEnd w := by
  have hy := kept_as hn hv
  have hx := kept_as hm hw
  have htallies : w.steps.map (·.tally) = v.steps.map (·.tally) := by
    rw [tallies_eq hy.outlines, tallies_eq hx.outlines, h.tallies]
  have hstatus : w.status = v.status := by rw [hy.status, hx.status, h.status]
  have herror : w.error = v.error := by rw [hy.error, hx.error, h.error]
  cases s with
  | memory t =>
      obtain rfl := Except.ok.inj hn
      obtain rfl := Except.ok.inj hv
      obtain rfl := Except.ok.inj hm
      obtain rfl := Except.ok.inj hw
      exact h
  | sql t =>
      obtain ⟨r, hr, rfl⟩ := Outcome.map_eq_ok.mp hn
      obtain ⟨_, _, started, hstarted, completed, hcompleted, _, _, rfl⟩ :=
        ExecutionRow.of_execution_eq_ok.mp hr
      obtain ⟨_, _, rfl⟩ := ExecutionRow.to_execution_eq_ok.mp hv
      obtain ⟨q, hq, rfl⟩ := Outcome.map_eq_ok.mp hm
      obtain ⟨_, _, started', hstarted', completed', hcompleted', _, _, rfl⟩ :=
        ExecutionRow.of_execution_eq_ok.mp hq
      obtain ⟨_, _, rfl⟩ := ExecutionRow.to_execution_eq_ok.mp hw
      rw [h.startedAt, hstarted, Except.ok.injEq] at hstarted'
      rw [h.completedAt, hcompleted, Except.ok.injEq] at hcompleted'
      refine ⟨hstatus, hstarted'.symm, hcompleted'.symm, ?_, herror, ?_, htallies⟩
      · exact congrArg Stored.real? h.duration
      · exact congrArg (fun r => StepRow.fields? (Value.ofOption .object r).written) h.result

/-- Of two versions with the same circumstances, one can be read if the other can. -/
theorem read_of_precedes (h : y.Precedes x) (hn : s.entryOf y = .ok n) (hv : n.read = .ok v)
    (hm : s.entryOf x = .ok m) : ∃ w, m.read = .ok w := by
  cases s with
  | memory t =>
      obtain rfl := Except.ok.inj hm
      exact ⟨x, rfl⟩
  | sql t =>
      obtain ⟨r, hr, rfl⟩ := Outcome.map_eq_ok.mp hn
      obtain ⟨_, _, _, _, _, _, _, _, rfl⟩ := ExecutionRow.of_execution_eq_ok.mp hr
      obtain ⟨context, hcontext, -⟩ := ExecutionRow.to_execution_eq_ok.mp hv
      obtain ⟨q, hq, rfl⟩ := Outcome.map_eq_ok.mp hm
      obtain ⟨_, _, _, _, _, _, _, _, rfl⟩ := ExecutionRow.of_execution_eq_ok.mp hq
      have hsame : x.context = y.context := congrArg (·.2.2.2.2.2.2) h.origin
      exact ⟨_, ExecutionRow.to_execution_eq_ok.mpr ⟨context, hsame ▸ hcontext, rfl⟩⟩

end ExecutionStore

/-- What is read of a stamped execution is stamped. -/
theorem Execution.KeptAs.stamped {x v : Execution} (h : x.KeptAs v) (hx : x.Stamped) :
    v.Stamped := by
  have hterminal : v.isTerminal = x.isTerminal := congrArg ExecutionStatus.isTerminal h.status
  have hduration : v.duration.isSome = x.duration.isSome ∧ ∀ d, v.duration = some d → 0 ≤ d := by
    obtain heq | heq := h.duration
    · exact ⟨congrArg Option.isSome heq, heq.symm ▸ hx.nonneg⟩
    · rw [heq]
      cases hd : x.duration with
      | none => exact ⟨rfl, nofun⟩
      | some d =>
          rw [Stored.real_of_nonneg (hx.nonneg d hd)]
          refine ⟨rfl, fun d' hd' => ?_⟩
          obtain rfl := Option.some.inj hd'
          split
          next => decide
          next => exact hx.nonneg d hd
  exact ⟨by rw [h.completedAt, hx.completed_at, hterminal],
    by rw [hduration.1, hx.duration, hterminal], hduration.2⟩

end Rulebook
