import Rulebook.Proofs.Rule.Reread
import Rulebook.Proofs.Store.Kept
import Rulebook.Proofs.Store.Trial

/-!
# Rows and what is read of them

A rule or an execution whose times are read on clocks of known offset has a row, unless one of its times is not
representable in UTC (`RuleRow.of_rule_eq`, `ExecutionRow.of_execution_eq`). What is read of the row is what was
written with its times in UTC (`RuleRow.to_rule_of_row`, `ExecutionRow.to_execution_of_row`), if it was admitted
and its payloads are values of JSON.
-/

namespace Rulebook

/-! ### Computations that fail in one way -/

namespace Outcome

variable {ε α β : Type}

/-- A result, unless something stands against it. -/
def barring (e : ε) (against : Bool) (a : α) : Except ε α := if against then .error e else .ok a

/-- Two computations one after the other, against either of which something may stand. -/
theorem barring_bind {e : ε} {b c : Bool} {a : α} {d : β} {f : α → Except ε β} (h : f a = barring e c d) :
    (barring e b a >>= f) = barring e (b || c) d := by
  cases b
  · exact h
  · rfl

/-- Something stands against the first of two computations only. -/
theorem barring_bind_ok {e : ε} {b : Bool} {a : α} {d : β} {f : α → Except ε β} (h : f a = .ok d) :
    (barring e b a >>= f) = barring e b d := by
  cases b
  · exact h
  · rfl

/-- Items are made of those of a list, unless something stands against one of them. -/
theorem map_barring {e : ε} {f : α → Except ε β} {p : α → Bool} {g : α → β} {l : List α}
    (h : ∀ a ∈ l, f a = barring e (p a) (g a)) : l.mapM f = barring e (l.any p) (l.map g) := by
  induction l with
  | nil => rfl
  | cons a l ih =>
      obtain ⟨ha, hrest⟩ := List.forall_mem_cons.mp h
      rw [List.mapM_cons, ha, ih hrest]
      exact barring_bind (barring_bind_ok rfl)

end Outcome

/-! ### Times -/

namespace Moment

/-- The same instant on a UTC clock. -/
def inUtc (m : Moment) : Moment := utc m.instant

/-- Whether the instant is not representable in UTC. -/
def overruns (m : Moment) : Bool := !inRange m.instant

/-- On a UTC clock the instant is the same. -/
@[simp] theorem instant_in_utc (m : Moment) : m.inUtc.instant = m.instant := by
  show m.instant - 0 * microsPerSecond = m.instant
  omega

end Moment

namespace Stored

/-- Why a time cannot be kept. -/
def overrun : Failure := .time .outOfRange

/-- A time on a clock of known offset is kept in UTC, unless it is not representable there. -/
theorem time_eq {m : Moment} (h : m.isAware = true) : time m = Outcome.barring overrun m.overruns m.inUtc := by
  have hshown : m.normalize = m.toUtc := by simp [Moment.normalize, h]
  rw [time, hshown, Moment.toUtc, Outcome.barring, Moment.overruns]
  cases Moment.inRange m.instant <;> rfl

/-- An optional time on a clock of known offset is kept in UTC, unless it is not representable there. -/
theorem optional_time_eq {m : Option Moment} (h : ∀ k ∈ m.toList, k.isAware = true) :
    time? m = Outcome.barring overrun (m.toList.any Moment.overruns) (m.map Moment.inUtc) := by
  cases m with
  | none => rfl
  | some m =>
      show (time m).map some = Outcome.barring overrun (m.overruns || false) (some m.inUtc)
      rw [time_eq (h m (List.mem_singleton_self m)), Bool.or_false]
      cases m.overruns <;> rfl

/-- The payload of a list as it is kept. -/
def items {α : Type} (payload : α → Value) (l : List α) : Value := (Value.list (l.map payload)).written

/-- Whether an integer fits in 64 bits. -/
def fits (n : Int) : Bool := -(Nat.pow 2 63 : Int) ≤ n ∧ n < Nat.pow 2 63

/-- An integer that fits is kept. -/
theorem integer_of_fits {n : Int} (h : fits n = true) : integer n = .ok n := if_pos (of_decide_eq_true h)

end Stored

/-! ### Rules -/

namespace Rule

/-- The rule with its times in UTC. -/
def inUtc (r : Rule) : Rule := { r with createdAt := r.createdAt.inUtc, updatedAt := r.updatedAt.inUtc }

/-- Whether a time of the rule is not representable in UTC. -/
def overruns (r : Rule) : Bool := r.createdAt.overruns || r.updatedAt.overruns

/-- The row of a rule. -/
def row (r : Rule) : RuleRow where
  id := r.id
  tenantId := r.tenantId
  name := r.name
  description := r.description
  priority := r.priority
  isActive := r.isActive
  triggers := Stored.items Trigger.toValue r.triggers
  conditions := Stored.items Condition.toValue r.conditions
  actions := Stored.items Action.toValue r.actions
  settings := r.settings.toValue.written
  metadata := r.metadata.toValue.written
  createdAt := r.createdAt.inUtc
  updatedAt := r.updatedAt.inUtc

/-- The clocks of the rule have known offsets, and its priority fits in 64 bits. -/
structure IsDated (r : Rule) : Prop where
  createdAt : r.createdAt.isAware = true
  updatedAt : r.updatedAt.isAware = true
  priority : Stored.fits r.priority = true

/-- The rule can be read again from its row. -/
structure IsReadable (r : Rule) : Prop where
  reread : r.toRuleDefinition.IsReread .json
  tenant : Schema.textOfLength 1 (some 64) (.text r.tenantId) = .valid r.tenantId

/-- A rule whose draft was admitted can be read again. -/
theorem readable_of_admitted {r : Rule} (h : r.toRuleDraft.IsAdmitted) : r.IsReadable := ⟨h.reread.1, h.reread.2⟩

end Rule

namespace RuleRow

variable {r : Rule}

/-- A rule has a row, unless one of its times is not representable in UTC. -/
theorem of_rule_eq (h : r.IsDated) : ofRule r = Outcome.barring Stored.overrun r.overruns r.row := by
  rw [ofRule, Stored.time_eq h.createdAt, Stored.time_eq h.updatedAt, Stored.integer_of_fits h.priority]
  exact Outcome.barring_bind (Outcome.barring_bind_ok rfl)

/-- What is read of the row of a rule is the rule with its times in UTC. -/
theorem to_rule_of_row (h : r.IsReadable) : r.row.toRule = .ok r.inUtc := by
  have hdraft : RuleDraft.readFields ⟨0⟩ r.row.toValue.fields = .valid r.toRuleDraft :=
    RuleDraft.read_fields_valid h.reread h.tenant fun f hf => by
      simp only [RuleDraft.toFields, RuleDefinition.toFields, List.cons_append, List.nil_append, List.mem_cons,
        List.not_mem_nil, or_false] at hf
      obtain rfl | rfl | rfl | rfl | rfl | rfl | rfl | rfl | rfl | rfl := hf <;> rfl
  have htext : ∀ s, Schema.text (.text s) = .valid s := fun _ => rfl
  have hmoment : ∀ m, Schema.moment (.moment m) = .valid m := fun _ => rfl
  have hread : Rule.read ⟨0⟩ r.row.toValue = .valid r.inUtc :=
    Checked.seq_valid (Checked.seq_valid (Checked.seq_valid (Checked.map_valid hdraft)
      (Schema.required_valid rfl (htext _))) (Schema.required_valid rfl (hmoment _)))
      (Schema.required_valid rfl (hmoment _))
  rw [toRule, hread]
  rfl

end RuleRow

/-! ### Executions -/

namespace ExecutionStep

/-- The times of a step. -/
def times (s : ExecutionStep) : List Moment := s.startedAt.toList ++ s.completedAt.toList

/-- The step as a database keeps it: its times in UTC, and its duration null if it is no number and without sign if
it is zero. -/
def inUtc (s : ExecutionStep) : ExecutionStep :=
  { s with
    startedAt := s.startedAt.map Moment.inUtc
    completedAt := s.completedAt.map Moment.inUtc
    duration := Stored.real? s.duration }

/-- Whether a time of the step is not representable in UTC. -/
def overruns (s : ExecutionStep) : Bool := s.times.any Moment.overruns

/-- The row of a step. -/
def row (s : ExecutionStep) : StepRow where
  step := s.inUtc
  input := (Value.ofOption .object s.input).written
  output := (Value.ofOption .object s.output).written

end ExecutionStep

namespace Execution

/-- The times of an execution and its steps. -/
def times (x : Execution) : List Moment :=
  x.triggeredAt :: (x.startedAt.toList ++ x.completedAt.toList ++ x.steps.flatMap ExecutionStep.times)

/-- The execution as a database keeps it: its times in UTC, and its duration null if it is no number and without
sign if it is zero. -/
def inUtc (x : Execution) : Execution :=
  { x with
    triggeredAt := x.triggeredAt.inUtc
    startedAt := x.startedAt.map Moment.inUtc
    completedAt := x.completedAt.map Moment.inUtc
    duration := Stored.real? x.duration
    steps := x.steps.map ExecutionStep.inUtc }

/-- Whether a time of the execution is not representable in UTC. -/
def overruns (x : Execution) : Bool := x.times.any Moment.overruns

/-- The row of an execution. -/
def row (x : Execution) : ExecutionRow where
  execution := { x.inUtc with triggerData := [], context := .empty, result := none, steps := [] }
  triggerData := (Value.object x.triggerData).written
  context := x.context.toValue.written
  result := (Value.ofOption .object x.result).written
  steps := x.steps.map ExecutionStep.row

/-- The clocks of the execution have known offsets, and the numbers of attempts fit in 64 bits. -/
structure IsDated (x : Execution) : Prop where
  times : ∀ m ∈ x.times, m.isAware = true
  attempts : ∀ s ∈ x.steps, Stored.fits s.attempts = true

/-- The payloads of the execution are values of JSON. -/
structure IsReadable (x : Execution) : Prop where
  triggerData : haveJson x.triggerData = true
  metadata : haveJson x.context.metadata = true
  result : ∀ fs ∈ x.result, haveJson fs = true
  input : ∀ s ∈ x.steps, ∀ fs ∈ s.input, haveJson fs = true
  output : ∀ s ∈ x.steps, ∀ fs ∈ s.output, haveJson fs = true

end Execution

namespace StepRow

/-- A step has a row, unless one of its times is not representable in UTC. -/
theorem of_step_eq {s : ExecutionStep} (htimes : ∀ m ∈ s.times, m.isAware = true)
    (hattempts : Stored.fits s.attempts = true) : ofStep s = Outcome.barring Stored.overrun s.overruns s.row := by
  obtain ⟨hstarted, hcompleted⟩ := List.forall_mem_append.mp htimes
  rw [ofStep, Stored.optional_time_eq hstarted, Stored.optional_time_eq hcompleted, Stored.integer_of_fits hattempts,
    ExecutionStep.overruns, ExecutionStep.times, List.any_append]
  exact Outcome.barring_bind (Outcome.barring_bind_ok rfl)

/-- Fields that may be null are read as they were written, if they hold values of JSON. -/
theorem fields_of_written {fs : Option Fields} (h : ∀ gs ∈ fs, haveJson gs = true) :
    fields? (Value.ofOption .object fs).written = fs := by
  cases fs with
  | none => rfl
  | some fs =>
      show fields? (Value.object fs).written = some fs
      rw [Value.written_of_json (.object fs) (h fs rfl)]
      rfl

end StepRow

namespace ExecutionRow

variable {x : Execution}

/-- An execution has a row, unless one of its times is not representable in UTC. -/
theorem of_execution_eq (h : x.IsDated) :
    ofExecution x = Outcome.barring Stored.overrun x.overruns x.row := by
  obtain ⟨htriggered, hrest⟩ := List.forall_mem_cons.mp h.times
  simp only [List.forall_mem_append] at hrest
  obtain ⟨⟨hstarted, hcompleted⟩, hsteps⟩ := hrest
  have hstep : ∀ s ∈ x.steps, StepRow.ofStep s = Outcome.barring Stored.overrun s.overruns s.row := fun s hs =>
    StepRow.of_step_eq (fun m hm => hsteps m (List.mem_flatMap.mpr ⟨s, hs, hm⟩)) (h.attempts s hs)
  rw [ofExecution, Stored.time_eq htriggered, Stored.optional_time_eq hstarted, Stored.optional_time_eq hcompleted,
    Outcome.map_barring hstep, Execution.overruns, Execution.times, List.any_cons, List.any_append, List.any_append,
    List.any_flatMap, Bool.or_assoc]
  exact Outcome.barring_bind (Outcome.barring_bind (Outcome.barring_bind (Outcome.barring_bind_ok rfl)))

/-- A context is read as it was written, if its metadata hold values of JSON. -/
theorem context_of_written {c : ExecutionContext} (h : haveJson c.metadata = true) :
    ExecutionContext.read c.toValue.written = .valid c := by
  have htext : ∀ t : Option String, Schema.optional Schema.text (Value.ofOption .text t).written = .valid t := by
    intro t
    cases t <;> rfl
  have hmetadata : Schema.object (Value.object c.metadata).written = .valid c.metadata := by
    rw [Value.written_of_json (.object c.metadata) h]
    rfl
  exact Checked.seq_valid (Checked.seq_valid (Checked.seq_valid (Checked.map_valid
    (Schema.defaulted_valid rfl (htext _))) (Schema.defaulted_valid rfl (htext _)))
    (Schema.defaulted_valid rfl (htext _))) (Schema.defaulted_valid rfl hmetadata)

/-- What is read of the row of an execution is the execution with its times in UTC. -/
theorem to_execution_of_row (h : x.IsReadable) : x.row.toExecution = .ok x.inUtc := by
  have hjson : ∀ fs ∈ some x.triggerData, haveJson fs = true := fun fs hfs => Option.some.inj hfs ▸ h.triggerData
  have hdata : StepRow.fields? (Value.object x.triggerData).written = some x.triggerData :=
    StepRow.fields_of_written hjson
  have hsteps : (x.steps.map ExecutionStep.row).map StepRow.toStep = x.steps.map ExecutionStep.inUtc := by
    rw [List.map_map]
    refine List.map_congr_left fun s hs => ?_
    have hinput := StepRow.fields_of_written (h.input s hs)
    have houtput := StepRow.fields_of_written (h.output s hs)
    show { s.inUtc with
      input := StepRow.fields? (Value.ofOption .object s.input).written
      output := StepRow.fields? (Value.ofOption .object s.output).written } = s.inUtc
    rw [hinput, houtput]
    rfl
  refine to_execution_eq_ok.mpr ⟨x.context, ?_, ?_⟩
  · rw [show x.row.context = x.context.toValue.written from rfl, context_of_written h.metadata]
    rfl
  · show { x.inUtc with
      triggerData := (StepRow.fields? (Value.object x.triggerData).written).getD []
      context := x.context
      result := StepRow.fields? (Value.ofOption .object x.result).written
      steps := (x.steps.map ExecutionStep.row).map StepRow.toStep } = x.inUtc
    rw [hdata, hsteps, StepRow.fields_of_written h.result]
    rfl

end ExecutionRow

end Rulebook
