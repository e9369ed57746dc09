import Rulebook.Proofs.Store.Entry

/-!
# Stores whose executions can be read

The circumstances of an execution are written so that they can be read again (`ExecutionContext.reads`). So whatever
executions are written, all that a store keeps can be read (`ExecutionStore.IsLegible`).
-/

namespace Rulebook

/-- Circumstances that were written can be read. -/
theorem ExecutionContext.reads (c : ExecutionContext) : ∃ d, read c.toValue.written = .valid d := by
  obtain ⟨userId, entityType, entityId, metadata⟩ := c
  cases userId <;> cases entityType <;> cases entityId <;> exact ⟨_, rfl⟩

/-- The circumstances in a row can be read. -/
def ExecutionRow.IsLegible (row : ExecutionRow) : Prop := ∃ c, ExecutionContext.read row.context = .valid c

/-- A row of an execution can be read. -/
theorem ExecutionRow.legible_of_execution {row : ExecutionRow} {x : Execution} (h : ofExecution x = .ok row) :
    row.IsLegible := by
  obtain ⟨_, _, _, _, _, _, _, _, rfl⟩ := of_execution_eq_ok.mp h
  exact x.context.reads

namespace ExecutionStore

/-- All executions that the store keeps can be read. -/
def IsLegible : ExecutionStore → Prop
  | memory _ => True
  | sql t => ∀ row ∈ t.rows, row.IsLegible

variable {s t : ExecutionStore} {x : Execution}

/-- A store that keeps nothing is legible. -/
theorem IsEmpty.legible (h : s.IsEmpty) : s.IsLegible := by
  cases s with
  | memory t => trivial
  | sql t =>
      intro row hrow
      have hnone := h.entry_at_eq_none row.id
      have hsome : (t.row? row.id).isSome = true :=
        List.find?_isSome.mpr ⟨row, hrow, beq_self_eq_true row.id⟩
      rw [Option.map_eq_none_iff.mp hnone] at hsome
      cases hsome

/-- An execution is found in a legible store, or there is none. -/
theorem IsLegible.found (hs : s.IsLegible) (id : String) : ∃ found, s.get id = .ok found := by
  cases s with
  | memory t => exact ⟨_, rfl⟩
  | sql t =>
      cases hrow : t.row? id with
      | none => exact ⟨none, by rw [get, ExecutionRows.get, hrow]; rfl⟩
      | some row =>
          obtain ⟨c, hc⟩ := hs row (List.mem_of_find?_eq_some hrow)
          refine ⟨some { row.execution with
            triggerData := (StepRow.fields? row.triggerData).getD []
            context := c
            result := StepRow.fields? row.result
            steps := row.steps.map StepRow.toStep }, ?_⟩
          rw [get, ExecutionRows.get, hrow]
          show (row.toExecution).map some = _
          rw [ExecutionRow.toExecution, hc]
          rfl

/-- A legible store stays so when an execution is added. -/
theorem IsLegible.created (hs : s.IsLegible) (x : Execution) : (s.created x).IsLegible := by
  rw [ExecutionStore.created]
  split
  next t ht =>
    cases s with
    | memory table =>
        obtain rfl := Except.ok.inj ht
        trivial
    | sql rows =>
        obtain ⟨rows', hrows, rfl⟩ := Outcome.map_eq_ok.mp ht
        obtain ⟨row, hrow, hadded⟩ := Outcome.bind_eq_ok.mp hrows
        split at hadded
        next => cases hadded
        next =>
          cases hadded
          exact List.forall_mem_append.mpr
            ⟨hs, List.forall_mem_singleton.mpr (ExecutionRow.legible_of_execution hrow)⟩
  next => exact hs

/-- A legible store stays so when an execution is replaced. -/
theorem IsLegible.saved (hs : s.IsLegible) (x : Execution) : (s.saved x).IsLegible := by
  rw [ExecutionStore.saved]
  split
  next t ht =>
    cases s with
    | memory table =>
        obtain ⟨_, _, rfl⟩ := Outcome.map_eq_ok.mp ht
        trivial
    | sql rows =>
        obtain ⟨rows', hrows, rfl⟩ := Outcome.map_eq_ok.mp ht
        rw [ExecutionRows.update] at hrows
        split at hrows
        next =>
          obtain ⟨row, hrow, rfl⟩ := Outcome.map_eq_ok.mp hrows
          have hwritten : row.IsLegible := by
            obtain ⟨new, hnew, rfl⟩ := Outcome.map_eq_ok.mp hrow
            have hlegible := ExecutionRow.legible_of_execution hnew
            cases hold : rows.row? x.id with
            | none => exact hlegible
            | some old =>
                show ∃ c, ExecutionContext.read (Stored.overlay old.context new.context) = .valid c
                rw [Stored.overlay]
                split
                · exact hs old (List.mem_of_find?_eq_some hold)
                · exact hlegible
          refine List.forall_mem_map.mpr fun old hold => ?_
          split
          · exact hwritten
          · exact hs old hold
        next => cases hrows
  next => exact hs

end ExecutionStore

end Rulebook
