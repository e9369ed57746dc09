import Rulebook.Proofs.Engine.Part
import Rulebook.Proofs.Engine.Tenant

/-!
# What the share of tenants tells

Where two engines agree on the share of some tenants, they agree on whatever is asked about these tenants: on their
rules (`Engine.rule_of_share`), on what is kept of their executions (`Engine.entry_of_share`), and on their runs
(`Engine.run_of_share`).
-/

namespace Rulebook

/-- An entry is kept of a trial. -/
theorem ExecutionStore.trial_of_entry {s : ExecutionStore} {id : String} {n : StoreEntry} (h : s.entryAt id = some n) :
    ∃ t ∈ s.trials, t.id = id ∧ t.tenantId = n.tenantId := by
  cases s with
  | memory t =>
      obtain ⟨x, hx, rfl⟩ := Option.map_eq_some_iff.mp h
      have hid : x.id = id := by simpa using List.find?_some hx
      exact ⟨x.trial, List.mem_map_of_mem (List.mem_of_find?_eq_some hx), hid, rfl⟩
  | sql t =>
      obtain ⟨row, hrow, rfl⟩ := Option.map_eq_some_iff.mp h
      have hid : row.id = id := by simpa using List.find?_some hrow
      exact ⟨row.execution.trial, List.mem_map_of_mem (f := fun row : ExecutionRow => row.execution.trial)
        (List.mem_of_find?_eq_some hrow), hid, rfl⟩

/-- There is an entry of every trial. -/
theorem ExecutionStore.entry_of_trial {s : ExecutionStore} {t : Trial} (h : t ∈ s.trials) :
    ∃ n, s.entryAt t.id = some n := by
  cases s with
  | memory table =>
      obtain ⟨x, hx, rfl⟩ := List.mem_map.mp h
      have hsome : (table.get? x.trial.id).isSome = true := List.find?_isSome.mpr ⟨x, hx, beq_self_eq_true x.id⟩
      obtain ⟨y, hy⟩ := Option.isSome_iff_exists.mp hsome
      exact ⟨_, Option.map_eq_some_iff.mpr ⟨y, hy, rfl⟩⟩
  | sql rows =>
      obtain ⟨row, hrow, rfl⟩ := List.mem_map.mp h
      have hsome : (rows.row? row.execution.trial.id).isSome = true :=
        List.find?_isSome.mpr ⟨row, hrow, beq_self_eq_true row.id⟩
      obtain ⟨y, hy⟩ := Option.isSome_iff_exists.mp hsome
      exact ⟨_, Option.map_eq_some_iff.mpr ⟨y, hy, rfl⟩⟩

namespace Engine

variable {σ : Type} {e e' : Engine σ} {wanted : String → Bool} {t : Trial} {u ruleId : String}

/-- There is no entry of the next identifier. -/
theorem entry_fresh (he : e.core.Recorded) : e.executions.entryAt e.nextExecution = none := by
  cases hentry : e.executions.entryAt e.nextExecution with
  | none => rfl
  | some n =>
      obtain ⟨t, ht, hid, _⟩ := ExecutionStore.trial_of_entry hentry
      exact absurd hid (he.next_fresh t ht)

/-- Engines that agree on a share keep the same rules of it. -/
theorem rules_of_share (h : e'.share wanted = e.share wanted) : e'.rules.part wanted = e.rules.part wanted :=
  (Prod.mk.inj h).1

/-- Engines that agree on a share keep the same executions of it. -/
theorem executions_of_share (h : e'.share wanted = e.share wanted) :
    e'.executions.part wanted = e.executions.part wanted :=
  (Prod.mk.inj (Prod.mk.inj h).2).1

/-- Engines that agree on a share make the same entries. -/
theorem kind_of_share (h : e'.share wanted = e.share wanted) : e'.executions.entryOf = e.executions.entryOf := by
  rw [← ExecutionStore.entry_of_part e'.executions wanted, executions_of_share h, ExecutionStore.entry_of_part]

/-- Engines that agree on a share have the same runs of it. -/
theorem runs_of_share (h : e'.share wanted = e.share wanted) :
    e'.runs.filter (wanted ·.execution.tenantId) = e.runs.filter (wanted ·.execution.tenantId) := by
  have hruns := congrArg (List.map Prod.fst) (Prod.mk.inj (Prod.mk.inj h).2).2
  rw [List.map_map, List.map_map] at hruns
  exact (List.map_id _).symm.trans (hruns.trans (List.map_id _))

/-- Engines that agree on a share agree on which runs of it can be cancelled. -/
theorem in_flight_of_share (h : e'.share wanted = e.share wanted) {run : Run} (hrun : run ∈ e.runs)
    (hwanted : wanted run.execution.tenantId = true) :
    e'.inFlight.contains run.execution.id = e.inFlight.contains run.execution.id := by
  have hruns := (Prod.mk.inj (Prod.mk.inj h).2).2
  rw [show e'.core.runs = e'.runs from rfl, runs_of_share h] at hruns
  exact congrArg Prod.snd (List.map_inj_left.mp hruns run (List.mem_filter.mpr ⟨hrun, hwanted⟩))

/-- A rule of a tenant is found alike where the share of the tenant is the same. -/
theorem rule_of_share (he : e.Owned) (he' : e'.Owned) (h : e'.share (· == u) = e.share (· == u))
    (howner : (ruleId, u) ∈ e.rules.owners) :
    (ruleId, u) ∈ e'.rules.owners ∧ e'.rules.get ruleId = e.rules.get ruleId := by
  have howner' : (ruleId, u) ∈ e'.rules.owners := by
    have hmem : (ruleId, u) ∈ (e.rules.part (· == u)).owners := by
      rw [RuleStore.owners_part]
      exact List.mem_filter.mpr ⟨howner, beq_self_eq_true u⟩
    rw [← rules_of_share h, RuleStore.owners_part] at hmem
    exact (List.mem_filter.mp hmem).1
  have hpart : ∀ {e : Engine σ}, e.Owned → (ruleId, u) ∈ e.rules.owners →
      (e.rules.part (· == u)).get ruleId = e.rules.get ruleId := fun he howner =>
    RuleStore.get_part fun o ho hid => beq_iff_eq.mpr (he.owner_unique howner o ho hid)
  exact ⟨howner', by rw [← hpart he' howner', rules_of_share h, hpart he howner]⟩

/-- The rules of a tenant are listed alike where the share of the tenant is the same. -/
theorem rules_listed_of_share (h : e'.share (· == u) = e.share (· == u)) :
    e'.rules.list (some u) = e.rules.list (some u) := by
  have hpart : ∀ s : RuleStore, (s.part (· == u)).list (some u) = s.list (some u) := fun _ =>
    RuleStore.list_part (beq_self_eq_true u)
  rw [← hpart, rules_of_share h, hpart]

/-- The executions of a tenant are listed alike where the share of the tenant is the same. -/
theorem executions_listed_of_share (h : e'.share (· == u) = e.share (· == u)) {q : ExecutionQuery}
    (hq : q.tenantId = u) : e'.executions.list q = e.executions.list q := by
  have hpart : ∀ s : ExecutionStore, (s.part (· == u)).list q = s.list q := fun _ =>
    ExecutionStore.list_part (beq_iff_eq.mpr hq)
  rw [← hpart, executions_of_share h, hpart]

/-- What is kept and what runs under the identifier of a trial belongs to the tenant of the trial. -/
theorem Owned.wanted_of_trial (he : e.Owned) (ht : t ∈ e.executions.trials) (hwanted : wanted t.tenantId = true) :
    (∀ w ∈ e.executions.trials, w.id = t.id → wanted w.tenantId = true) ∧
      ∀ run ∈ e.runs, run.execution.id = t.id → wanted run.execution.tenantId = true := by
  refine ⟨fun w hw hid => ?_, fun run hrun hid => ?_⟩
  · rw [he.recorded.eq_of_id hw ht hid]
    exact hwanted
  · rw [he.recorded.tenant_of_run ht hrun hid]
    exact hwanted

/-- A trial of a wanted tenant is one wherever the share is the same. -/
theorem trial_of_share (h : e'.share wanted = e.share wanted) (ht : t ∈ e.executions.trials)
    (hwanted : wanted t.tenantId = true) : t ∈ e'.executions.trials := by
  have hmem : t ∈ (e.executions.part wanted).trials := by
    rw [ExecutionStore.trials_part]
    exact List.mem_filter.mpr ⟨ht, hwanted⟩
  rw [← executions_of_share h, ExecutionStore.trials_part] at hmem
  exact (List.mem_filter.mp hmem).1

/-- What is kept of an execution of a wanted tenant is the same wherever the share is. -/
theorem entry_of_share (he : e.Owned) (he' : e'.Owned) (h : e'.share wanted = e.share wanted)
    (ht : t ∈ e.executions.trials) (hwanted : wanted t.tenantId = true) :
    e'.executions.entryAt t.id = e.executions.entryAt t.id := by
  have hpart : ∀ {e : Engine σ}, e.Owned → t ∈ e.executions.trials →
      (e.executions.part wanted).entryAt t.id = e.executions.entryAt t.id := fun he ht =>
    ExecutionStore.entry_part (he.wanted_of_trial ht hwanted).1
  rw [← hpart he' (trial_of_share h ht hwanted), executions_of_share h, hpart he ht]

/-- The run of an execution of a wanted tenant is the same wherever the share is. -/
theorem run_of_share (he : e.Owned) (he' : e'.Owned) (h : e'.share wanted = e.share wanted)
    (ht : t ∈ e.executions.trials) (hwanted : wanted t.tenantId = true) : e'.run? t.id = e.run? t.id := by
  have hpart : ∀ {e : Engine σ}, e.Owned → t ∈ e.executions.trials →
      (e.runs.filter (wanted ·.execution.tenantId)).find? (·.execution.id == t.id) = e.run? t.id := fun he ht =>
    Keyed.find_filter (fun run : Run => run.execution.id) (he.wanted_of_trial ht hwanted).2
  rw [← hpart he' (trial_of_share h ht hwanted), runs_of_share h, hpart he ht]

end Engine

end Rulebook
