import Rulebook.Proofs.Engine.Reached
import Rulebook.Proofs.Engine.Twin

/-!
# Engines that are alike to a tenant

Two orderly engines are alike to a tenant if they hold the same share of the tenant and their services are in the same
state (`Engine.Alike`). Whatever the tenant asks, whether it is about something of its own or of another tenant, both
give the same answer (`Engine.Alike.get_rule`, `Engine.Alike.get_execution`, `Engine.Alike.metrics`), and what the
tenant does comes out alike (`Engine.Alike.update_rule`, `Engine.Alike.create_rule`, `Engine.Alike.cancel`).
-/

namespace Rulebook

/-- What is got of stores that have the same entry of an identifier is the same. -/
theorem ExecutionStore.get_of_entry {s s' : ExecutionStore} {id : String} (h : s'.entryAt id = s.entryAt id) :
    s'.get id = s.get id := by
  cases hentry : s.entryAt id with
  | none => rw [get_of_entry_eq_none hentry, get_of_entry_eq_none (h.trans hentry)]
  | some n => rw [get_eq hentry, get_eq (h.trans hentry)]

/-- The rule that is made of a draft. -/
def RuleDraft.made (d : RuleDraft) (id : String) (now : Moment) : Rule :=
  { d with id, createdAt := now, updatedAt := now }

/-- A run is that of its own execution. -/
theorem Run.named_self {run : Run} {id : String} (h : run.execution.id = id) : run.named id = run := by
  rw [named, run.execution.named_self h]

namespace Engine

variable {σ : Type} {v : Environment σ} {now : Moment} {e e' : Engine σ} {u ruleId id : String}

/-- The identifier that the next rule gets. -/
def nextRule (e : Engine σ) : String := identifier "rule" (e.ruleIds + 1)

/-- Two orderly engines hold the same share of a tenant, and their services are in the same state. -/
structure Alike (u : String) (e e' : Engine σ) : Prop where
  orderly : e.Orderly
  orderly' : e'.Orderly
  share : e'.share (· == u) = e.share (· == u)
  world : e'.world = e.world

/-- Creating a rule fails if the store does not admit the rule or not all of its jobs can be armed. -/
theorem Owned.create_rule_outcome (he : e.Owned) (v : Environment σ) (now : Moment) (d : RuleDraft) :
    (e.perform (createRule v now d)).2 = (do
      e.rules.admits (d.made e.nextRule now)
      (e.registry.register v.source.isSome now (d.made e.nextRule now)).2.outcome
      .ok (d.made e.nextRule now)) := by
  have hfresh : ∀ o ∈ e.rules.owners, o.1 ≠ (d.made e.nextRule now).id := by
    intro o ho heq
    obtain ⟨n, hn, hid⟩ := he.numbered o ho
    have hnumber := identifier_injective "rule" (hid.symm.trans heq)
    omega
  rw [← RuleStore.create_of_absent hfresh, createRule, perform_bind, perform_get]
  dsimp only
  rw [perform_bind, perform_modify]
  dsimp only
  rw [perform_bind, perform_get]
  dsimp only
  rw [perform_bind, perform_lift]
  cases hcreate : e.rules.create
    { d with id := identifier "rule" (e.ruleIds + 1), createdAt := now, updatedAt := now } with
  | error f =>
      rw [show e.rules.create (d.made e.nextRule now) = _ from hcreate]
      rfl
  | ok t =>
      rw [show e.rules.create (d.made e.nextRule now) = _ from hcreate]
      dsimp only
      rw [perform_bind, perform_modify]
      dsimp only
      rw [perform_bind_const _ fun _ _ => rfl]
      show (e.registry.register v.source.isSome now (d.made e.nextRule now)).2.outcome.map _ = _
      cases (e.registry.register v.source.isSome now (d.made e.nextRule now)).2.outcome <;> rfl

/-- A tenant is not told of a rule that is not its own. -/
theorem Orderly.get_rule_of_foreign (he : e.Orderly) (h : (ruleId, u) ∉ e.rules.owners) :
    e.getRule ruleId (some u) = .error (.ruleNotFound ruleId) := by
  obtain ⟨found, hfound⟩ := he.rules.found ruleId
  rw [getRule, hfound]
  cases found with
  | none => rfl
  | some r =>
      have hne : (u == r.tenantId) = false :=
        beq_false_of_ne fun heq => h (heq ▸ (RuleStore.owner_of_get hfound).2)
      exact if_neg (by simp [hne])

/-- A tenant is not told of an execution that is not its own. -/
theorem Orderly.get_execution_of_foreign (he : e.Orderly)
    (h : ∀ t ∈ e.executions.trials, t.id = id → t.tenantId ≠ u) :
    e.getExecution id (some u) = .error (.executionNotFound id) := by
  obtain ⟨found, hfound⟩ := he.executions.found id
  rw [getExecution, hfound]
  cases found with
  | none => rfl
  | some x =>
      have hne : (u == x.tenantId) = false := beq_false_of_ne fun heq =>
        h x.trial (ExecutionStore.trial_mem_of_get hfound) (ExecutionStore.id_of_get hfound) heq.symm
      exact if_neg (by simp [hne])

namespace Alike

/-- A tenant gets the same rule from both engines, or from neither. -/
theorem get_rule (h : Alike u e e') (ruleId : String) : e'.getRule ruleId (some u) = e.getRule ruleId (some u) := by
  by_cases howner : (ruleId, u) ∈ e.rules.owners
  · rw [getRule, (rule_of_share h.orderly.owned h.orderly'.owned h.share howner).2, getRule]
  · have howner' : (ruleId, u) ∉ e'.rules.owners := fun hmem =>
      howner (rule_of_share h.orderly'.owned h.orderly.owned h.share.symm hmem).1
    rw [h.orderly.get_rule_of_foreign howner, h.orderly'.get_rule_of_foreign howner']

/-- A tenant gets the same rules listed by both engines. -/
theorem list_rules (h : Alike u e e') : e'.listRules u = e.listRules u := by
  rw [listRules, rules_listed_of_share h.share, listRules]

/-- An execution is the tenant's, or it is not in either engine. -/
theorem mine_or_foreign (h : Alike u e e') (id : String) :
    (∃ t ∈ e.executions.trials, t.id = id ∧ t.tenantId = u) ∨
      (∀ t ∈ e.executions.trials, t.id = id → t.tenantId ≠ u) ∧
        ∀ t ∈ e'.executions.trials, t.id = id → t.tenantId ≠ u := by
  by_cases htrial : ∃ t ∈ e.executions.trials, t.id = id ∧ t.tenantId = u
  · exact .inl htrial
  · exact .inr ⟨fun t ht hid hu => htrial ⟨t, ht, hid, hu⟩, fun t ht hid hu =>
      htrial ⟨t, trial_of_share h.share.symm ht (beq_iff_eq.mpr hu), hid, hu⟩⟩

/-- A tenant gets the same execution from both engines, or from neither. -/
theorem get_execution (h : Alike u e e') (id : String) :
    e'.getExecution id (some u) = e.getExecution id (some u) := by
  obtain ⟨t, ht, rfl, hu⟩ | ⟨hforeign, hforeign'⟩ := h.mine_or_foreign id
  · have hentry := entry_of_share h.orderly.owned h.orderly'.owned h.share ht (beq_iff_eq.mpr hu)
    rw [getExecution, ExecutionStore.get_of_entry hentry, getExecution]
  · rw [h.orderly.get_execution_of_foreign hforeign, h.orderly'.get_execution_of_foreign hforeign']

/-- A tenant gets the same executions listed by both engines. -/
theorem list_executions (h : Alike u e e') {q : ExecutionQuery} (hq : q.tenantId = u) :
    e'.listExecutions q = e.listExecutions q := by
  rw [listExecutions, executions_listed_of_share h.share hq, listExecutions]

/-- A tenant gets the same metrics from both engines. -/
theorem metrics (h : Alike u e e') (now : Moment) (period : Option Period) :
    e'.metrics now u period = e.metrics now u period := by
  have hexecutions : ∀ p, e'.executions.list ⟨u, p, none, none⟩ = e.executions.list ⟨u, p, none, none⟩ := fun _ =>
    executions_listed_of_share h.share rfl
  simp only [Engine.metrics, rules_listed_of_share h.share, hexecutions]

/-! ### What a tenant does to its rules -/

/-- A rule that the tenant gets is its own in both engines. -/
theorem found (h : Alike u e e') (ruleId : String) :
    Outcome.Agree (fun q q' => q' = q ∧ (q.id, q.tenantId) ∈ e.rules.owners ∧ q.tenantId = u)
      (e.getRule ruleId (some u)) (e'.getRule ruleId (some u)) := by
  rw [h.get_rule]
  cases hq : e.getRule ruleId (some u) with
  | error f => exact .failed f
  | ok q =>
      obtain ⟨_, hid, htenant, howner⟩ := owner_of_found hq
      exact .gave ⟨rfl, by rw [hid, htenant]; exact howner, htenant⟩

/-- A version of a rule of the tenant is written in both engines or in none. -/
theorem save_rule (h : Alike u e e') {r : Rule} (howner : (r.id, r.tenantId) ∈ e.rules.owners)
    (hu : r.tenantId = u) : Couples (fun a b => a = e ∧ b = e') (fun _ _ => True) (fun _ _ => True) (saveRule r)
      (saveRule r) := by
  refine couples_bind couples_get fun a b hab => ?_
  obtain ⟨rfl, rfl⟩ := hab
  subst hu
  have howner' := (rule_of_share h.orderly.owned h.orderly'.owned h.share howner).1
  have hupdate := RuleStore.update_agrees (r := r) (rules_of_share h.share)
    (fun o ho hid => beq_iff_eq.mpr (h.orderly.owned.owner_unique howner o ho hid))
    (fun o ho hid => beq_iff_eq.mpr (h.orderly'.owned.owner_unique howner' o ho hid)) (beq_self_eq_true _)
  exact couples_bind (couples_lift hupdate) fun _ _ _ => couples_ignore _ _

/-- What is done with a rule of the tenant after a version of it was written comes out alike. -/
theorem revise_rule {β : Type} (h : Alike u e e') (ruleId : String) (change : Rule → Rule)
    (hid : ∀ q, (change q).id = q.id) (htenant : ∀ q, (change q).tenantId = q.tenantId) {rest : Rule → EngineM σ β}
    (hrest : ∀ q, Couples (fun _ _ => True) (fun _ _ => True) Eq (rest q) (rest q)) :
    Couples (fun a b => a = e ∧ b = e') (fun _ _ => True) Eq
      (do let q ← lift ((← get).getRule ruleId (some u)); saveRule (change q); rest q)
      (do let q ← lift ((← get).getRule ruleId (some u)); saveRule (change q); rest q) := by
  refine couples_bind couples_get fun a b hab => ?_
  obtain ⟨rfl, rfl⟩ := hab
  refine couples_bind (couples_lift (h.found ruleId)) fun q q' hq => ?_
  obtain ⟨rfl, howner, hu⟩ := hq
  refine couples_bind (h.save_rule ?_ ((htenant q').trans hu)) fun _ _ _ => hrest q'
  rw [hid, htenant]
  exact howner

end Alike

/-- Registering comes out alike whatever the registries hold. -/
theorem couples_register {q r : Rule} (hactive : q.isActive = r.isActive) (htriggers : q.triggers = r.triggers) :
    Couples (fun _ _ => True) (fun _ _ => True) (fun _ _ => True) (register v now q) (register v now r) := by
  refine couples_bind couples_get fun a b _ => ?_
  have houtcome : Outcome.Agree (fun _ _ => True) (a.registry.register v.source.isSome now q).2.outcome
      (b.registry.register v.source.isSome now r).2.outcome := by
    rw [Registry.register_outcome_eq a.registry b.registry hactive htriggers]
    cases (b.registry.register v.source.isSome now r).2.outcome with
    | error f => exact .failed f
    | ok _ => exact .gave trivial
  exact couples_bind (couples_ignore _ _) fun _ _ _ =>
    couples_bind (couples_ignore _ _) fun _ _ _ => couples_lift houtcome

namespace Alike

/-- A rule of the tenant gets a new definition alike. -/
theorem update_rule (h : Alike u e e') (ruleId : String) (d : RuleDefinition) :
    (e'.perform (updateRule v now ruleId d (some u))).2 = (e.perform (updateRule v now ruleId d (some u))).2 :=
  (h.revise_rule ruleId (fun q => redefine q d now) (fun _ => rfl) (fun _ => rfl) fun _ =>
    couples_bind (couples_register rfl rfl) fun _ _ _ =>
      couples_bind (couples_ignore _ _) fun _ _ _ => couples_pure rfl).outcome_eq ⟨rfl, rfl⟩

/-- A rule of the tenant is taken out of use alike. -/
theorem deactivate_rule (h : Alike u e e') (ruleId : String) :
    (e'.perform (deactivateRule now ruleId (some u))).2 = (e.perform (deactivateRule now ruleId (some u))).2 :=
  (h.revise_rule ruleId (fun q => { q with isActive := false, updatedAt := now }) (fun _ => rfl) (fun _ => rfl)
    fun _ => couples_bind (couples_ignore _ _) fun _ _ _ =>
      couples_bind (couples_ignore _ _) fun _ _ _ => couples_pure rfl).outcome_eq ⟨rfl, rfl⟩

/-- A rule that is created for a tenant is the same in both engines, but for its identifier, or it cannot be created
in either. -/
theorem create_rule (h : Alike u e e') (v : Environment σ) (now : Moment) (d : RuleDraft) :
    ∃ o : Outcome Rule, (e.perform (createRule v now d)).2 = o.map (fun r => { r with id := e.nextRule }) ∧
      (e'.perform (createRule v now d)).2 = o.map (fun r => { r with id := e'.nextRule }) := by
  rw [h.orderly.owned.create_rule_outcome, h.orderly'.owned.create_rule_outcome]
  have hadmits : e'.rules.admits = e.rules.admits := by
    rw [← RuleStore.admits_part e'.rules (· == u), rules_of_share h.share, RuleStore.admits_part]
  have hregister : (e'.registry.register v.source.isSome now (d.made e'.nextRule now)).2.outcome =
      (e.registry.register v.source.isSome now (d.made e.nextRule now)).2.outcome :=
    Registry.register_outcome_eq _ _ rfl rfl
  have hrenamed : e.rules.admits (d.made e'.nextRule now) = e.rules.admits (d.made e.nextRule now) :=
    e.rules.admits_renamed (d.made e.nextRule now) e'.nextRule
  rw [hadmits, hregister, hrenamed]
  refine ⟨do
    e.rules.admits (d.made e.nextRule now)
    (e.registry.register v.source.isSome now (d.made e.nextRule now)).2.outcome
    .ok (d.made e.nextRule now), ?_⟩
  cases e.rules.admits (d.made e.nextRule now) with
  | error f => exact ⟨rfl, rfl⟩
  | ok _ =>
      cases (e.registry.register v.source.isSome now (d.made e.nextRule now)).2.outcome with
      | error f => exact ⟨rfl, rfl⟩
      | ok _ => exact ⟨rfl, rfl⟩

/-! ### Executions of the tenant -/

/-- What is kept and what runs of an execution of the tenant is the same in both engines. -/
theorem twins (h : Alike u e e') {t : Trial} (ht : t ∈ e.executions.trials) (hu : t.tenantId = u) :
    Twins u t.ruleId t.id t.id e e' := by
  obtain ⟨n, hentry⟩ := ExecutionStore.entry_of_trial ht
  obtain ⟨w, hw, hid, htenant⟩ := ExecutionStore.trial_of_entry hentry
  rw [h.orderly.owned.recorded.eq_of_id hw ht hid, hu] at htenant
  have hentry' := entry_of_share h.orderly.owned h.orderly'.owned h.share ht (beq_iff_eq.mpr hu)
  have hrun' := run_of_share h.orderly.owned h.orderly'.owned h.share ht (beq_iff_eq.mpr hu)
  exact {
    rules := rules_of_share h.share
    owner := hu ▸ h.orderly.owned.tried t ht
    distinct := h.orderly.owned.distinct
    distinct' := h.orderly'.owned.distinct
    executions := ⟨kind_of_share h.share, by rw [hentry', hentry, Option.map_some, ExecutionStore.named_self hentry]⟩
    entry := ⟨n, hentry, htenant.symm⟩
    run := by
      rw [hrun']
      cases hrun : e.run? t.id with
      | none => rfl
      | some run => exact congrArg some (Run.named_self (Core.mem_of_run (k := e.core) hrun).2).symm
    mine := fun run hrun => by
      obtain ⟨hmem, hid⟩ := Core.mem_of_run (k := e.core) hrun
      obtain ⟨w, hw, htold⟩ := h.orderly.owned.recorded.runs run hmem
      have hsame := ExecutionStore.told_as htold
      obtain rfl := h.orderly.owned.recorded.eq_of_id hw ht (hsame.id.trans hid)
      exact ⟨hid, hsame.ruleId.symm, hsame.tenantId.symm.trans hu⟩
    world := h.world }

end Alike

/-- A tenant cannot cancel an execution that is not its own, and is not told of it. -/
theorem Orderly.cancel_of_foreign (he : e.Orderly) (h : ∀ t ∈ e.executions.trials, t.id = id → t.tenantId ≠ u) :
    (e.perform (cancel now id (some u))).2 = .error (.executionNotFound id) := by
  have hget := he.get_execution_of_foreign h
  rw [cancel, perform_bind, perform_get]
  dsimp only
  cases hrun : e.run? id with
  | none => exact hget
  | some run =>
      cases e.inFlight.contains id with
      | false => exact hget
      | true =>
          obtain ⟨hmem, hid⟩ := Core.mem_of_run (k := e.core) hrun
          obtain ⟨w, hw, htold⟩ := he.owned.recorded.runs run hmem
          have hsame := ExecutionStore.told_as htold
          have hne : (u == run.execution.tenantId) = false := beq_false_of_ne fun heq =>
            h w hw (hsame.id.trans hid) (hsame.tenantId.trans heq.symm)
          dsimp only
          rw [if_neg (by simp [hne])]
          rfl

/-- The run of an execution of the tenant is cancelled alike. -/
theorem couples_cancel_run {run : Run} (hrun : run.execution.IsOf u ruleId id) :
    Couples (Twins (σ := σ) u ruleId id id) (Twins u ruleId id id) Eq
      (do
        let (x, moved) := run.execution.moveTo .cancelled now (some "Execution cancelled")
        putRun { run with execution := x }
        if moved then
          saveExecution x
          note [x.cancelNote]
        return x)
      (do
        let (x, moved) := run.execution.moveTo .cancelled now (some "Execution cancelled")
        putRun { run with execution := x }
        if moved then
          saveExecution x
          note [x.cancelNote]
        return x) := by
  have hmoved := hrun.of_origin (run.execution.precedes_move_to now (some "Execution cancelled")
    (rfl : ExecutionStatus.isTerminal .cancelled = true)).origin
  rcases hmove : run.execution.moveTo .cancelled now (some "Execution cancelled") with ⟨x, moved⟩
  rw [hmove] at hmoved
  have hput := @couples_put_run σ u ruleId id id { run with execution := x } hmoved
  have hsave := @couples_save_execution σ u ruleId id id _ hmoved
  rw [Run.named_self hmoved.id] at hput
  rw [show (x, moved).1.named id = x from x.named_self hmoved.id] at hsave
  refine couples_bind hput fun _ _ _ => ?_
  cases moved with
  | false => exact couples_pure rfl
  | true => exact couples_bind hsave fun _ _ _ => couples_bind (couples_unseen fun _ _ h => { h with }) fun _ _ _ =>
      couples_pure rfl

namespace Alike

/-- An execution is cancelled alike, if it is the tenant's, and else it is not found. -/
theorem cancel (h : Alike u e e') (id : String) :
    (e'.perform (Engine.cancel now id (some u))).2 = (e.perform (Engine.cancel now id (some u))).2 := by
  obtain ⟨t, ht, rfl, hu⟩ | ⟨hforeign, hforeign'⟩ := h.mine_or_foreign id
  · have htwins := h.twins ht hu
    have hget := h.get_execution t.id
    have hrun' := run_of_share h.orderly.owned h.orderly'.owned h.share ht (beq_iff_eq.mpr hu)
    rw [Engine.cancel, perform_bind, perform_bind, perform_get, perform_get]
    dsimp only
    rw [hrun']
    cases hrun : e.run? t.id with
    | none => exact hget
    | some run =>
        have hmine := htwins.mine run hrun
        have hflight := in_flight_of_share h.share (Core.mem_of_run (k := e.core) hrun).1
          (beq_iff_eq.mpr hmine.tenantId)
        rw [hmine.id] at hflight
        rw [hflight]
        cases e.inFlight.contains t.id with
        | false => exact hget
        | true =>
            dsimp only
            rw [if_pos (by simp [hmine.tenantId])]
            exact (couples_cancel_run hmine).outcome_eq htwins
  · rw [h.orderly.cancel_of_foreign hforeign, h.orderly'.cancel_of_foreign hforeign']

end Alike

end Engine

end Rulebook
