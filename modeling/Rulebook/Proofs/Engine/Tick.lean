import Rulebook.Proofs.Engine.Catalog
import Rulebook.Proofs.Engine.Mirror
import Rulebook.Proofs.Registry.Tick

/-!
# What a tick of an engine starts

An engine is a lawful host, what it does on its own leaves rules registered and in use, and its registry can be
reached (`Engine.host_lawful`, `Engine.host_keeps_in_use`, `Engine.after_reached`). But what is done to it while a tick
waits for an execution does not keep rules as they were. Which jobs are due is told before that, so a job is
started that was taken away meanwhile (`Host.tick_starts`).
-/

namespace Rulebook

namespace Engine

variable {σ : Type}

/-- An engine has its registry in its state. -/
theorem host_lawful (v : Environment σ) (now : Moment) : (host v now).Lawful registry :=
  ⟨fun _ => rfl, fun _ _ => rfl, fun _ _ => rfl⟩

/-- Executing a rule leaves the registry. -/
theorem execute_registry (v : Environment σ) (now : Moment) (e : Engine σ) (ruleId : String) (data : Fields)
    (context : ExecutionContext) (triggeredBy : Option String) :
    (e.execute v now ruleId data context triggeredBy).1.registry = e.registry := by
  obtain h | ⟨_, _, _, _, h⟩ :=
    (execute_recounted v now e ruleId data context triggeredBy).cases
  · exact congrArg Prod.snd h
  · exact h

/-- What an engine does on its own keeps rules registered and in use. -/
theorem host_keeps_in_use (v : Environment σ) (now : Moment) (ruleId : String) :
    (host v now).Keeps (Host.InUse registry ruleId) where
  note _ _ h := h
  execute e id o h := by
    obtain ⟨r, hr, hactive⟩ := h
    have hregistry := execute_registry v now e id o.data o.context (some o.triggeredBy)
    exact ⟨r, hregistry ▸ hr, hactive⟩
  source reading hreading e r h := by
    obtain ⟨f, _, rfl⟩ := Option.map_eq_some_iff.mp hreading
    exact h

/-- A regular act leaves the registry one that can be reached. -/
theorem act_reached {v : Environment σ} {now : Moment} {e : Engine σ} {act : Act} (hact : act.isRegular = true)
    (h : e.registry.Reached) : (act.apply v now e).registry.Reached := by
  cases act_catalog v now e hact with
  | same hsame =>
      have hregistry : (act.apply v now e).registry = e.registry := congrArg Prod.snd hsame
      exact hregistry ▸ h
  | registered _ _ hregistry => exact hregistry ▸ h.register _ _ _
  | withdrawn _ _ _ hregistry => exact hregistry ▸ h.unregister _
  | counted _ _ _ hregistry => exact hregistry ▸ h

/-- Regular acts leave the registry one that can be reached. -/
theorem after_reached {v : Environment σ} {e : Engine σ} {acts : List (Moment × Act)} (h : e.registry.Reached)
    (hregular : ∀ act ∈ acts, act.2.isRegular = true) : (e.after v acts).registry.Reached := by
  induction acts generalizing e with
  | nil => exact h
  | cons act acts ih =>
      obtain ⟨hact, hrest⟩ := List.forall_mem_cons.mp hregular
      exact ih (act_reached hact h) hrest

end Engine

namespace Host

variable {σ : Type}

/-- When due jobs are fired, whatever is done to the registry between their turns and while conditions are polled,
executions are started for due jobs only. For a job of a schedule the rule is registered and in use at that moment,
and it has the trigger in use if it is still the registration of the start; for a job that polls, the rule that was
polled just before was registered and in use and had the trigger in use then. But a due job of a schedule is
started whenever its rule stays registered and in use, whatever triggers it has by then: that the job was taken
away or replaced before its turn does not matter. -/
theorem tick_starts {h : Host σ} {registry : σ → Registry} {s : σ} {now : Moment} {due : List Job}
    (hlaw : h.Lawful registry) (hreached : (registry s).Reached)
    (hdue : ((registry s).scheduler.due now).due = .ok due) {replies : List (Reply σ)}
    (hreplies : ∀ reply ∈ replies, reply.host.Lawful registry) :
    ∃ log p, h.watchTick now s replies = (log, .ok p) ∧
      (∀ before x ruleId o later, log = before ++ .started x ruleId o :: later →
        Justified registry (registry s) due before x o ruleId) ∧
      ∀ j ∈ due, j.kind ≠ "condition" → InUse registry j.ruleId s → h.Keeps (InUse registry j.ruleId) →
        (∀ reply ∈ replies, reply.host.Keeps (InUse registry j.ruleId) ∧ InUse registry j.ruleId reply.state) →
        (∃ x, .started x j.ruleId (.ofJob "schedule" j.triggerId []) ∈ log) ∨
          ∃ id r e, p = .waits id r e ∧ j ∈ e.jobs := by
  have howned : ∀ j ∈ due, (registry s).Owns j := by
    intro k hk
    obtain ⟨j, hj, hsame⟩ := (Scheduler.due_same_use _ now).2 due hdue k hk
    exact (hreached.owns j hj).same_use hsame
  have hturn : ∀ j ∈ due, ∀ x log more, Turn registry j x more → AllJustified registry (registry s) due log →
      AllJustified registry (registry s) due (log ++ more) := fun j hj _ _ _ htakes hlog =>
    hlog.turn howned hj htakes
  have hnone : AllJustified registry (registry s) due [] := fun before _ _ _ _ heq => by cases before <;> cases heq
  obtain ⟨x, hx, hwatch⟩ := watch_tick_eq hlaw hdue replies
  obtain ⟨hgood, howes⟩ := fire_keeps hlaw hturn (List.Subset.refl due) (x, []) [] hnone
  refine ⟨_, _, hwatch, proceed_keeps hturn hreplies hgood howes, fun j hj hkind hs hkeeps hstays => ?_⟩
  have hstart : InUse registry j.ruleId x := by
    unfold InUse
    rw [hx]
    exact hs
  exact proceed_serves hkind hreplies hstays (fire_serves hlaw hkind hkeeps hj (x, []) [] hstart) howes

/-- What a start is of, and the triggers that its rule has in use at that moment. -/
def startOf {σ : Type} : Seen (Engine σ) → Option (String × String × List String)
  | .polled _ _ => none
  | .started e ruleId o => some (ruleId, o.triggeredBy,
      ((e.registry.rule? ruleId).map fun r => r.enabledTriggers.map (·.id)).getD [])

/-- The jobs whose turn comes after the wait. -/
def owed : Outcome Progress → List Job
  | .ok (.waits _ _ e) => e.jobs
  | _ => []

/-- A rule is registered and in use exactly if the one that is found under its identifier is. -/
instance {σ : Type} {registry : σ → Registry} {ruleId : String} {s : σ} : Decidable (InUse registry ruleId s) :=
  decidable_of_iff (((registry s).rule? ruleId).any (·.isActive) = true) (Option.any_eq_true ..)

/-- Two rules are due, and while the first one is executed, the second one gets a definition without triggers: it is
started for its former trigger all the same. -/
theorem tick_starts_revoked :
    let v := Environment.scripted
    let timed := RuleDraft.scheduled .interval "5m"
    let e := ({ Engine.blank with world := [.waits .plain] } : Engine (List Attempt)).after v
      [(.utc 0, .createRule { timed with actions := [.plain "action"] }), (.utc 0, .createRule timed)]
    let now := Moment.utc (5 * microsPerMinute)
    let updated := ((Engine.host v now).tick now e).1.after v
      [(now, .updateRule "rule_0002" (Rule.plain "" []).toRuleDefinition none)]
    let later := Moment.utc (5 * microsPerMinute + microsPerSecond)
    let reply : Reply (Engine (List Attempt)) :=
      ⟨Engine.host v later, (updated.ring v later (.wake "exec_0001" 0)).1, .ok "exec_0001"⟩
    (((Engine.host v now).watchTick now e [reply]).1.filterMap startOf =
        [("rule_0001", "schedule:trigger", ["trigger"]), ("rule_0002", "schedule:trigger", [])]) ∧
      ∃ x, .started x "rule_0002" (.ofJob "schedule" "trigger" []) ∈
        ((Engine.host v now).watchTick now e [reply]).1 := by
  intro v timed e now updated later reply
  refine ⟨by decide +kernel, ?_⟩
  have hreached : e.registry.Reached := Engine.after_reached .empty (by decide)
  have hripe : ((e.registry.scheduler.due now).due.toOption.any fun due => due.any fun j =>
      decide (j.kind ≠ "condition" ∧ j.ruleId = "rule_0002" ∧ j.triggerId = "trigger")) = true := by decide +kernel
  have hnow : InUse Engine.registry "rule_0002" e := by decide +kernel
  have hthen : InUse Engine.registry "rule_0002" reply.state := by decide +kernel
  have hleft : owed ((Engine.host v now).watchTick now e [reply]).2 = [] := by decide +kernel
  cases hdue : (e.registry.scheduler.due now).due with
  | error f =>
      rw [hdue] at hripe
      cases hripe
  | ok due =>
      rw [hdue] at hripe
      obtain ⟨j, hj, hripe⟩ := List.any_eq_true.mp hripe
      obtain ⟨hkind, hrule, htrigger⟩ := of_decide_eq_true hripe
      have hlater : ∀ r ∈ [reply], r.host.Lawful Engine.registry :=
        List.forall_mem_singleton.mpr (Engine.host_lawful v later)
      obtain ⟨log, p, hwatch, -, hserves⟩ := tick_starts (Engine.host_lawful v now) hreached hdue hlater
      rw [← hrule] at hnow hthen
      have hstarted := hserves j hj hkind hnow (Engine.host_keeps_in_use v now _)
        (List.forall_mem_singleton.mpr ⟨Engine.host_keeps_in_use v later _, hthen⟩)
      rw [hrule, htrigger] at hstarted
      rw [hwatch] at hleft ⊢
      obtain hstarted | ⟨_, _, errand, rfl, hj⟩ := hstarted
      · exact hstarted
      · change errand.jobs = [] at hleft
        rw [hleft] at hj
        cases hj

end Host

end Rulebook
