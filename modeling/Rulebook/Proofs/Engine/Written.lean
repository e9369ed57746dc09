import Rulebook.Proofs.Engine.Overrun
import Rulebook.Proofs.Engine.Owner

/-!
# Calls that fail when their rule is written

To create a rule or to give one a new definition is to write the rule and then to register it. A call whose rule is
not written leaves the catalog of the engine; but nothing undoes the write when registering breaks off, so then the
rule is kept and in use, and its jobs are those of the triggers before the one that overruns
(`Engine.rule_call_fails_iff`).
-/

namespace Rulebook

/-- A call that writes a rule. -/
inductive RuleCall where
  /-- It creates a rule. -/
  | create (d : RuleDraft)
  /-- It gives a rule of a tenant, or of any, a new definition. -/
  | update (ruleId : String) (d : RuleDefinition) (tenantId : Option String)

namespace RuleCall

variable {σ : Type}

/-- What a call does. -/
def run (v : Environment σ) (now : Moment) : RuleCall → EngineM σ Rule
  | create d => Engine.createRule v now d
  | update ruleId d tenantId => Engine.updateRule v now ruleId d tenantId

/-- The rule that a call writes, with the store that takes it, or why there is none. -/
def written (now : Moment) (e : Engine σ) : RuleCall → Outcome (Rule × RuleStore)
  | create d =>
    let r : Rule := { d with id := identifier "rule" (e.ruleIds + 1), createdAt := now, updatedAt := now }
    (e.rules.create r).map fun t => (r, t)
  | update ruleId d tenantId => do
    let q ← e.getRule ruleId tenantId
    (e.rules.update (Engine.redefine q d now)).map fun t => (Engine.redefine q d now, t)

end RuleCall

namespace Engine

variable {σ : Type} {v : Environment σ} {now : Moment} {e : Engine σ} {call : RuleCall} {f : Failure} {r : Rule}
  {t : RuleStore}

/-- A call whose rule is not written fails for that reason and leaves the catalog. -/
theorem run_of_unwritten (h : call.written now e = .error f) :
    (e.perform (call.run v now)).2 = .error f ∧ (e.perform (call.run v now)).1.catalog = e.catalog := by
  cases call with
  | create d =>
      have hcreate := Outcome.map_eq_error.mp h
      rw [RuleCall.run, createRule, perform_bind, perform_get]
      dsimp only
      rw [perform_bind, perform_modify]
      dsimp only
      rw [perform_bind, perform_get]
      dsimp only
      rw [perform_bind, perform_lift, hcreate]
      exact ⟨rfl, rfl⟩
  | update ruleId d tenantId =>
      rw [RuleCall.run, updateRule, perform_bind, perform_get]
      dsimp only
      rw [perform_bind, perform_lift]
      obtain hq | ⟨q, hq, hupdate⟩ := Outcome.bind_eq_error.mp h
      · rw [hq]
        exact ⟨rfl, rfl⟩
      · rw [hq]
        dsimp only
        rw [saveRule, perform_bind, perform_bind, perform_get]
        dsimp only
        rw [perform_bind, perform_lift, Outcome.map_eq_error.mp hupdate]
        exact ⟨rfl, rfl⟩

/-- What follows when a rule is written registers it, and leaves the store. -/
theorem register_and_note (v : Environment σ) (now : Moment) (e : Engine σ) (r : Rule) (notes : List LogEntry) :
    let p := e.perform (do register v now r; note notes; return r)
    p.1.catalog = (e.rules, (e.registry.register v.source.isSome now r).1) ∧
      p.2 = (e.registry.register v.source.isSome now r).2.outcome.map fun _ => r := by
  obtain ⟨hcatalog, hresult⟩ := register_catalog v now e r
  dsimp only
  rw [perform_bind, ← hresult]
  rcases hregister : e.perform (register v now r) with ⟨e', g | u⟩ <;>
  · rw [hregister] at hcatalog
    exact ⟨hcatalog, rfl⟩

/-- A call whose rule is written registers it, whether that breaks off or not. -/
theorem run_of_written (h : call.written now e = .ok (r, t)) :
    (e.perform (call.run v now)).1.catalog = (t, (e.registry.register v.source.isSome now r).1) ∧
      (e.perform (call.run v now)).2 = (e.registry.register v.source.isSome now r).2.outcome.map fun _ => r := by
  cases call with
  | create d =>
      obtain ⟨t', hcreate, heq⟩ := Outcome.map_eq_ok.mp h
      cases heq
      rw [RuleCall.run, createRule, perform_bind, perform_get]
      dsimp only
      rw [perform_bind, perform_modify]
      dsimp only
      rw [perform_bind, perform_get]
      dsimp only
      rw [perform_bind, perform_lift, hcreate]
      dsimp only
      rw [perform_bind, perform_modify]
      exact register_and_note v now { e with ruleIds := e.ruleIds + 1, rules := t } _ _
  | update ruleId d tenantId =>
      obtain ⟨q, hq, hupdated⟩ := Outcome.bind_eq_ok.mp h
      obtain ⟨t', hupdate, heq⟩ := Outcome.map_eq_ok.mp hupdated
      cases heq
      rw [RuleCall.run, updateRule, perform_bind, perform_get]
      dsimp only
      rw [perform_bind, perform_lift, hq]
      dsimp only
      rw [saveRule, perform_bind, perform_bind, perform_get]
      dsimp only
      rw [perform_bind, perform_lift, hupdate]
      exact register_and_note v now { e with rules := t } _ _

/-- The rule that a call writes is kept by the store that takes it. -/
theorem owner_of_written (h : call.written now e = .ok (r, t)) : (r.id, r.tenantId) ∈ t.owners := by
  cases call with
  | create d =>
      obtain ⟨t', hcreate, heq⟩ := Outcome.map_eq_ok.mp h
      cases heq
      rw [(RuleStore.owners_of_create hcreate).1]
      exact List.mem_append_right _ (List.mem_singleton_self _)
  | update ruleId d tenantId =>
      obtain ⟨q, hq, hupdated⟩ := Outcome.bind_eq_ok.mp h
      obtain ⟨t', hupdate, heq⟩ := Outcome.map_eq_ok.mp hupdated
      cases heq
      obtain ⟨hid, howner⟩ := RuleStore.owner_of_get (owner_of_get_rule hq).1
      rw [RuleStore.owners_of_update hupdate]
      exact List.mem_map.mpr ⟨_, howner, if_pos (beq_iff_eq.mpr hid.symm)⟩

/-- A rule gets a definition of which the second interval ends after the range of times: the call fails, the definition
is kept, and the first trigger has a job. -/
example :
    let e := blank.after .scripted [(.utc 0, .createRule (.scheduled .interval "5m"))]
    let more : Trigger := { id := "late", name := "", enabled := true, filters := []
                            source := .schedule ⟨.interval, "5000000d", "UTC"⟩ }
    let d := (RuleDraft.scheduled .interval "1m").toRuleDefinition
    let p := e.perform ((RuleCall.update "rule_0001" { d with triggers := d.triggers ++ [more] } none).run
      .scripted (.utc 0))
    p.2.toOption.isNone = true ∧
      (p.1.rules.get "rule_0001").toOption.join.map (·.triggers.map (·.id)) = some ["trigger", "late"] ∧
      p.1.registry.scheduler.keys = [("rule_0001", "trigger")] := by
  decide +kernel

end Engine

end Rulebook
