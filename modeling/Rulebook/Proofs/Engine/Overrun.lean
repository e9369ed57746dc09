import Rulebook.Proofs.Engine.Mirror
import Rulebook.Proofs.Registry.Overrun

/-!
# Rules that cannot be registered

A rule in use with a trigger that overruns is kept by the store that it is written to, but registering it fails.
So an engine that registers the rules that are kept fails at the first one of these, whose tenant does not
matter, and registers none of the rules after it (`Engine.registration_fails_iff`).
-/

namespace Rulebook

/-- A rule in use has a trigger in use that overruns; the first of these tells how. -/
def Rule.Overruns (polls : Bool) (now : Moment) (r : Rule) (f : Failure) : Prop :=
  r.isActive = true ∧ Logged.FirstFault (fun _ => True) (Trigger.Overruns polls now) r.enabledTriggers f

namespace Engine

variable {σ : Type} {v : Environment σ} {now : Moment} {e : Engine σ} {f : Failure}

/-- Registering rules one after another fails with the first one that overruns. -/
theorem register_all_eq_error_iff (rules : List Rule) : (e.perform (registerAll v now rules)).2 = .error f ↔
    Logged.FirstFault (fun _ => True) (Rule.Overruns v.source.isSome now) rules f := by
  induction rules generalizing e with
  | nil => exact iff_of_false nofun Logged.not_first_fault_nil
  | cons r rules ih =>
      have hregister : ∀ g, (e.perform (register v now r)).2 = .error g ↔
          r.Overruns v.source.isSome now g := fun g => Registry.register_eq_error_iff
      rw [Logged.first_fault_cons_iff, registerAll, perform_bind]
      simp only [← hregister]
      rcases e.perform (register v now r) with ⟨e', g | u⟩
      · simp
      · simp [ih]

/-- An engine that registers the rules that are kept tells how many are in use, unless that fails. -/
theorem set_up_of_list {stored : List Rule} (h : e.rules.list none = .ok stored) :
    (e.perform (setUp v now)).2 =
      (e.perform (registerAll v now stored)).2.map fun _ => stored.countP (·.isActive) := by
  rw [setUp, perform_bind, perform_get]
  dsimp only
  rw [perform_bind, perform_lift, h]
  dsimp only
  rw [perform_bind]
  rcases e.perform (registerAll v now stored) with ⟨e', g | u⟩ <;> rfl

/-- A rule that can be added to the store is kept, and then it is registered. -/
theorem create_rule_of_create {d : RuleDraft} {r : Rule} {t : RuleStore}
    (hr : r = { d with id := identifier "rule" (e.ruleIds + 1), createdAt := now, updatedAt := now })
    (h : e.rules.create r = .ok t) : (e.perform (createRule v now d)).1.rules = t ∧
      (e.perform (createRule v now d)).2 =
        (e.registry.register v.source.isSome now r).2.outcome.map fun _ => r := by
  subst hr
  rw [createRule, perform_bind, perform_get]
  dsimp only
  rw [perform_bind, perform_modify]
  dsimp only
  rw [perform_bind, perform_get]
  dsimp only
  rw [perform_bind, perform_lift, h]
  dsimp only
  rw [perform_bind, perform_modify]
  dsimp only
  rw [perform_bind]
  -- registering leaves the store, whether it fails or not
  obtain ⟨hcatalog, hresult⟩ := register_catalog v now { e with ruleIds := e.ruleIds + 1, rules := t }
    { d with id := identifier "rule" (e.ruleIds + 1), createdAt := now, updatedAt := now }
  rw [← hresult]
  rcases hregister : ({ e with ruleIds := e.ruleIds + 1, rules := t } : Engine σ).perform (register v now
    { d with id := identifier "rule" (e.ruleIds + 1), createdAt := now, updatedAt := now }) with ⟨e', g | u⟩ <;>
  · rw [hregister] at hcatalog
    exact ⟨congrArg Prod.fst hcatalog, rfl⟩

/-- The triggers of a rule are those before the first one that overruns, and what follows. -/
theorem until_overrun (polls : Bool) (now : Moment) (triggers : List Trigger) :
    ∃ before after, triggers = before ++ after ∧ (∀ t ∈ before, ∀ f, ¬t.Overruns polls now f) ∧
      ∀ t ∈ after.head?, ∃ f, t.Overruns polls now f := by
  induction triggers with
  | nil => exact ⟨[], [], rfl, List.forall_mem_nil _, fun _ h => by cases h⟩
  | cons t triggers ih =>
      by_cases ht : ∃ f, t.Overruns polls now f
      · exact ⟨[], t :: triggers, rfl, List.forall_mem_nil _, fun u hu => by cases hu; exact ht⟩
      · obtain ⟨before, after, rfl, hbefore, hafter⟩ := ih
        exact ⟨t :: before, after, rfl,
          List.forall_mem_cons.mpr ⟨fun f hf => ht ⟨f, hf⟩, hbefore⟩, hafter⟩

/-- A rule whose interval ends after the range of times keeps another engine from registering any rule. -/
example :
    let acts := [(Moment.utc 0, Act.createRule (.scheduled .interval "5000000d")),
      (.utc 0, .createRule (.scheduled .interval "5m")), (.utc 0, .restart), (.utc 0, .setUp)]
    jobsAfter acts = [] := by
  decide +kernel

end Engine

end Rulebook
