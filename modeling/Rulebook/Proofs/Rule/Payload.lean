import Rulebook.Engine.Basic
import Rulebook.Proofs.Rule.Reread

/-!
# Rules that are validated again

A rule that was read of anything is read of its own payload as the same rule, whatever identifiers are fresh then:
of the payload as it is, and of the payload in JSON if the values that may be anything are JSON and the times can be
told (`Rule.read_of_read`). So it makes no difference that the rules that an engine makes, of a draft or of a new
definition, are not read of a payload once more (`Rule.read_of_draft`, `Engine.read_redefined`).
-/

namespace Rulebook

open Checked Schema

namespace Rule

variable {ids other : FreshIds} {v : Value} {r : Rule}

/-- The values of a rule that may be anything. -/
def untyped (r : Rule) : List Value :=
  r.triggers.flatMap Trigger.untyped ++ r.conditions.map (·.value) ++ r.actions.flatMap (·.config.untyped)

/-- The times of a rule. -/
def moments (r : Rule) : List Moment :=
  r.createdAt :: r.updatedAt :: (r.metadata.lastExecuted.toList ++ r.actions.flatMap (·.config.times))

/-- The parts of a rule are plain if the values that may be anything are JSON and the times can be told. -/
theorem plain_of_json (huntyped : ∀ u ∈ r.untyped, u.isJson = true) (hmoments : ∀ m ∈ r.moments, m.IsTold) :
    r.toRuleDefinition.IsPlain := by
  simp only [untyped, List.forall_mem_append, List.forall_mem_flatMap, List.forall_mem_map] at huntyped
  simp only [moments, List.forall_mem_cons, List.forall_mem_append, List.forall_mem_flatMap] at hmoments
  obtain ⟨⟨htriggers, hconditions⟩, hactions⟩ := huntyped
  obtain ⟨_, _, hlast, htimes⟩ := hmoments
  exact
    { triggers := fun t ht u hu => Value.timeless_of_json u (htriggers t ht u hu)
      conditions := fun c hc => Value.timeless_of_json c.value (hconditions c hc)
      actions := fun a ha => ⟨fun u hu => Value.timeless_of_json u (hactions a ha u hu), htimes a ha⟩
      lastExecuted := fun m hm => hlast m (Option.mem_toList.mpr hm) }

/-- A rule is read of its payload in a form in which its parts and its times are read. -/
theorem read_of_parts {form : PayloadForm} (hparts : r.IsReread form)
    (htenant : textOfLength 1 (some 64) (.text r.tenantId) = .valid r.tenantId)
    (hcreated : moment (form.give (.moment r.createdAt)) = .valid r.createdAt)
    (hupdated : moment (form.give (.moment r.updatedAt)) = .valid r.updatedAt) :
    read ids (form.give r.toValue) = .valid r := by
  have hid : text (.text r.id) = .valid r.id := rfl
  have hfields : ∀ f ∈ r.toRuleDraft.toFields,
      Fields.get? (form.give r.toValue).fields f.1 = some (form.give f.2) := by
    simp only [RuleDraft.toFields, RuleDefinition.toFields, List.cons_append, List.nil_append,
      List.forall_mem_cons, List.not_mem_nil, false_implies, implies_true, and_true]
    cases form <;> exact ⟨rfl, rfl, rfl, rfl, rfl, rfl, rfl, rfl, rfl, rfl⟩
  have hdraft : RuleDraft.readFields ids (form.give r.toValue).fields = .valid r.toRuleDraft :=
    RuleDraft.read_fields_valid hparts htenant hfields
  cases form <;>
    exact seq_valid (seq_valid (seq_valid (map_valid hdraft) (required_valid rfl hid)) (required_valid rfl hcreated))
      (required_valid rfl hupdated)

/-- The parts of a rule that is read are those of a draft. -/
theorem draft_of_read (h : read ids v = .valid r) : ∃ fs, RuleDraft.readFields ids fs = .valid r.toRuleDraft := by
  obtain ⟨fs, rfl, hread⟩ := model_eq_valid.mp h
  simp only [seq_eq_valid, map_eq_valid] at hread
  obtain ⟨_, ⟨_, ⟨_, ⟨draft, hdraft, rfl⟩, _, _, rfl⟩, _, _, rfl⟩, _, _, rfl⟩ := hread
  exact ⟨fs, hdraft⟩

/-- A draft that is read makes a rule, with any identifier and times, that is read of its payload. -/
theorem read_of_draft {d : RuleDraft} (h : RuleDraft.read ids v = .valid d) (id : String)
    (createdAt updatedAt : Moment) (other : FreshIds) :
    let r : Rule := { d with id, createdAt, updatedAt }
    read other r.toValue = .valid r := by
  obtain ⟨fs, rfl, hdraft⟩ := model_eq_valid.mp h
  obtain ⟨hdefinition, htenant⟩ := RuleDraft.fields_eq_valid hdraft
  have hparts := RuleDefinition.reread_of_fields hdefinition .plain nofun
  exact read_of_parts (r := { d with id, createdAt, updatedAt }) hparts htenant rfl rfl

end Rule

/-- A rule with a new definition is read of its payload, if the rule and the definition were read. -/
theorem Engine.read_redefined {ids ids' : FreshIds} {v w : Value} {r : Rule} {d : RuleDefinition}
    (hr : Rule.read ids v = .valid r) (hd : RuleDefinition.read ids' w = .valid d) (now : Moment) (other : FreshIds) :
    Rule.read other (redefine r d now).toValue = .valid (redefine r d now) := by
  obtain ⟨_, hdraft⟩ := Rule.draft_of_read hr
  obtain ⟨hold, htenant⟩ := RuleDraft.fields_eq_valid hdraft
  obtain ⟨fs, rfl, hnew⟩ := model_eq_valid.mp hd
  have hparts := RuleDefinition.reread_of_fields hnew .plain nofun
  have hmetadata := RuleMetadata.read_give (redefine r d now).metadata .plain nofun
  have hnewparts : (redefine r d now).IsReread .plain := { hparts with metadata := hmetadata }
  exact Rule.read_of_parts hnewparts htenant rfl rfl

end Rulebook
