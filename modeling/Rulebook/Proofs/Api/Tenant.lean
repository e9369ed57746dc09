import Rulebook.Api.Handler
import Rulebook.Proofs.Outcome
import Rulebook.Proofs.Schema.Reread

/-!
# For whom a request is

An order is for the tenant of the request that it was read of (`ApiRequest.IsFor.order`), whatever the body of the
request says, unless the request reports an event or calls a webhook.
-/

namespace Rulebook

open Checked Schema

/-- The tenant that an order is for. Events and calls of webhooks are for nobody. -/
def Order.tenant? : Order → Option String
  | createRule d => some d.tenantId
  | listRules tenantId _ | rule tenantId _ | updateRule tenantId _ _ | deactivateRule tenantId _ => some tenantId
  | template _ tenantId _ _ | execute tenantId _ _ => some tenantId
  | executions tenantId _ _ _ _ | execution tenantId _ | cancel tenantId _ | metrics tenantId _ => some tenantId
  | event _ | webhook _ _ _ => none

/-- The settings of a template do not say for whom a rule is. -/
theorem RuleTemplate.tenant_of_fields {t : RuleTemplate} {config fs metadata : Fields} (more : Fields)
    (h : t.fields config = .ok (fs, metadata)) :
    Fields.get? (fs ++ more) "tenant_id" = Fields.get? more "tenant_id" := by
  cases t <;>
    obtain ⟨_, _, hfs⟩ := Outcome.bind_eq_ok.mp h <;>
    cases hfs <;> rfl

/-- A draft from a template is for the tenant who asks for it. -/
theorem RuleTemplate.tenant_of_draft {ids : FreshIds} {name tenantId createdBy : String} {config : Fields}
    {d : RuleDraft} (h : draft ids name config tenantId createdBy = .ok d) : d.tenantId = tenantId := by
  rw [draft] at h
  split at h
  next => cases h
  next t _ =>
    obtain ⟨⟨fs, metadata⟩, hfs, hd⟩ := Outcome.bind_eq_ok.mp h
    have hexcept := Outcome.map_error_eq_ok.mp hd
    generalize hc : RuleDraft.read ids _ = c at hexcept
    cases c with
    | invalid issues => cases hexcept
    | valid draft =>
        obtain rfl : draft = d := Except.ok.inj hexcept
        obtain ⟨_, heq, hread⟩ := model_eq_valid.mp hc
        obtain rfl := Value.object.inj heq
        simp only [RuleDraft.readFields, seq_eq_valid, map_eq_valid, required_eq_valid] at hread
        obtain ⟨_, ⟨_, _, rfl⟩, tenant, ⟨v, hv, htenant⟩, rfl⟩ := hread
        obtain rfl := Option.some.inj (hv.symm.trans (tenant_of_fields _ hfs))
        exact (Value.text.inj (text_of_length_valid htenant)).symm

namespace ApiRequest

variable {r : ApiRequest} {u tenantId : String} {site : Site} {o : Order} {e : Endpoint}

/-- A request is for a tenant and neither reports an event nor calls a webhook. -/
structure IsFor (r : ApiRequest) (u : String) : Prop where
  tenant : r.tenant = .ok u
  elsewhere : ∀ e, Route.find r.method r.path = .found e → e ≠ .event ∧ ∀ id, e ≠ .webhook id

/-- A request that finds an engine is for its tenant. -/
theorem tenant_of_entry (h : r.entry site = .ok tenantId) : r.tenant = .ok tenantId := by
  obtain ⟨t, ht, hrest⟩ := Outcome.bind_eq_ok.mp h
  obtain ⟨_, _, heq⟩ := Outcome.bind_eq_ok.mp hrest
  exact ht.trans heq

/-- What is read of a query is what a reading of its fields gives. -/
theorem demand_query_eq_ok {α : Type} {read : Fields → Checked α} {a : α} (h : r.demandQuery read = .ok a) :
    read r.queryFields = .valid a := by
  rw [demandQuery, demand] at h
  cases hread : read r.queryFields with
  | valid b =>
      rw [hread] at h
      exact congrArg Checked.valid (Except.ok.inj h)
  | invalid issues =>
      rw [hread] at h
      cases h

/-- An order is for the tenant of the request that it was read of. -/
theorem tenant_of_order (htenant : r.tenant = .ok u) (hevent : e ≠ .event) (hwebhook : ∀ id, e ≠ .webhook id)
    (h : r.order site e = some (.ok o)) : o.tenant? = some u := by
  have hentry : ∀ {t}, r.entry site = .ok t → t = u := fun ht =>
    Except.ok.inj ((tenant_of_entry ht).symm.trans htenant)
  cases e with
  | page | front | health | ready => cases h
  | event => exact absurd rfl hevent
  | webhook id => exact absurd rfl (hwebhook id)
  | rule _ | deactivateRule _ | execution _ | cancel _ =>
      obtain ⟨t, ht, ho⟩ := Outcome.bind_eq_ok.mp (Option.some.inj h)
      obtain rfl := hentry ht
      cases ho
      rfl
  | listRules =>
      obtain ⟨t, ht, hrest⟩ := Outcome.bind_eq_ok.mp (Option.some.inj h)
      obtain ⟨_, _, ho⟩ := Outcome.bind_eq_ok.mp hrest
      obtain rfl := hentry ht
      cases ho
      rfl
  | createRule | updateRule _ | template _ | executeRule _ =>
      obtain ⟨_, _, hrest⟩ := Outcome.bind_eq_ok.mp (Option.some.inj h)
      obtain ⟨t, ht, hrest⟩ := Outcome.bind_eq_ok.mp hrest
      obtain ⟨_, _, ho⟩ := Outcome.bind_eq_ok.mp hrest
      obtain rfl := hentry ht
      cases ho
      rfl
  | executions =>
      obtain ⟨t, ht, hrest⟩ := Outcome.bind_eq_ok.mp (Option.some.inj h)
      obtain rfl := hentry ht
      have hread := demand_query_eq_ok hrest
      simp only [executionsQuery, seq_eq_valid, map_eq_valid] at hread
      obtain ⟨_, ⟨_, ⟨_, ⟨_, _, rfl⟩, _, _, rfl⟩, _, _, rfl⟩, _, _, rfl⟩ := hread
      rfl
  | metrics =>
      obtain ⟨t, ht, hrest⟩ := Outcome.bind_eq_ok.mp (Option.some.inj h)
      obtain ⟨_, _, hrest⟩ := Outcome.bind_eq_ok.mp hrest
      obtain ⟨_, _, ho⟩ := Outcome.bind_eq_ok.mp hrest
      obtain rfl := hentry ht
      cases ho
      rfl

/-- The order that comes of a request for a tenant is for the tenant. -/
theorem IsFor.order (hr : r.IsFor u) (h : r.decide site = .order o) : o.tenant? = some u := by
  rw [decide] at h
  split at h
  next => cases h
  next => cases h
  next => cases h
  next e he =>
    obtain ⟨hevent, hwebhook⟩ := hr.elsewhere e he
    split at h
    next => cases h
    next => cases h
    next ho =>
      cases h
      exact tenant_of_order hr.tenant hevent hwebhook ho

end ApiRequest

end Rulebook
