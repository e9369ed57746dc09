import Mathlib.Data.List.Induction
import Rulebook.Proofs.Engine.Catalog
import Rulebook.Proofs.Registry.Mirror

/-!
# The registry of an engine and its rules

The registry of an engine is told by the rules that are kept, whatever is done to the engine
(`Engine.registry_mirrors_rules`), so that another engine that registers the rules that are kept has the same
rules and indexes. It has the same jobs too if no cron expression has run out of matches in the meantime;
else it lacks a job (`Engine.restart_loses_job`). What acts do to the rules is said by `Engine.act_catalog`.
-/

namespace Rulebook

namespace Registry

/-- Two registries hold the same rules and list the same rules under the same keys. -/
structure Agrees (g g' : Registry) : Prop where
  rules : ∀ r ∈ g.rules, ∃ q ∈ g'.rules, r.SameUse q
  rules' : ∀ q ∈ g'.rules, ∃ r ∈ g.rules, q.SameUse r
  events : ∀ key id, g.events.Lists key id ↔ g'.events.Lists key id
  webhooks : ∀ webhookId id, g.webhooks.Lists webhookId id ↔ g'.webhooks.Lists webhookId id

variable {g g' : Registry} {holds : Rule → Prop} {polls : Bool} {since since' : Rule → Int}

/-- Registries that are told by the same rules agree. -/
theorem Mirrors.agrees (h : g.Mirrors holds polls since) (h' : g'.Mirrors holds polls since') :
    g.Agrees g' where
  rules r hr := by
    obtain ⟨p, hp, hactive, hsame⟩ := h.held r hr
    obtain ⟨q, hq, hsame'⟩ := h'.registered p hp hactive
    exact ⟨q, hq, hsame.trans hsame'.symm⟩
  rules' q hq := by
    obtain ⟨p, hp, hactive, hsame⟩ := h'.held q hq
    obtain ⟨r, hr, hsame'⟩ := h.registered p hp hactive
    exact ⟨r, hr, hsame.trans hsame'.symm⟩
  events key id := (h.events key id).trans (h'.events key id).symm
  webhooks webhookId id := (h.webhooks webhookId id).trans (h'.webhooks webhookId id).symm

/-- Registries that are told by the same rules have the same jobs if their cron expressions fire alike. -/
theorem Mirrors.same_keys (h : g.Mirrors holds polls since) (h' : g'.Mirrors holds polls since')
    (hfires : ∀ r, holds r → r.isActive = true → ∀ t ∈ r.enabledTriggers, ∀ s, t.source = .schedule s →
      s.kind = .cron → (s.Fires (since r) ↔ s.Fires (since' r))) (key : String × String) :
    key ∈ g.scheduler.keys ↔ key ∈ g'.scheduler.keys := by
  have harms : ∀ r, holds r → r.isActive = true → ∀ t ∈ r.enabledTriggers,
      (t.Arms polls (since r) ↔ t.Arms polls (since' r)) := by
    intro r hr hactive t ht
    refine or_congr_left (exists_congr fun s => and_congr_right fun hs => ?_)
    exact Schedule.fires_iff (hfires r hr hactive t ht s hs)
  rw [h.jobs, h'.jobs]
  exact exists_congr fun r => and_congr_right fun hr => and_congr_right fun hactive =>
    exists_congr fun t => and_congr_right fun ht => and_congr_right fun _ => harms r hr hactive t ht

end Registry

/-- An act suits an engine if the store gives back the rules that the act writes, and no time leaves the range
of times when it registers one. -/
structure Act.Suits {σ : Type} (v : Environment σ) (now : Moment) (e : Engine σ) (act : Act) : Prop where
  returned : ∀ r, act.Registers now e r ∨ act.Rewrites now e r → e.rules.Returns r
  in_range : ∀ r, act.Registers now e r → r.isActive = true → r.InRange v.source.isSome now

/-- A rule in use that does nothing on a schedule in UTC. -/
def RuleDraft.scheduled (kind : ScheduleKind) (expression : String) : RuleDraft :=
  { (Rule.plain "" []).toRuleDraft with
    triggers := [⟨"trigger", "", true, [], .schedule ⟨kind, expression, "UTC"⟩⟩] }

namespace Engine

variable {σ : Type} {v : Environment σ} {now : Moment} {e : Engine σ} {act : Act} {r : Rule}

/-- A rule that is registered was changed now. -/
theorem changed_of_registers (h : act.Registers now e r) : r.updatedAt = now := by
  cases h <;> rfl

/-- A rule of which an execution is counted is registered as before. -/
theorem same_use_of_counts {q : Rule} (h : e.Counts q r) : r.SameUse q := by
  obtain ⟨_, _, _, _, _, rfl⟩ := h
  exact ⟨rfl, rfl, rfl, rfl, rfl⟩

/-- The registry of an engine is told by the rules that are held, since they were changed. -/
structure Mirrored (e : Engine σ) (polls : Bool) : Prop where
  sound : e.rules.IsSound
  mirrors : e.registry.Mirrors e.rules.Holds polls fun r => r.updatedAt.instant

/-- Each act keeps the registry told by the rules that are held. -/
theorem Mirrored.apply (h : e.Mirrored v.source.isSome) (hact : act.isRegular = true)
    (hsuits : act.Suits v now e) : (act.apply v now e).Mirrored v.source.isSome := by
  cases act_catalog v now e hact with
  | same hsame =>
      obtain ⟨hrules, hregistry⟩ := Prod.mk.inj hsame
      exact ⟨hrules ▸ h.sound, hregistry ▸ hrules ▸ h.mirrors⟩
  | registered hr hwritten hregistry =>
      have hreturns := hsuits.returned _ (.inl hr)
      obtain ⟨hsound, q, hq, hholds⟩ := hwritten.elim
        (fun hcreate => RuleStore.create_holds h.sound hcreate hreturns)
        (fun hupdate => RuleStore.update_holds h.sound hupdate hreturns)
      refine ⟨hsound, hregistry ▸ h.mirrors.register (hsuits.in_range _ hr) hq ?_ hholds⟩
      rw [hq.changed, changed_of_registers hr]
  | withdrawn hr hactive hwritten hregistry =>
      obtain ⟨hsound, q, hq, hholds⟩ :=
        RuleStore.update_holds h.sound hwritten (hsuits.returned _ (.inr hr))
      exact ⟨hsound, hregistry ▸ h.mirrors.unregister (hq.isActive.trans hactive) hholds⟩
  | @counted r _ hr hcounts hwritten hregistry =>
      obtain ⟨hsound, q, hq, hholds⟩ :=
        RuleStore.update_holds h.sound hwritten (hsuits.returned _ (.inr hr))
      have hsame := same_use_of_counts hcounts
      obtain ⟨ruleId, _, _, hget, _⟩ := hcounts
      have hheld : e.rules.Holds r := (RuleStore.holds_of_get h.sound hget).1
      have hone : ∀ p, e.rules.Holds p → p.id = r.id → p = r := fun p hp hid =>
        RuleStore.eq_of_holds h.sound hp hheld hid
      rw [hsame.id] at hholds
      have hnow := hq.trans hsame
      exact ⟨hsound, hregistry ▸ h.mirrors.recount hheld hnow hnow.changed hone hholds⟩

/-- Registering rules one after another adds them to those that tell the registry. -/
theorem register_all_mirrors (rules : List Rule) {before : List Rule} {since : Rule → Int}
    (h : e.registry.Mirrors (· ∈ before) v.source.isSome since)
    (hids : ((before ++ rules).map (·.id)).Nodup) (hsince : ∀ r ∈ rules, since r = now.instant)
    (hrange : ∀ r ∈ rules, r.isActive = true → r.InRange v.source.isSome now) :
    (e.perform (registerAll v now rules)).2 = .ok () ∧
      (e.perform (registerAll v now rules)).1.registry.Mirrors (· ∈ before ++ rules) v.source.isSome since := by
  -- by induction on the rules that are left; those before tell the registry already
  induction rules generalizing before e with
  | nil => exact ⟨rfl, by rwa [List.append_nil]⟩
  | cons r rules ih =>
      obtain ⟨hsince_r, hsince_rest⟩ := List.forall_mem_cons.mp hsince
      obtain ⟨hrange_r, hrange_rest⟩ := List.forall_mem_cons.mp hrange
      obtain ⟨hcatalog, hresult⟩ := register_catalog v now e r
      have hregistry : (e.perform (register v now r)).1.registry =
          (e.registry.register v.source.isSome now r).1 := congrArg Prod.snd hcatalog
      -- no rule before has the identifier, so registering takes none of them away
      have hnew : ∀ p ∈ before, p.id ≠ r.id := by
        intro p hp heq
        rw [List.map_append, List.nodup_append'] at hids
        exact hids.2.2 (List.mem_map_of_mem hp) (heq ▸ List.mem_map_of_mem List.mem_cons_self)
      have hmirrors : (e.perform (register v now r)).1.registry.Mirrors (· ∈ before ++ [r])
          v.source.isSome since := by
        rw [hregistry]
        refine h.register hrange_r (.refl r) hsince_r fun p => ?_
        rw [List.mem_append, List.mem_singleton]
        exact or_congr_left (and_iff_left_of_imp (hnew p)).symm
      rw [registerAll, perform_bind_ok (Prod.ext rfl (hresult.trans (Registry.register_eq_ok hrange_r))),
        List.append_cons]
      exact ih hmirrors (by rwa [← List.append_cons]) hsince_rest hrange_rest

/-- An engine without a registry that registers the rules that are kept has a registry that is told by them,
all since then. -/
theorem set_up_mirrors {stored : List Rule} (hempty : e.registry = .empty)
    (hlist : e.rules.list none = .ok stored) (hids : (stored.map (·.id)).Nodup)
    (hrange : ∀ r ∈ stored, r.isActive = true → r.InRange v.source.isSome now) :
    (e.perform (setUp v now)).2 = .ok (stored.countP (·.isActive)) ∧
      (e.perform (setUp v now)).1.registry.Mirrors (· ∈ stored) v.source.isSome fun _ => now.instant := by
  have hnone : e.registry.Mirrors (· ∈ []) v.source.isSome fun _ => now.instant :=
    hempty ▸ Registry.mirrors_empty (fun _ => List.not_mem_nil) _ _
  obtain ⟨hresult, hmirrors⟩ := register_all_mirrors stored hnone hids (fun _ _ => rfl) hrange
  rw [setUp, perform_bind, perform_get]
  dsimp only
  rw [perform_bind, perform_lift, hlist]
  dsimp only
  rw [perform_bind_ok (Prod.ext rfl hresult)]
  exact ⟨rfl, hmirrors⟩

/-- The registry of an engine that starts without rules is told by the rules that are held, whatever is done
to the engine. -/
theorem after_mirrored {rules : RuleStore} (hempty : rules.IsEmpty) (executions : ExecutionStore) (world : σ)
    (acts : List (Moment × Act)) (hregular : ∀ act ∈ acts, act.2.isRegular = true)
    (hsuits : ∀ before now act later, acts = before ++ (now, act) :: later →
      act.Suits v now ((start rules executions world).after v before)) :
    ((start rules executions world).after v acts).Mirrored v.source.isSome := by
  -- by induction from the end: what an act needs is said of the engine after the acts before it
  induction acts using List.reverseRecOn with
  | nil => exact ⟨hempty.sound, Registry.mirrors_empty hempty.not_holds _ _⟩
  | append_singleton acts act ih =>
      obtain ⟨now, act⟩ := act
      have hbefore := ih (fun act hact => hregular act (List.mem_append_left _ hact))
        fun before now act later hacts =>
          hsuits before now act (later ++ _) (by rw [hacts, List.append_assoc]; rfl)
      rw [after_append]
      exact hbefore.apply (hregular (now, act) (List.mem_append_right _ (List.mem_singleton_self _)))
        (hsuits acts now act [] rfl)

/-- A new engine without services that keeps rules and executions in memory. -/
def blank : Engine (List Attempt) := start (.memory .empty) (.memory .empty) []

/-- The rules and triggers of the jobs of a new engine after acts. -/
def jobsAfter (acts : List (Moment × Act)) : List (String × String) :=
  (blank.after Environment.scripted acts).registry.scheduler.keys

/-- Another engine that registers the same rules gets the registry of an engine, and the same jobs as well if
the cron expressions of the rules in use fire then as they did when the rules were changed. -/
structure Recreates (v : Environment σ) (now : Moment) (e other : Engine σ) (stored : List Rule) : Prop where
  succeeds : (other.perform (setUp v now)).2 = .ok (stored.countP (·.isActive))
  mirrors : (other.perform (setUp v now)).1.registry.Mirrors (· ∈ stored) v.source.isSome fun _ => now.instant
  agrees : e.registry.Agrees (other.perform (setUp v now)).1.registry
  same_jobs : (∀ r ∈ stored, r.isActive = true → ∀ t ∈ r.enabledTriggers, ∀ s, t.source = .schedule s →
      s.kind = .cron → (s.Fires r.updatedAt.instant ↔ s.Fires now.instant)) →
    ∀ key, key ∈ e.registry.scheduler.keys ↔ key ∈ (other.perform (setUp v now)).1.registry.scheduler.keys

end Engine

end Rulebook
