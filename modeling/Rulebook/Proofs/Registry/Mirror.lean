import Rulebook.Proofs.Registry.Jobs
import Rulebook.Proofs.Store.Rule

/-!
# What a registry tells of the rules that are held

`Registry.Mirrors g holds polls since` says that a registry is told by the rules that are held: it has just
those in use, in versions that are registered alike, each index lists just them under what they react to, and
the jobs are those of their triggers that were armed at the instant `since`. Registering a rule, taking it
away and counting its executions keep this when the rule that is held changes with them
(`Registry.Mirrors.register`, `Registry.Mirrors.unregister`, `Registry.Mirrors.recount`).
-/

namespace Rulebook.Registry

/-- A registry is told by the rules that are held and the instants since when they are registered. -/
structure Mirrors (g : Registry) (holds : Rule → Prop) (polls : Bool) (since : Rule → Int) : Prop where
  ids : (g.rules.map (·.id)).Nodup
  held : ∀ r ∈ g.rules, ∃ q, holds q ∧ q.isActive = true ∧ r.SameUse q
  registered : ∀ q, holds q → q.isActive = true → ∃ r ∈ g.rules, r.SameUse q
  tidy : g.Tidy
  events : ∀ key id, g.events.Lists key id ↔ ∃ q, holds q ∧ q.isActive = true ∧ q.id = id ∧ q.Hears key
  webhooks : ∀ webhookId id, g.webhooks.Lists webhookId id ↔
    ∃ q, holds q ∧ q.isActive = true ∧ q.id = id ∧ q.Serves webhookId
  keys : g.scheduler.keys.Nodup
  jobs : ∀ key, key ∈ g.scheduler.keys ↔ ∃ q, holds q ∧ q.isActive = true ∧
    ∃ t ∈ q.enabledTriggers, key = (q.id, t.id) ∧ t.Arms polls (since q)

variable {g : Registry} {holds holds' : Rule → Prop} {polls : Bool} {since : Rule → Int} {now : Moment}
  {p q r : Rule} {ruleId key id : String}

/-- Something is so of a rule in use exactly if it is so of another one that was held, or of the one that is
held now. -/
theorem exists_held_iff {P : Rule → Prop} (hid : ∀ p, P p → p.id = id)
    (h : ∀ p, holds' p ↔ holds p ∧ p.id ≠ ruleId ∨ p = q) :
    (∃ p, holds' p ∧ p.isActive = true ∧ P p) ↔
      (∃ p, holds p ∧ p.isActive = true ∧ P p) ∧ id ≠ ruleId ∨ q.isActive = true ∧ P q := by
  constructor
  · rintro ⟨p, hp, hactive, hP⟩
    obtain ⟨hold, hne⟩ | rfl := (h p).mp hp
    · exact .inl ⟨⟨p, hold, hactive, hP⟩, hid p hP ▸ hne⟩
    · exact .inr ⟨hactive, hP⟩
  · rintro (⟨⟨p, hold, hactive, hP⟩, hne⟩ | ⟨hactive, hP⟩)
    · exact ⟨p, (h p).mpr (.inl ⟨hold, hid p hP ▸ hne⟩), hactive, hP⟩
    · exact ⟨q, (h q).mpr (.inr rfl), hactive, hP⟩

/-- What is so of a version of a rule and of the next one alike is so of a rule in use now exactly if it was. -/
theorem exists_counted_iff {P : Rule → Prop} (hr : holds r) (hactive : q.isActive = r.isActive)
    (hone : ∀ p, holds p → p.id = r.id → p = r) (h : ∀ p, holds' p ↔ holds p ∧ p.id ≠ r.id ∨ p = q)
    (hP : P q ↔ P r) :
    (∃ p, holds' p ∧ p.isActive = true ∧ P p) ↔ ∃ p, holds p ∧ p.isActive = true ∧ P p := by
  constructor
  · rintro ⟨p, hp, huse, hpP⟩
    obtain ⟨hold, _⟩ | rfl := (h p).mp hp
    · exact ⟨p, hold, huse, hpP⟩
    · exact ⟨r, hr, hactive.symm.trans huse, hP.mp hpP⟩
  · rintro ⟨p, hp, huse, hpP⟩
    by_cases hid : p.id = r.id
    · obtain rfl := hone p hp hid
      exact ⟨q, (h q).mpr (.inr rfl), hactive.trans huse, hP.mpr hpP⟩
    · exact ⟨p, (h p).mpr (.inl ⟨hp, hid⟩), huse, hpP⟩

/-- Versions that are registered alike hear the same. -/
theorem hears_iff (h : q.SameUse r) : q.Hears key ↔ r.Hears key := by
  unfold Rule.Hears
  rw [h.enabled_triggers]

/-- Versions that are registered alike serve the same. -/
theorem serves_iff (h : q.SameUse r) : q.Serves key ↔ r.Serves key := by
  unfold Rule.Serves
  rw [h.enabled_triggers]

/-- The empty registry is told by no rules. -/
theorem mirrors_empty (h : ∀ q, ¬holds q) (polls : Bool) (since : Rule → Int) :
    empty.Mirrors holds polls since where
  ids := .nil
  held _ hr := absurd hr List.not_mem_nil
  registered q hq := absurd hq (h q)
  tidy := ⟨Index.tidy_empty, Index.tidy_empty⟩
  events _ _ := iff_of_false Index.not_lists_empty fun ⟨q, hq, _⟩ => h q hq
  webhooks _ _ := iff_of_false Index.not_lists_empty fun ⟨q, hq, _⟩ => h q hq
  keys := .nil
  jobs _ := iff_of_false List.not_mem_nil fun ⟨q, hq, _⟩ => h q hq

/-- A rule that is not in use any more is taken away. -/
theorem Mirrors.unregister (h : g.Mirrors holds polls since) (hq : q.isActive = false)
    (hholds : ∀ p, holds' p ↔ holds p ∧ p.id ≠ ruleId ∨ p = q) :
    (g.unregister ruleId).Mirrors holds' polls since := by
  have hrest : ∀ {id : String} {P : Rule → Prop}, (∀ p, P p → p.id = id) →
      ((∃ p, holds' p ∧ p.isActive = true ∧ P p) ↔
        (∃ p, holds p ∧ p.isActive = true ∧ P p) ∧ id ≠ ruleId) := by
    intro id P hid
    rw [exists_held_iff hid hholds, hq]
    exact or_iff_left fun hactive => Bool.false_ne_true hactive.1
  refine ⟨h.ids.sublist (List.filter_sublist.map _), ?_, ?_, h.tidy.unregister ruleId, ?_, ?_,
    Scheduler.keys_cancel_rule_nodup h.keys ruleId, ?_⟩
  · intro r hr
    obtain ⟨hmem, hne⟩ := List.mem_filter.mp hr
    obtain ⟨p, hp, hactive, hsame⟩ := h.held r hmem
    have hne' : p.id ≠ ruleId := by simpa [hsame.id] using hne
    exact ⟨p, (hholds p).mpr (.inl ⟨hp, hne'⟩), hactive, hsame⟩
  · intro p hp hactive
    obtain ⟨hold, hne⟩ | rfl := (hholds p).mp hp
    · obtain ⟨r, hr, hsame⟩ := h.registered p hold hactive
      exact ⟨r, List.mem_filter.mpr ⟨hr, by simpa [hsame.id] using hne⟩, hsame⟩
    · cases hq.symm.trans hactive
  · intro key id
    rw [unregister_events_iff, h.events, hrest fun p hp => hp.1]
  · intro webhookId id
    rw [unregister_webhooks_iff, h.webhooks, hrest fun p hp => hp.1]
  · intro key
    rw [unregister_jobs_iff, h.jobs, hrest]
    rintro p ⟨t, _, rfl, _⟩
    rfl

/-- A rule that is registered is held in a version that is registered alike. -/
theorem Mirrors.register (h : g.Mirrors holds polls since) (hr : r.isActive = true → r.InRange polls now)
    (hq : q.SameUse r) (hsince : since q = now.instant)
    (hholds : ∀ p, holds' p ↔ holds p ∧ p.id ≠ r.id ∨ p = q) :
    (g.register polls now r).1.Mirrors holds' polls since := by
  -- a rule that is not active is withdrawn and not listed again
  cases hactive : r.isActive with
  | false =>
      rw [register_of_inactive hactive]
      exact h.unregister (hq.isActive.trans hactive) hholds
  | true =>
      have hrules : (g.register polls now r).1.rules = g.rules.filter (·.id != r.id) ++ [r] := by
        rw [register_rules, hactive, if_pos rfl]
      refine ⟨?_, ?_, ?_, h.tidy.register polls now r, ?_, ?_, register_jobs_nodup hr h.keys, ?_⟩
      · rw [hrules]
        exact Keyed.nodup_replace h.ids r
      · rw [hrules]
        intro p hp
        obtain hp | hp := List.mem_append.mp hp
        · obtain ⟨hmem, hne⟩ := List.mem_filter.mp hp
          obtain ⟨p', hp', hactive', hsame⟩ := h.held p hmem
          have hne' : p'.id ≠ r.id := by simpa [hsame.id] using hne
          exact ⟨p', (hholds p').mpr (.inl ⟨hp', hne'⟩), hactive', hsame⟩
        · rw [List.mem_singleton.mp hp]
          exact ⟨q, (hholds q).mpr (.inr rfl), hq.isActive.trans hactive, hq.symm⟩
      · rw [hrules]
        intro p hp hactive'
        obtain ⟨hold, hne⟩ | rfl := (hholds p).mp hp
        · obtain ⟨p', hp', hsame⟩ := h.registered p hold hactive'
          refine ⟨p', List.mem_append_left _ (List.mem_filter.mpr ⟨hp', ?_⟩), hsame⟩
          simpa [hsame.id] using hne
        · exact ⟨r, List.mem_append_right _ (List.mem_singleton_self r), hq.symm⟩
      · intro key id
        rw [register_events_iff, h.events, exists_held_iff (fun p hp => hp.1) hholds, hq.isActive, hq.id,
          hears_iff hq, eq_comm (a := r.id)]
        exact or_congr_right and_left_comm
      · intro webhookId id
        rw [register_webhooks_iff, h.webhooks, exists_held_iff (fun p hp => hp.1) hholds, hq.isActive, hq.id,
          serves_iff hq, eq_comm (a := r.id)]
        exact or_congr_right and_left_comm
      · intro key
        rw [register_jobs_iff hr, h.jobs, exists_held_iff _ hholds, hq.isActive, hq.id, hq.enabled_triggers,
          hsince]
        rintro p ⟨t, _, rfl, _⟩
        rfl

/-- A rule whose executions are counted stays registered as it is. -/
theorem Mirrors.recount (h : g.Mirrors holds polls since) (hr : holds r) (hq : q.SameUse r)
    (hsince : since q = since r) (hone : ∀ p, holds p → p.id = r.id → p = r)
    (hholds : ∀ p, holds' p ↔ holds p ∧ p.id ≠ r.id ∨ p = q) : g.Mirrors holds' polls since := by
  have hsame : ∀ {P : Rule → Prop}, (P q ↔ P r) →
      ((∃ p, holds' p ∧ p.isActive = true ∧ P p) ↔ ∃ p, holds p ∧ p.isActive = true ∧ P p) :=
    exists_counted_iff hr hq.isActive hone hholds
  refine ⟨h.ids, fun p hp => ?_, fun p hp hactive => ?_, h.tidy, fun key id => ?_, fun webhookId id => ?_,
    h.keys, fun key => ?_⟩
  · refine (hsame ?_).mpr (h.held p hp)
    exact ⟨fun hp => hp.trans hq, fun hp => hp.trans hq.symm⟩
  · obtain ⟨hold, _⟩ | rfl := (hholds p).mp hp
    · exact h.registered p hold hactive
    · obtain ⟨p', hp', hsame'⟩ := h.registered r hr (hq.isActive.symm.trans hactive)
      exact ⟨p', hp', hsame'.trans hq.symm⟩
  · rw [h.events, hsame]
    rw [hq.id, hears_iff hq]
  · rw [h.webhooks, hsame]
    rw [hq.id, serves_iff hq]
  · rw [h.jobs, hsame]
    rw [hq.id, hq.enabled_triggers, hsince]

end Rulebook.Registry
