import Mathlib.Data.List.Induction
import Rulebook.Proofs.Registry.Register

/-!
# What a registry has come to hold

`Registry.after acts` is the registry after acts on an empty one. A rule is in it if it was registered by one
of the acts while in use and has not been replaced or taken away since; its place is that of this act
(`Registry.mem_rules_iff`, `Registry.rules_in_order`). Each index lists every rule under what its triggers in use
are for (`Registry.Listing.lists`).
-/

namespace Rulebook

/-- A change of a registered rule in place. -/
inductive Change where
  /-- It is in use from now on, or not. -/
  | activity (isActive : Bool)
  /-- Some of its triggers are not in use any more. -/
  | disable (off : Trigger → Bool)

/-- A rule after a change. -/
def Change.apply : Change → Rule → Rule
  | .activity isActive, r => { r with isActive }
  | .disable off, r =>
    { r with triggers := r.triggers.map fun t => if off t then { t with enabled := false } else t }

namespace Registry

/-- What is done to a registry. -/
inductive Act where
  /-- A rule is registered. -/
  | register (polls : Bool) (now : Moment) (r : Rule)
  /-- A rule is taken away. -/
  | unregister (ruleId : String)
  /-- A registered rule is changed in place. -/
  | amend (ruleId : String) (c : Change)
  /-- The jobs change, as they do when some are due. -/
  | schedule (jobs : Scheduler)

namespace Act

/-- A registry after an act; a rule stays registered if not all of its jobs can be armed. -/
def apply (g : Registry) : Act → Registry
  | register polls now r => (g.register polls now r).1
  | .unregister ruleId => g.unregister ruleId
  | amend ruleId c => g.amend ruleId c.apply
  | schedule jobs => { g with scheduler := jobs }

/-- Whether an act registers a rule of the identifier anew or takes it away. -/
def replaces : Act → String → Bool
  | register _ _ r, ruleId => r.id == ruleId
  | .unregister id, ruleId => id == ruleId
  | _, _ => false

/-- A rule after what an act changes in place. -/
def amended : Act → Rule → Rule
  | amend ruleId c, r => if r.id == ruleId then c.apply r else r
  | _, r => r

/-- The rule that an act brings in. -/
def entered : Act → List Rule
  | register _ _ r => if r.isActive then [r] else []
  | _ => []

end Act

/-- The registry after acts. -/
def after (acts : List Act) : Registry := acts.foldl Act.apply empty

/-- A rule was registered by the act at a place while in use, no later act replaces it or takes it away,
and by now it is what the later acts made of it. -/
def RegisteredAt (acts : List Act) (n : Nat) (r : Rule) : Prop :=
  ∃ before polls now first later, acts = before ++ .register polls now first :: later ∧
    before.length = n ∧ first.isActive = true ∧ (∀ a ∈ later, a.replaces r.id = false) ∧
    later.foldl (fun q a => a.amended q) first = r

/-- A rule is registered. -/
def Registered (acts : List Act) (r : Rule) : Prop := ∃ n, RegisteredAt acts n r

/-- One registered rule was last registered before another. -/
def RegisteredBefore (acts : List Act) (a b : Rule) : Prop :=
  ∃ m n, m < n ∧ RegisteredAt acts m a ∧ RegisteredAt acts n b

variable {acts : List Act} {a : Act} {g : Registry} {r : Rule} {n : Nat} {key : String}

/-- A change leaves the identifier as it is. -/
@[simp] theorem change_id (c : Change) (r : Rule) : (c.apply r).id = r.id := by
  cases c <;> rfl

/-- A change in place leaves the identifier as it is. -/
@[simp] theorem amended_id (a : Act) (r : Rule) : (a.amended r).id = r.id := by
  unfold Act.amended
  split
  · split
    · exact change_id _ r
    · rfl
  · rfl

/-- After a change no triggers of a rule are in use that were not before. -/
theorem enabled_of_change {c : Change} {t : Trigger} (h : t ∈ (c.apply r).enabledTriggers) :
    t ∈ r.enabledTriggers := by
  cases c with
  | activity isActive => exact h
  | disable off =>
      obtain ⟨hmem, henabled⟩ := List.mem_filter.mp h
      obtain ⟨u, hu, rfl⟩ := List.mem_map.mp hmem
      by_cases hoff : off u = true
      · rw [if_pos hoff] at henabled
        cases henabled
      · rw [if_neg hoff] at henabled ⊢
        exact List.mem_filter.mpr ⟨hu, henabled⟩

/-- After a change in place no triggers of a rule are in use that were not before. -/
theorem enabled_of_amended {t : Trigger} (h : t ∈ (a.amended r).enabledTriggers) : t ∈ r.enabledTriggers := by
  unfold Act.amended at h
  split at h
  · split at h
    · exact enabled_of_change h
    · exact h
  · exact h

/-- After one more act. -/
theorem after_concat : after (acts ++ [a]) = a.apply (after acts) := by
  unfold after
  rw [List.foldl_append]
  rfl

/-- An act takes a rule away, changes the others in place, and brings in another one at the end. -/
theorem apply_rules (g : Registry) (a : Act) : (a.apply g).rules =
    (g.rules.filter fun r => !a.replaces r.id).map a.amended ++ a.entered := by
  cases a with
  | register polls now r =>
      refine register_rules.trans (congrArg (· ++ _) ?_)
      refine Eq.trans ?_ (List.map_id _).symm
      exact List.filter_congr fun q _ => by simp [Act.replaces, bne, Bool.beq_comm (a := q.id)]
  | unregister ruleId =>
      refine Eq.trans ?_ (List.append_nil _).symm
      refine Eq.trans ?_ (List.map_id _).symm
      exact List.filter_congr fun q _ => by simp [Act.replaces, bne, Bool.beq_comm (a := q.id)]
  | amend ruleId c =>
      refine Eq.trans ?_ (List.append_nil _).symm
      exact congrArg (List.map _) (List.filter_true _).symm
  | schedule jobs =>
      refine Eq.trans ?_ (List.append_nil _).symm
      exact ((List.map_id _).trans (List.filter_true _)).symm

/-- The rule that an act brings in is the one that it registers, if that is in use. -/
theorem mem_entered_iff :
    r ∈ a.entered ↔ ∃ polls now, a = .register polls now r ∧ r.isActive = true := by
  cases a with
  | register polls now q =>
      by_cases hactive : q.isActive = true
      · rw [Act.entered, if_pos hactive, List.mem_singleton]
        refine ⟨fun h => ⟨polls, now, h ▸ rfl, h ▸ hactive⟩, ?_⟩
        rintro ⟨_, _, heq, _⟩
        cases heq
        rfl
      · rw [Act.entered, if_neg hactive]
        refine iff_of_false List.not_mem_nil ?_
        rintro ⟨_, _, heq, h⟩
        cases heq
        exact hactive h
  | _ => exact iff_of_false List.not_mem_nil nofun

/-- An act brings in one rule at most. -/
theorem entered_cases (a : Act) : a.entered = [] ∨ ∃ r, a.entered = [r] := by
  unfold Act.entered
  split
  · split
    · exact .inr ⟨_, rfl⟩
    · exact .inl rfl
  · exact .inl rfl

/-- An act that brings in a rule replaces that of the same identifier. -/
theorem replaces_of_mem_entered (h : r ∈ a.entered) : a.replaces r.id = true := by
  obtain ⟨polls, now, rfl, _⟩ := mem_entered_iff.mp h
  exact beq_self_eq_true r.id

/-- The places of the registered rules after one more act. -/
theorem registered_at_concat_iff : RegisteredAt (acts ++ [a]) n r ↔
    (∃ q, RegisteredAt acts n q ∧ a.replaces q.id = false ∧ a.amended q = r) ∨
      n = acts.length ∧ r ∈ a.entered := by
  constructor
  · rintro ⟨before, polls, now, first, later, hacts, hn, hactive, hlater, hr⟩
    -- the last act is the registration itself, or it is the last of the later acts
    obtain rfl | ⟨later, b, rfl⟩ := List.eq_nil_or_concat later
    · obtain ⟨rfl, hlast⟩ := List.append_inj' hacts rfl
      obtain rfl := List.singleton_inj.mp hlast
      obtain rfl : first = r := hr
      exact .inr ⟨hn.symm, by simp [Act.entered, hactive]⟩
    · rw [List.concat_eq_append] at hacts hlater hr
      rw [← List.cons_append, ← List.append_assoc] at hacts
      obtain ⟨rfl, hlast⟩ := List.append_inj' hacts rfl
      obtain rfl := List.singleton_inj.mp hlast
      rw [List.foldl_append] at hr
      subst hr
      simp only [List.foldl_cons, List.foldl_nil, amended_id] at hlater
      exact .inl ⟨_, ⟨before, polls, now, first, later, rfl, hn, hactive,
        fun b hb => hlater b (List.mem_append_left _ hb), rfl⟩,
        hlater a (List.mem_append_right _ (List.mem_singleton_self a)), rfl⟩
  · rintro (⟨q, ⟨before, polls, now, first, later, rfl, hn, hactive, hlater, rfl⟩, hkept, rfl⟩ | ⟨rfl, hr⟩)
    · refine ⟨before, polls, now, first, later ++ [a], ?_, hn, hactive, ?_, ?_⟩
      · rw [List.append_assoc, List.cons_append]
      · rw [amended_id]
        intro b hb
        obtain hb | hb := List.mem_append.mp hb
        · exact hlater b hb
        · exact List.mem_singleton.mp hb ▸ hkept
      · rw [List.foldl_append]
        rfl
    · obtain ⟨polls, now, rfl, hactive⟩ := mem_entered_iff.mp hr
      exact ⟨acts, polls, now, r, [], rfl, rfl, hactive, fun _ h => absurd h List.not_mem_nil, rfl⟩

/-- No rule is registered before anything was done. -/
theorem not_registered_at_nil : ¬RegisteredAt [] n r := by
  rintro ⟨before, _, _, _, _, hacts, _⟩
  cases before <;> cases hacts

/-- Rules are registered by acts that were done. -/
theorem RegisteredAt.lt_length (h : RegisteredAt acts n r) : n < acts.length := by
  obtain ⟨before, _, _, _, later, rfl, rfl, _⟩ := h
  rw [List.length_append, List.length_cons]
  omega

/-- A registry holds the registered rules. -/
theorem mem_rules_iff : r ∈ (after acts).rules ↔ Registered acts r := by
  induction acts using List.reverseRecOn generalizing r with
  | nil =>
      refine iff_of_false List.not_mem_nil ?_
      rintro ⟨_, h⟩
      exact not_registered_at_nil h
  | append_singleton acts a ih =>
      rw [after_concat, apply_rules, List.mem_append, List.mem_map]
      simp only [List.mem_filter, Registered, registered_at_concat_iff, exists_or]
      refine or_congr ?_ (by simp only [exists_eq_left])
      constructor
      · rintro ⟨q, ⟨hq, hkept⟩, heq⟩
        obtain ⟨n, hn⟩ := ih.mp hq
        exact ⟨n, q, hn, by simpa using hkept, heq⟩
      · rintro ⟨n, q, hn, hkept, heq⟩
        exact ⟨q, ⟨ih.mpr ⟨n, hn⟩, by simpa using hkept⟩, heq⟩

/-- A registry holds the rules in the order of their registration. -/
theorem rules_in_order (acts : List Act) : (after acts).rules.Pairwise (RegisteredBefore acts) := by
  induction acts using List.reverseRecOn with
  | nil => exact .nil
  | append_singleton acts a ih =>
      rw [after_concat, apply_rules, List.pairwise_append]
      refine ⟨?_, ?_, ?_⟩
      · rw [List.pairwise_map]
        refine (ih.filter _).imp_of_mem ?_
        rintro q r hq hr ⟨m, n, hlt, hm, hn⟩
        have hkept := (List.mem_filter.mp hq).2
        have hkept' := (List.mem_filter.mp hr).2
        exact ⟨m, n, hlt, registered_at_concat_iff.mpr (.inl ⟨q, hm, by simpa using hkept, rfl⟩),
          registered_at_concat_iff.mpr (.inl ⟨r, hn, by simpa using hkept', rfl⟩)⟩
      · obtain h | ⟨r, h⟩ := entered_cases a <;> rw [h]
        · exact .nil
        · exact List.pairwise_singleton _ _
      · intro q hq r hr
        obtain ⟨p, hp, rfl⟩ := List.mem_map.mp hq
        obtain ⟨hmem, hkept⟩ := List.mem_filter.mp hp
        obtain ⟨m, hm⟩ := mem_rules_iff.mp hmem
        exact ⟨m, acts.length, hm.lt_length,
          registered_at_concat_iff.mpr (.inl ⟨p, hm, by simpa using hkept, rfl⟩),
          registered_at_concat_iff.mpr (.inr ⟨rfl, hr⟩)⟩

/-- No two rules of a registry have one identifier. -/
theorem ids_nodup (acts : List Act) : ((after acts).rules.map (·.id)).Nodup := by
  induction acts using List.reverseRecOn with
  | nil => exact .nil
  | append_singleton acts a ih =>
      have hkept : ((((after acts).rules.filter fun r => !a.replaces r.id).map a.amended).map
          (·.id)).Nodup := by
        rw [List.map_map, (funext (amended_id a) : (·.id) ∘ a.amended = (·.id))]
        exact ih.sublist (List.filter_sublist.map _)
      rw [after_concat, apply_rules, List.map_append]
      obtain h | ⟨r, h⟩ := entered_cases a <;> rw [h]
      · rwa [List.map_nil, List.append_nil]
      · rw [← List.map_append]
        refine Keyed.nodup_add hkept fun q' hq' hid => ?_
        obtain ⟨q, hq, rfl⟩ := List.mem_map.mp hq'
        have hreplaces := replaces_of_mem_entered (h ▸ List.mem_singleton_self r : r ∈ a.entered)
        rw [← hid, amended_id] at hreplaces
        simpa [hreplaces] using (List.mem_filter.mp hq).2

/-- The indexes of a registry are tidy. -/
theorem after_tidy (acts : List Act) : (after acts).Tidy := by
  induction acts using List.reverseRecOn with
  | nil => exact ⟨Index.tidy_empty, Index.tidy_empty⟩
  | append_singleton acts a ih =>
      rw [after_concat]
      cases a with
      | register polls now r => exact ih.register polls now r
      | unregister ruleId => exact ih.unregister ruleId
      | _ => exact ⟨ih.events, ih.webhooks⟩

/-- What a rule is listed under in an index: whatever one of its triggers in use is for. Registering a rule lists
it anew, taking it away drops it, and other acts leave the index. -/
structure Listing (index : Registry → Index) (isFor : Trigger → String → Prop) : Prop where
  register : ∀ g polls now r key id, (index (g.register polls now r).1).Lists key id ↔
    (index g).Lists key id ∧ id ≠ r.id ∨ id = r.id ∧ r.isActive = true ∧ ∃ t ∈ r.enabledTriggers, isFor t key
  unregister : ∀ g ruleId key id, (index (g.unregister ruleId)).Lists key id ↔ (index g).Lists key id ∧ id ≠ ruleId
  amend : ∀ g ruleId (c : Change), index (Act.apply g (.amend ruleId c)) = index g
  schedule : ∀ g jobs, index (Act.apply g (.schedule jobs)) = index g

/-- Rules are listed in the event index under the types that their triggers react to. -/
theorem event_listing : Listing Registry.events Trigger.Hears where
  register _ _ _ _ _ _ := register_events_iff
  unregister _ _ _ _ := unregister_events_iff
  amend _ _ _ := rfl
  schedule _ _ := rfl

/-- Rules are listed in the webhook index under the webhooks that their triggers are called for. -/
theorem webhook_listing : Listing Registry.webhooks fun t webhookId => t.webhookId? = some webhookId where
  register _ _ _ _ _ _ := register_webhooks_iff
  unregister _ _ _ _ := unregister_webhooks_iff
  amend _ _ _ := rfl
  schedule _ _ := rfl

/-- An index lists every rule of a registry under what its triggers in use are for. -/
theorem Listing.lists {index : Registry → Index} {isFor : Trigger → String → Prop} (h : Listing index isFor)
    {t : Trigger} (hr : r ∈ (after acts).rules) (ht : t ∈ r.enabledTriggers) (hfor : isFor t key) :
    (index (after acts)).Lists key r.id := by
  induction acts using List.reverseRecOn generalizing r with
  | nil => cases hr
  | append_singleton acts a ih =>
      rw [after_concat] at hr ⊢
      rw [apply_rules] at hr
      obtain hr | hr := List.mem_append.mp hr
      · obtain ⟨q, hq, rfl⟩ := List.mem_map.mp hr
        obtain ⟨hmem, hkept⟩ := List.mem_filter.mp hq
        have hlisted := ih hmem (enabled_of_amended ht)
        rw [amended_id]
        cases a with
        | register polls now r =>
            have hne : r.id ≠ q.id := by simpa [Act.replaces] using hkept
            exact (h.register _ _ _ _ _ _).mpr (.inl ⟨hlisted, hne.symm⟩)
        | unregister ruleId =>
            have hne : ruleId ≠ q.id := by simpa [Act.replaces] using hkept
            exact (h.unregister _ _ _ _).mpr ⟨hlisted, hne.symm⟩
        | amend ruleId c => rwa [h.amend]
        | schedule jobs => rwa [h.schedule]
      · obtain ⟨polls, now, rfl, hactive⟩ := mem_entered_iff.mp hr
        exact (h.register _ _ _ _ _ _).mpr (.inr ⟨rfl, hactive, t, ht, hfor⟩)

/-- The event index lists every rule of a registry under the types that it reacts to. -/
theorem listed_of_hears (hr : r ∈ (after acts).rules) (h : r.Hears key) :
    (after acts).events.Lists key r.id :=
  have ⟨_, ht, hears⟩ := h
  event_listing.lists hr ht hears

/-- The webhook index lists every rule of a registry under the webhooks that it serves. -/
theorem listed_of_serves (hr : r ∈ (after acts).rules) (h : r.Serves key) :
    (after acts).webhooks.Lists key r.id :=
  have ⟨_, ht, hid⟩ := h
  webhook_listing.lists hr ht hid

end Registry

end Rulebook
