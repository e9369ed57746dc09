import Rulebook.Proofs.Registry.Index

/-!
# What registering does

A rule that is registered stands behind the others, and each index lists it under what its triggers in use
react to (`Registry.register_events_iff`, `Registry.register_webhooks_iff`); what the rule had before is gone.
The indexes stay tidy.
-/

namespace Rulebook

/-- A trigger reacts to events of a type, which is given in its normal form. -/
def Trigger.Hears (t : Trigger) (key : String) : Prop :=
  ∃ eventType, t.source = .event eventType ∧ EventType.normalize eventType = key

/-- A rule reacts to events of a type, which is given in its normal form. -/
def Rule.Hears (r : Rule) (key : String) : Prop := ∃ t ∈ r.enabledTriggers, t.Hears key

/-- A rule reacts to calls of a webhook. -/
def Rule.Serves (r : Rule) (webhookId : String) : Prop :=
  ∃ t ∈ r.enabledTriggers, t.webhookId? = some webhookId

namespace Registry

/-- Both indexes of a registry are tidy. -/
structure Tidy (g : Registry) : Prop where
  events : g.events.Tidy
  webhooks : g.webhooks.Tidy

variable {g : Registry} {ruleId id key webhookId : String} {t : Trigger} {r : Rule}

/-- What a trigger listens to is entered in one of the indexes at most. -/
theorem listen_cases (ruleId : String) (g : Registry) (t : Trigger) :
    (∃ eventType, t.source = .event eventType ∧ t.webhookId? = none ∧
        listen ruleId g t = { g with events := g.events.add (EventType.normalize eventType) ruleId }) ∨
      (∃ w, t.webhookId? = some w ∧ (∀ eventType, t.source ≠ .event eventType) ∧
        listen ruleId g t = { g with webhooks := g.webhooks.add w ruleId }) ∨
      t.webhookId? = none ∧ (∀ eventType, t.source ≠ .event eventType) ∧ listen ruleId g t = g := by
  unfold listen
  cases hsource : t.source with
  | event eventType => exact .inl ⟨eventType, rfl, by rw [Trigger.webhookId?, hsource], rfl⟩
  | webhook w =>
      cases hw : t.webhookId? with
      | some id => exact .inr (.inl ⟨id, rfl, nofun, rfl⟩)
      | none => exact .inr (.inr ⟨rfl, nofun, rfl⟩)
  | _ =>
      have hw : t.webhookId? = none := by rw [Trigger.webhookId?, hsource]
      rw [hw]
      exact .inr (.inr ⟨rfl, nofun, rfl⟩)

/-- Listening leaves the rules as they are. -/
theorem listen_rules : (listen ruleId g t).rules = g.rules := by
  obtain ⟨_, _, _, h⟩ | ⟨_, _, _, h⟩ | ⟨_, _, h⟩ := listen_cases ruleId g t <;> rw [h]

/-- Listening leaves the jobs as they are. -/
theorem listen_scheduler : (listen ruleId g t).scheduler = g.scheduler := by
  obtain ⟨_, _, _, h⟩ | ⟨_, _, _, h⟩ | ⟨_, _, h⟩ := listen_cases ruleId g t <;> rw [h]

/-- Listening lists the rule under the event type of the trigger. -/
theorem listen_events_iff :
    (listen ruleId g t).events.Lists key id ↔ g.events.Lists key id ∨ id = ruleId ∧ t.Hears key := by
  unfold Trigger.Hears
  obtain ⟨eventType, hsource, _, h⟩ | ⟨_, _, hsource, h⟩ | ⟨_, hsource, h⟩ := listen_cases ruleId g t
  · simp [h, hsource, Index.lists_add_iff, and_comm, eq_comm]
  · simp [h, hsource]
  · simp [h, hsource]

/-- Listening lists the rule under the webhook of the trigger. -/
theorem listen_webhooks_iff : (listen ruleId g t).webhooks.Lists webhookId id ↔
    g.webhooks.Lists webhookId id ∨ id = ruleId ∧ t.webhookId? = some webhookId := by
  obtain ⟨_, _, hw, h⟩ | ⟨_, hw, _, h⟩ | ⟨hw, _, h⟩ := listen_cases ruleId g t
  · simp [h, hw]
  · simp [h, hw, Index.lists_add_iff, and_comm, eq_comm]
  · simp [h, hw]

/-- Listening keeps the indexes tidy. -/
theorem Tidy.listen (h : g.Tidy) (ruleId : String) (t : Trigger) : (listen ruleId g t).Tidy := by
  obtain ⟨_, _, _, heq⟩ | ⟨_, _, _, heq⟩ | ⟨_, _, heq⟩ := listen_cases ruleId g t
  · rw [heq]
    exact ⟨h.events.add _ _, h.webhooks⟩
  · rw [heq]
    exact ⟨h.events, h.webhooks.add _ _⟩
  · rwa [heq]

/-- Triggers in use make the rule be listed under what they react to, and nothing else changes. -/
theorem listen_all (ruleId : String) (triggers : List Trigger) (g : Registry) :
    (triggers.foldl (listen ruleId) g).rules = g.rules ∧
      (triggers.foldl (listen ruleId) g).scheduler = g.scheduler ∧
      (∀ key id, (triggers.foldl (listen ruleId) g).events.Lists key id ↔
        g.events.Lists key id ∨ id = ruleId ∧ ∃ t ∈ triggers, t.Hears key) ∧
      (∀ webhookId id, (triggers.foldl (listen ruleId) g).webhooks.Lists webhookId id ↔
        g.webhooks.Lists webhookId id ∨ id = ruleId ∧ ∃ t ∈ triggers, t.webhookId? = some webhookId) ∧
      (g.Tidy → (triggers.foldl (listen ruleId) g).Tidy) := by
  induction triggers generalizing g with
  | nil => simp
  | cons t triggers ih =>
      obtain ⟨hrules, hjobs, hevents, hwebhooks, htidy⟩ := ih (listen ruleId g t)
      refine ⟨hrules.trans listen_rules, hjobs.trans listen_scheduler, fun key id => ?_,
        fun webhookId id => ?_, fun h => htidy (h.listen ruleId t)⟩
      · rw [List.foldl_cons, hevents, listen_events_iff, List.exists_mem_cons_iff, and_or_left, or_assoc]
      · rw [List.foldl_cons, hwebhooks, listen_webhooks_iff, List.exists_mem_cons_iff, and_or_left, or_assoc]

/-- A rule is entered behind the others. -/
theorem enter_rules : (g.enter r).rules = g.rules ++ [r] :=
  (listen_all r.id r.enabledTriggers _).1

/-- Entering a rule leaves the jobs as they are. -/
theorem enter_scheduler : (g.enter r).scheduler = g.scheduler :=
  (listen_all r.id r.enabledTriggers _).2.1

/-- An entered rule is listed under the event types that it reacts to. -/
theorem enter_events_iff :
    (g.enter r).events.Lists key id ↔ g.events.Lists key id ∨ id = r.id ∧ r.Hears key :=
  (listen_all r.id r.enabledTriggers _).2.2.1 key id

/-- An entered rule is listed under the webhooks that it reacts to. -/
theorem enter_webhooks_iff : (g.enter r).webhooks.Lists webhookId id ↔
    g.webhooks.Lists webhookId id ∨ id = r.id ∧ r.Serves webhookId :=
  (listen_all r.id r.enabledTriggers _).2.2.2.1 webhookId id

/-- Entering a rule keeps the indexes tidy. -/
theorem Tidy.enter (h : g.Tidy) (r : Rule) : (g.enter r).Tidy :=
  (listen_all r.id r.enabledTriggers _).2.2.2.2 ⟨h.events, h.webhooks⟩

/-- Without a rule, an index lists what it listed of the others. -/
theorem unregister_events_iff :
    (g.unregister ruleId).events.Lists key id ↔ g.events.Lists key id ∧ id ≠ ruleId :=
  Index.lists_drop_iff

/-- Without a rule, an index lists what it listed of the others. -/
theorem unregister_webhooks_iff :
    (g.unregister ruleId).webhooks.Lists webhookId id ↔ g.webhooks.Lists webhookId id ∧ id ≠ ruleId :=
  Index.lists_drop_iff

/-- Without a rule the indexes stay tidy. -/
theorem Tidy.unregister (h : g.Tidy) (ruleId : String) : (g.unregister ruleId).Tidy :=
  ⟨h.events.drop ruleId, h.webhooks.drop ruleId⟩

variable {polls : Bool} {now : Moment}

/-- A rule in use is entered when what it had before is gone, and its jobs are armed. -/
theorem register_of_active (h : r.isActive = true) : (g.register polls now r).1 =
    { (g.unregister r.id).enter r with
      scheduler := (arm polls now r.id r.enabledTriggers (g.unregister r.id).scheduler).1 } := by
  rw [register, if_pos h, ← enter_scheduler (g := g.unregister r.id) (r := r)]

/-- A rule that is not in use is only taken away. -/
theorem register_of_inactive (h : r.isActive = false) :
    (g.register polls now r).1 = g.unregister r.id := by
  rw [register, h]
  rfl

/-- A rule that is registered stands behind the others if it is in use. -/
theorem register_rules : (g.register polls now r).1.rules =
    g.rules.filter (·.id != r.id) ++ if r.isActive then [r] else [] := by
  cases hactive : r.isActive with
  | true =>
      rw [register_of_active hactive]
      exact enter_rules
  | false =>
      rw [register_of_inactive hactive]
      exact (List.append_nil _).symm

/-- An event type has the rules that it had, but of the registered one what it reacts to now. -/
theorem register_events_iff : (g.register polls now r).1.events.Lists key id ↔
    g.events.Lists key id ∧ id ≠ r.id ∨ id = r.id ∧ r.isActive = true ∧ r.Hears key := by
  cases hactive : r.isActive with
  | true =>
      rw [register_of_active hactive, ← unregister_events_iff]
      simpa using enter_events_iff
  | false =>
      rw [register_of_inactive hactive, unregister_events_iff]
      simp

/-- A webhook has the rules that it had, but of the registered one what it reacts to now. -/
theorem register_webhooks_iff : (g.register polls now r).1.webhooks.Lists webhookId id ↔
    g.webhooks.Lists webhookId id ∧ id ≠ r.id ∨ id = r.id ∧ r.isActive = true ∧ r.Serves webhookId := by
  cases hactive : r.isActive with
  | true =>
      rw [register_of_active hactive, ← unregister_webhooks_iff]
      simpa using enter_webhooks_iff
  | false =>
      rw [register_of_inactive hactive, unregister_webhooks_iff]
      simp

/-- Registering keeps the indexes tidy. -/
theorem Tidy.register (h : g.Tidy) (polls : Bool) (now : Moment) (r : Rule) :
    (g.register polls now r).1.Tidy := by
  cases hactive : r.isActive with
  | true =>
      have htidy := (h.unregister r.id).enter r
      rw [register_of_active hactive]
      exact ⟨htidy.events, htidy.webhooks⟩
  | false =>
      rw [register_of_inactive hactive]
      exact h.unregister r.id

end Registry

end Rulebook
