import Rulebook.Proofs.Registry.Credential

/-!
# Several triggers for one webhook

A rule may have several triggers in use for one webhook, as it does while the old credentials and the new ones are
both to be taken. A call of the webhook asks the first of them alone. So a rule of which one of these triggers admits
the headers (`Rule.AdmitsCall`) is executed exactly if none that refuses them is the first
(`Registry.admitting_executed_iff`); whether it is depends on their order (`Rule.exists_order_called`).
-/

namespace Rulebook

namespace Rule

variable {r : Rule} {t u : Trigger} {webhookId : String} {headers : List (String × String)}

/-- One of the triggers in use that are for a webhook admits headers. -/
def AdmitsCall (r : Rule) (webhookId : String) (headers : List (String × String)) : Prop :=
  ∃ t ∈ r.enabledTriggers, t.IsFor webhookId ∧ t.Admits headers

/-- The first one of the triggers in use that are for a webhook does not admit headers. -/
def IsRefusedBy (r : Rule) (u : Trigger) (webhookId : String) (headers : List (String × String)) : Prop :=
  (∃ before after, r.enabledTriggers = before ++ u :: after ∧ ∀ v ∈ before, ¬v.IsFor webhookId) ∧
    u.IsFor webhookId ∧ ¬u.Admits headers

/-- A trigger that is found first for a webhook refuses the rule if it does not accept the headers. -/
theorem refused_iff : r.IsRefusedBy u webhookId headers ↔
    r.enabledTriggers.find? (fun t => t.webhookId? == some webhookId) = some u ∧
      u.authorizes (Registry.lowerHeaders headers) = false := by
  have hfor : ∀ v : Trigger, (v.webhookId? == some webhookId) = true ↔ v.IsFor webhookId := fun v =>
    beq_iff_eq.trans Trigger.webhook_id_eq_some_iff
  unfold IsRefusedBy
  rw [List.find?_eq_some_iff_append, hfor, ← Bool.not_eq_true, Trigger.authorizes_iff]
  simp only [Bool.not_eq_true', ← Bool.not_eq_true, hfor]
  tauto

/-- A rule that has a trigger for a webhook is found to answer a call unless the first one refuses it. -/
theorem answers_iff_not_refused (h : ∃ t ∈ r.enabledTriggers, t.IsFor webhookId) :
    r.answers webhookId (Registry.lowerHeaders headers) = true ↔ ¬∃ u, r.IsRefusedBy u webhookId headers := by
  obtain ⟨t, ht, hfor⟩ := h
  simp only [refused_iff]
  unfold answers
  cases hfound : r.enabledTriggers.find? fun t => t.webhookId? == some webhookId with
  | none =>
      have hnot := List.find?_eq_none.mp hfound t ht
      exact absurd (beq_iff_eq.mpr (Trigger.webhook_id_eq_some_iff.mpr hfor)) hnot
  | some first => simp

/-- The triggers of a rule that admits a call can be put in an order in which the call means the rule. -/
theorem exists_order_called (h : r.AdmitsCall webhookId headers) :
    ∃ triggers, triggers.Perm r.triggers ∧ ∃ t, { r with triggers }.IsCalledThrough t webhookId headers := by
  obtain ⟨t, ht, hfor, hadmits⟩ := h
  obtain ⟨hmem, henabled⟩ := List.mem_filter.mp ht
  obtain ⟨before, after, htriggers⟩ := List.append_of_mem hmem
  refine ⟨t :: (before ++ after), htriggers ▸ List.perm_middle.symm, t,
    ⟨[], (before ++ after).filter (·.enabled), ?_, nofun⟩, hfor, hadmits⟩
  exact List.filter_cons_of_pos henabled

end Rule

namespace Registry

variable {σ : Type} {acts : List Act} {r : Rule} {u : Trigger} {webhookId : String}
  {headers : List (String × String)}

/-- A rule whose first trigger for a webhook does not accept the headers is noted. -/
theorem note_of_unauthorized {rules : List Rule} (hr : r ∈ rules)
    (hfound : r.enabledTriggers.find? (fun t => t.webhookId? == some webhookId) = some u)
    (hrefuses : u.authorizes headers = false) :
    unauthorizedNote r.id webhookId ∈ (calledBy webhookId headers rules).1 := by
  induction rules with
  | nil => cases hr
  | cons q rules ih =>
      unfold calledBy
      dsimp only
      obtain rfl | hr := List.mem_cons.mp hr
      · rw [hfound]
        dsimp only
        rw [hrefuses]
        exact List.mem_cons_self
      · split
        · exact ih hr
        · split
          · exact ih hr
          · exact List.mem_cons_of_mem _ (ih hr)

/-- A registered rule that is refused by its first trigger for a webhook is noted when the webhook is called. -/
theorem note_of_refused (hr : Registered acts r) (h : r.IsRefusedBy u webhookId headers) :
    unauthorizedNote r.id webhookId ∈ ((after acts).forWebhook webhookId (lowerHeaders headers)).1 := by
  obtain ⟨hfound, hrefuses⟩ := Rule.refused_iff.mp h
  have hmem := mem_rules_iff.mpr hr
  have hid := (List.find?_eq_some_iff_append.mp hfound).1
  have hserves : r.Serves webhookId := ⟨u, List.mem_of_find?_eq_some hfound, beq_iff_eq.mp hid⟩
  have hlisted := (after_tidy acts).webhooks.mem_get_iff.mpr (listed_of_serves hmem hserves)
  exact note_of_unauthorized (List.mem_filter.mpr ⟨hmem, List.contains_iff_mem.mpr hlisted⟩) hfound hrefuses

/-- Among the calls of the rules that are wanted is that of a registered rule in use exactly if it is wanted. -/
theorem call_mem_iff (wanted : Rule → Bool) (o : Occasion) (hr : Registered acts r) (hactive : r.isActive = true) :
    (r.id, o) ∈ Host.callsFor o (Host.byPriority ((after acts).rules.filter wanted)) ↔ wanted r = true := by
  obtain ⟨hmem, _⟩ := in_turn acts wanted
  unfold Host.callsFor
  rw [List.mem_map]
  constructor
  · rintro ⟨q, hq, heq⟩
    obtain ⟨hregistered, _, hwanted⟩ := (hmem q).mp hq
    -- no two registered rules have one identifier
    obtain rfl : q = r := List.inj_on_of_nodup_map (ids_nodup acts) (mem_rules_iff.mpr hregistered)
      (mem_rules_iff.mpr hr) (congrArg Prod.fst heq)
    exact hwanted
  · exact fun hwanted => ⟨r, (hmem r).mpr ⟨hr, hactive, hwanted⟩, rfl⟩

/-- There are no more calls than rules. -/
theorem calls_length_le (o : Occasion) (wanted : Rule → Bool) :
    (Host.callsFor o (Host.byPriority ((after acts).rules.filter wanted))).length ≤ (after acts).rules.length := by
  unfold Host.callsFor Host.byPriority
  rw [List.length_map]
  refine Nat.le_trans (List.length_filter_le _ _) ?_
  rw [List.length_mergeSort]
  exact List.length_filter_le _ _

/-- A registered rule in use that admits a call of a webhook through one of its triggers is executed exactly if the
first one of its triggers in use for the webhook does not refuse it; if that one does, the others are not asked, and
the call is noted as one that is not authorized. -/
theorem admitting_executed_iff (acts : List Act) (h : Host σ) (s : σ) (hs : h.registry s = after acts)
    (webhookId : String) (data : Fields) (headers : List (String × String)) (replies : List (Host.Reply σ))
    (r : Rule) (hr : Registered acts r) (hactive : r.isActive = true) (hadmits : r.AdmitsCall webhookId headers) :
    let call := (r.id, Occasion.ofWebhook webhookId data (lowerHeaders headers))
    ∃ calls p, h.respond webhookId data headers s replies = (calls, p) ∧
      ((after acts).rules.length ≤ replies.length → ∃ ids, p = .finished ids) ∧
      ((∃ ids, p = .finished ids) → (call ∈ calls ↔ ¬∃ u, r.IsRefusedBy u webhookId headers)) ∧
      ((∃ u, r.IsRefusedBy u webhookId headers) → call ∉ calls ∧
        unauthorizedNote r.id webhookId ∈ ((h.registry s).forWebhook webhookId (lowerHeaders headers)).1) := by
  intro call
  have hmeant : ((h.registry s).forWebhook webhookId (lowerHeaders headers)).2 =
      (after acts).rules.filter (·.answers webhookId (lowerHeaders headers)) :=
    hs ▸ for_webhook_rules acts webhookId _
  obtain ⟨calls, p, hrespond, hsplit, hdone⟩ := h.respond_calls webhookId data headers s replies hmeant
  have hcall := call_mem_iff (·.answers webhookId (lowerHeaders headers))
    (.ofWebhook webhookId data (lowerHeaders headers)) hr hactive
  rw [Rule.answers_iff_not_refused (hadmits.imp fun _ ht => ⟨ht.1, ht.2.1⟩)] at hcall
  refine ⟨calls, p, hrespond, fun hlength => ?_, ?_, fun hrefused => ⟨fun hmem => ?_, ?_⟩⟩
  · exact Progress.needs_eq_zero_iff.mp (hdone (Nat.le_trans (calls_length_le _ _) hlength))
  · rintro ⟨ids, rfl⟩
    rw [← hcall, ← hsplit]
    exact (List.append_nil calls).symm ▸ Iff.rfl
  · exact hcall.mp (hsplit ▸ List.mem_append_left _ hmem) hrefused
  · obtain ⟨u, hu⟩ := hrefused
    exact hs ▸ note_of_refused hr hu

/-- While the old token stands before the new one, a call with the new one does not execute the rule. -/
theorem admitting_executed_iff_renewed :
    let r := { Rule.plain "rule" [] with triggers := [guarded "old", guarded "new"] }
    let headers := [("Authorization", "Bearer new")]
    let acts := [Act.register false (.utc 0) r]
    let s : RegistryRehearsal := ⟨after acts, .utc 0, [], [], none, []⟩
    Registered acts r ∧ r.isActive = true ∧ r.AdmitsCall "hook" headers ∧
      ∃ calls p, (RegistryRehearsal.host false).respond "hook" [] headers s [] = (calls, p) ∧
        (r.id, .ofWebhook "hook" [] (lowerHeaders headers)) ∉ calls := by
  intro r headers acts s
  have hr : Registered acts r := mem_rules_iff.mp List.mem_cons_self
  have hadmits : r.AdmitsCall "hook" headers :=
    ⟨guarded "new", List.mem_cons_of_mem _ List.mem_cons_self, ⟨_, rfl, .inr ⟨.inl rfl, rfl⟩⟩,
      Trigger.authorizes_iff.mp (by decide +kernel)⟩
  have hrefused : r.IsRefusedBy (guarded "old") "hook" headers :=
    Rule.refused_iff.mpr ⟨rfl, by decide +kernel⟩
  obtain ⟨calls, p, hrespond, _, _, hrefusal⟩ := admitting_executed_iff acts (RegistryRehearsal.host false) s rfl
    "hook" [] headers [] r hr rfl hadmits
  exact ⟨hr, rfl, hadmits, calls, p, hrespond, (hrefusal ⟨_, hrefused⟩).1⟩

end Registry

end Rulebook
