import Rulebook.Proofs.Engine.Act
import Rulebook.Proofs.Registry.Dispatch
import Rulebook.Proofs.Registry.Webhook
import Rulebook.Rehearsal.Registry

/-!
# What a call of a webhook makes a host execute

A webhook is called on a host whose registry has come to be as it is by registering, amending and taking away
rules. Those registered rules in use are executed of which the first trigger for the webhook admits the headers,
each once, by priority and then by the time of registration (`Registry.admitted_executed`).
-/

namespace Rulebook

namespace Host

variable {σ : Type}

/-- How far a call of a webhook gets with replies, and what it makes the host execute. -/
def respond (h : Host σ) (webhookId : String) (data : Fields) (headers : List (String × String)) (s : σ)
    (replies : List (Reply σ)) : Calls × Progress :=
  let (s, p) := goOn replies (h.recorded.webhook webhookId data headers (s, []))
  (s.2, p)

/-- As far as it got, a call of a webhook makes a host execute the first ones of the rules that it means, those of
higher priority before the others; with enough replies it gets to the end. -/
theorem respond_calls (h : Host σ) (webhookId : String) (data : Fields) (headers : List (String × String)) (s : σ)
    (replies : List (Reply σ)) {meant : List Rule}
    (hmeant : ((h.registry s).forWebhook webhookId (Registry.lowerHeaders headers)).2 = meant) :
    let o := Occasion.ofWebhook webhookId data (Registry.lowerHeaders headers)
    ∃ calls p, h.respond webhookId data headers s replies = (calls, p) ∧
      calls ++ p.due = callsFor o (byPriority meant) ∧
      ((callsFor o (byPriority meant)).length ≤ replies.length → p.needs = 0) := by
  intro o
  have hserve := h.serve_leaves o (byPriority meant)
    (h.recorded.note (s, []) ((h.registry s).forWebhook webhookId (Registry.lowerHeaders headers)).1) []
  have hwebhook : h.recorded.webhook webhookId data headers (s, []) = h.recorded.serve o [] (byPriority meant)
      (h.recorded.note (s, []) ((h.registry s).forWebhook webhookId (Registry.lowerHeaders headers)).1) [] := by
    rw [webhook, ← hmeant]
    rfl
  rw [← hwebhook] at hserve
  obtain ⟨hleaves, hdone⟩ := go_on_leaves replies hserve.1
  exact ⟨_, _, rfl, hleaves.split, fun hlength => hdone (Nat.le_trans hserve.2 hlength)⟩

end Host

namespace Registry

variable {σ : Type}

/-- Whatever a registry has come to hold, a call of a webhook executes the registered rules in use that it means
through one of their triggers: the first one in use that is for the webhook, by the identifier that is given or
else by its own, if it asks for no credentials, or if these are complete and the headers carry just what they
demand. Each is executed once, those of higher priority first and those of equal priority in the order of their
last registration: as far as the call got, the first of them have been, and with a reply for each of them all
have been. -/
theorem admitted_executed (acts : List Act) (h : Host σ) (s : σ) (hs : h.registry s = after acts)
    (webhookId : String) (data : Fields) (headers : List (String × String)) (replies : List (Host.Reply σ)) :
    ∃ executed : List Rule,
      (∀ r, r ∈ executed ↔
        Registered acts r ∧ r.isActive = true ∧ ∃ t, r.IsCalledThrough t webhookId headers) ∧
      (executed.map (·.id)).Nodup ∧
      executed.Pairwise (fun a b => b.priority < a.priority ∨
        a.priority = b.priority ∧ RegisteredBefore acts a b) ∧
      ∃ calls p, h.respond webhookId data headers s replies = (calls, p) ∧
        calls <+: executed.map (fun r => (r.id, .ofWebhook webhookId data (lowerHeaders headers))) ∧
        ((∃ ids, p = .finished ids) →
          calls = executed.map fun r => (r.id, .ofWebhook webhookId data (lowerHeaders headers))) ∧
        (executed.length ≤ replies.length → ∃ ids, p = .finished ids) := by
  have hmeant : ((h.registry s).forWebhook webhookId (lowerHeaders headers)).2 =
      (after acts).rules.filter (·.answers webhookId (lowerHeaders headers)) := by
    rw [hs]
    exact for_webhook_rules acts webhookId _
  obtain ⟨calls, p, hrespond, hsplit, hdone⟩ := h.respond_calls webhookId data headers s replies hmeant
  obtain ⟨hmem, hids, horder⟩ := in_turn acts fun r => r.answers webhookId (lowerHeaders headers)
  refine ⟨_, fun r => ?_, hids, horder, calls, p, hrespond, ⟨p.due, hsplit⟩, ?_, fun hlength => ?_⟩
  · rw [hmem, Rule.answers_iff]
  · rintro ⟨ids, rfl⟩
    exact (List.append_nil calls).symm.trans hsplit
  · refine Progress.needs_eq_zero_iff.mp (hdone ?_)
    rwa [Host.callsFor, List.length_map]

/-- A trigger that asks for a token. -/
def guarded (token : String) : Trigger :=
  ⟨"hook", "", true, [],
    .webhook { WebhookEndpoint.plain with authentication := some ⟨.bearer, [("token", token)]⟩ }⟩

/-- A rule that asks for a token is executed when the token comes under the name of its header, whatever its case;
another one that asks for a token, but has none, is not. -/
theorem admitted_executed_token :
    let r := { Rule.plain "rule" [] with triggers := [guarded "secret"] }
    let other := { Rule.plain "other" [] with triggers := [guarded ""] }
    let headers := [("Authorization", "Bearer other"), ("AUTHORIZATION", "Bearer secret")]
    let acts := [Act.register false (.utc 0) r, .register false (.utc 0) other]
    let s : RegistryRehearsal := ⟨after acts, .utc 0, [], [], none, []⟩
    ∃ (executed : List Rule) (calls : Calls) (p : Progress), r ∈ executed ∧ other ∉ executed ∧
      (RegistryRehearsal.host false).respond "hook" [] headers s [] = (calls, p) ∧
      calls <+: executed.map fun q => (q.id, .ofWebhook "hook" [] (lowerHeaders headers)) := by
  intro r other headers acts s
  obtain ⟨executed, hexecuted, _, _, calls, p, hrespond, hcalls, _⟩ :=
    admitted_executed acts (RegistryRehearsal.host false) s rfl "hook" [] headers []
  have hregistered : Registered acts r := mem_rules_iff.mp List.mem_cons_self
  refine ⟨executed, calls, p, (hexecuted r).mpr ⟨hregistered, rfl, guarded "secret", ?_⟩, fun hother => ?_,
    hrespond, hcalls⟩
  · have hcompares : (guarded "secret").Compares "Authorization" ("Bearer " ++ "secret") :=
      ⟨_, _, rfl, rfl, .bearer rfl ⟨rfl, by decide⟩⟩
    have hcarries : Carries headers "Authorization" ("Bearer " ++ "secret") :=
      ⟨[("Authorization", "Bearer other")], "AUTHORIZATION", [], rfl, by decide +kernel, nofun⟩
    exact ⟨⟨[], [], rfl, nofun⟩, ⟨_, rfl, .inr ⟨.inl rfl, rfl⟩⟩, _, rfl, .inr ⟨_, _, hcompares, hcarries⟩⟩
  · obtain ⟨_, _, t, ⟨⟨before, after, htriggers, _⟩, _, w, hw, hadmits⟩⟩ := (hexecuted other).mp hother
    obtain rfl : t = guarded "" := by
      have hmem : t ∈ other.enabledTriggers := htriggers ▸ List.mem_append_right _ List.mem_cons_self
      exact List.mem_singleton.mp hmem
    cases hw
    obtain hnone | ⟨name, value, ⟨w, a, hw, ha, hdemands⟩, _⟩ := hadmits
    · cases hnone
    · cases hw
      cases ha
      cases hdemands with
      | bearer _ htoken => exact htoken.2 (Option.some.inj htoken.1).symm
      | basic hscheme => cases hscheme
      | keyIn hscheme => cases hscheme
      | key hscheme => cases hscheme

end Registry

end Rulebook
