import Rulebook.Proofs.Engine.Tenant
import Rulebook.Proofs.Registry.Credential

/-!
# Which credentials are kept

The circumstances of an execution that a webhook started hold the headers of the call, except for three names that
are left out (`Registry.secretHeaders`), and the record of the execution keeps the circumstances
(`Call.Creates.circumstances`). So of the credentials that a trigger compared those are kept that came in a header
of another name, as keys do in a header that is configured (`Registry.credentials_kept_iff`).
-/

namespace Rulebook

/-! ### Circumstances in records -/

/-- The payload of the circumstances of an execution that an entry keeps. -/
def StoreEntry.circumstances : StoreEntry → Value
  | execution x => x.context.toValue.written
  | row r => r.context

/-- An entry that a store makes for an execution keeps its circumstances. -/
theorem StoreEntry.circumstances_of_entry {s : ExecutionStore} {x : Execution} {n : StoreEntry}
    (h : s.entryOf x = .ok n) : n.circumstances = x.context.toValue.written := by
  cases s with
  | memory t =>
      obtain rfl := Except.ok.inj h
      rfl
  | sql t =>
      obtain ⟨row, hrow, rfl⟩ := Outcome.map_eq_ok.mp h
      obtain ⟨_, _, _, _, _, _, _, _, rfl⟩ := ExecutionRow.of_execution_eq_ok.mp hrow
      rfl

/-- An entry that is written again for a version of the same circumstances keeps them. -/
theorem StoreEntry.circumstances_of_kept {s : ExecutionStore} {x : Execution} {n m : StoreEntry}
    (hn : s.entryAt x.id = some n) (hsame : n.circumstances = x.context.toValue.written)
    (h : s.kept x = .ok m) : m.circumstances = x.context.toValue.written := by
  cases s with
  | memory t =>
      obtain rfl := Except.ok.inj h
      rfl
  | sql t =>
      obtain ⟨old, hold, rfl⟩ := Option.map_eq_some_iff.mp hn
      obtain ⟨row, hrow, rfl⟩ := Outcome.map_eq_ok.mp h
      obtain ⟨new, hnew, rfl⟩ := Outcome.map_eq_ok.mp hrow
      have hcontext : new.context = x.context.toValue.written :=
        circumstances_of_entry (s := .sql t) (n := .row new) (by rw [ExecutionStore.entryOf, hnew]; rfl)
      -- the old payload stays if it agrees with the new one, and both are the same here
      rw [hold]
      show Stored.overlay old.context new.context = _
      unfold Stored.overlay
      split
      · exact hsame
      · exact hcontext

namespace Call

variable {σ : Type} {v : Environment σ} {c : Call σ} {id : String} {n : StoreEntry}

/-- The record that a call creates keeps the circumstances of the call. -/
theorem Creates.circumstances (h : c.Creates v id n) :
    n.circumstances = c.occasion.context.toValue.written := by
  obtain ⟨rfl, r, hr⟩ := opens_of_creates h
  obtain ⟨reason, t, hcheck, hcreate⟩ := hr.added
  have hid := (c.begun_spec r reason).1
  have hfresh : c.before.executions.entryAt (c.begun r reason).id = none := hid ▸ hr.fresh
  obtain ⟨m, hm⟩ := ExecutionStore.entry_of_create_eq_ok hcreate
  have hcreated : (c.before.executions.created (c.begun r reason)).entryAt (c.begun r reason).id = some m := by
    rw [ExecutionStore.entry_created_self hfresh, hm]
    rfl
  have hcontext : (c.begun r reason).context = c.occasion.context := by
    cases reason with
    | none => rfl
    | some reason =>
        have horigin : (c.begun r (some reason)).origin = _ := (Execution.precedes_move_to _ c.now _ rfl).origin
        exact congrArg (·.2.2.2.2.2.2) horigin
  have hkept := StoreEntry.circumstances_of_entry hm
  have hentry := h.2
  rw [← hid] at hentry
  change (c.after v).core.executions.entryAt _ = some n at hentry
  rw [← hcontext]
  cases reason with
  | some reason =>
      rw [after, c.before.execute_refused_core v c.now _ _ _ _ hr.active hcheck hcreate] at hentry
      obtain rfl := Option.some.inj (hcreated.symm.trans hentry)
      exact hkept
  | none =>
      rw [after, c.before.execute_opened_core v c.now _ _ _ _ hr.active hcheck hcreate] at hentry
      obtain hsame | ⟨y, horigin, hsaved⟩ := Core.launch_executions (c.before.core.opened (c.begun r none)) v c.now r
        (c.begun r none) (Condition.allHold r.conditions (c.begun r none).seen)
      · obtain rfl := Option.some.inj (hcreated.symm.trans (hsame ▸ hentry))
        exact hkept
      · -- the execution goes on at once, and a later version of it is written over the first one
        have hyid : y.id = (c.begun r none).id := congrArg (·.1) horigin
        have hycontext : y.context = (c.begun r none).context := congrArg (·.2.2.2.2.2.2) horigin
        have hold : (c.before.core.opened (c.begun r none)).executions.entryAt y.id = some m := hyid ▸ hcreated
        have hwritten := ExecutionStore.entry_saved_self (c.before.core.opened (c.begun r none)).executions y
        rw [hold, hyid, ← hsaved] at hwritten
        obtain rfl := Option.some.inj (hentry.symm.trans hwritten)
        rw [← hycontext] at hkept ⊢
        cases hy : (c.before.core.opened (c.begun r none)).executions.kept y with
        | error f => exact hkept
        | ok k => exact StoreEntry.circumstances_of_kept hold hkept hy

end Call

/-! ### Credentials in circumstances -/

namespace Registry

variable {σ : Type}

/-- The circumstances of a call of a webhook, with the headers that are kept. -/
def circumstances (webhookId : String) (kept : List (String × String)) : ExecutionContext :=
  { ExecutionContext.empty with
    metadata := [("triggered_by", .text ("webhook:" ++ webhookId)), ("headers", .ofTextFields kept)] }

/-- All rules that a call of a webhook executes get the same circumstances, in which some of the headers of the call
are kept, and the records of the executions keep them. The header that a trigger compared with its credentials, and
found to be right, is among those that are kept, under whatever case, exactly if its name is none of the three that
are left out. So tokens and passwords are not kept, nor are keys in the usual header, but keys are in any header that
is configured for them. -/
theorem credentials_kept_iff (h : Host σ) (s : σ) (webhookId : String) (data : Fields)
    (headers : List (String × String)) (replies : List (Host.Reply σ)) :
    ∃ kept,
      (∀ call ∈ (h.respond webhookId data headers s replies).1,
        call.2.context = circumstances webhookId kept ∧
          ∀ (τ : Type) (v : Environment τ) (c : Call τ) (id : String) (n : StoreEntry), c.key = call →
            c.Creates v id n → n.circumstances = (circumstances webhookId kept).toValue.written) ∧
      ∀ (r : Rule) (t : Trigger) (name value : String), r.IsCalledThrough t webhookId headers →
        t.Compares name value →
          ((∃ h ∈ kept, Text.lower h.1 = Text.lower name) ↔ Text.lower name ∉ secretHeaders) := by
  have hcontext : ∀ call ∈ (h.respond webhookId data headers s replies).1,
      call.2.context = circumstances webhookId (safeHeaders (lowerHeaders headers)) := by
    obtain ⟨calls, p, hrespond, hsplit, _⟩ := h.respond_calls webhookId data headers s replies rfl
    intro call hcall
    rw [hrespond] at hcall
    have hmem := hsplit ▸ List.mem_append_left p.due hcall
    obtain ⟨r, _, rfl⟩ := List.mem_map.mp hmem
    rfl
  refine ⟨safeHeaders (lowerHeaders headers), fun call hcall => ⟨hcontext call hcall, ?_⟩, ?_⟩
  · rintro τ v c id n rfl hcreates
    rw [hcreates.circumstances, ← hcontext _ hcall]
    rfl
  · rintro r t name value ⟨_, _, w, hw, hadmits⟩ ⟨w', a, hw', ha, hdemands⟩
    obtain rfl : w = w' := TriggerSource.webhook.inj (hw.symm.trans hw')
    -- the trigger admitted the headers, so they carry just what it demands
    obtain hnone | ⟨name', value', ⟨w'', a', hw'', ha', hdemands'⟩, hcarries⟩ := hadmits
    · cases hnone.symm.trans ha
    · obtain rfl : w = w'' := TriggerSource.webhook.inj (hw.symm.trans hw'')
      obtain rfl : a = a' := Option.some.inj (ha.symm.trans ha')
      have hone := (Authentication.header_eq_ok_iff.mpr hdemands).symm.trans
        (Authentication.header_eq_ok_iff.mpr hdemands')
      obtain ⟨rfl, rfl⟩ := Prod.mk.inj (Except.ok.inj hone)
      exact kept_iff hcarries

/-- The key in a header that is configured for it is kept. -/
theorem credentials_kept_iff_configured :
    let t : Trigger := ⟨"hook", "", true, [], .webhook { WebhookEndpoint.plain with
      authentication := some ⟨.apiKey, [("key", "secret"), ("header", "X-Hook-Key")]⟩ }⟩
    let r := { Rule.plain "rule" [] with triggers := [t] }
    let headers := [("X-Hook-Key", "secret")]
    let s : RegistryRehearsal := ⟨after [.register false (.utc 0) r], .utc 0, [], [], none, []⟩
    let replies : List (Host.Reply RegistryRehearsal) := [⟨RegistryRehearsal.host false, s, .ok "exec_1"⟩]
    ∃ call ∈ ((RegistryRehearsal.host false).respond "hook" [] headers s replies).1, ∃ kept,
      call.2.context = circumstances "hook" kept ∧ ∃ h ∈ kept, Text.lower h.1 = "x-hook-key" := by
  intro t r headers s replies
  obtain ⟨kept, hcalls, hkept⟩ := credentials_kept_iff (RegistryRehearsal.host false) s "hook" [] headers replies
  have hcompares : t.Compares "X-Hook-Key" "secret" :=
    ⟨_, _, rfl, rfl, .keyIn rfl ⟨rfl, by decide⟩ ⟨rfl, by decide⟩⟩
  have hcarries : Carries headers "X-Hook-Key" "secret" := ⟨[], "X-Hook-Key", [], rfl, rfl, nofun⟩
  have hcalled : r.IsCalledThrough t "hook" headers :=
    ⟨⟨[], [], rfl, nofun⟩, ⟨_, rfl, .inr ⟨.inl rfl, rfl⟩⟩, _, rfl, .inr ⟨_, _, hcompares, hcarries⟩⟩
  have hmem : ("rule", Occasion.ofWebhook "hook" [] (lowerHeaders headers)) ∈
      ((RegistryRehearsal.host false).respond "hook" [] headers s replies).1 := by
    have hmeant : (s.registry.forWebhook "hook" (lowerHeaders headers)).2 = [r] := by
      rw [for_webhook_rules]
      exact List.filter_cons_of_pos (Rule.answers_iff.mpr ⟨t, hcalled⟩)
    have hone : Host.byPriority [r] = [r] := List.mergeSort_singleton r
    obtain ⟨calls, p, hrespond, hsplit, hdone⟩ :=
      (RegistryRehearsal.host false).respond_calls "hook" [] headers s replies hmeant
    rw [hone] at hsplit hdone
    obtain ⟨ids, rfl⟩ := Progress.needs_eq_zero_iff.mp (hdone (Nat.le_refl 1))
    obtain rfl := (List.append_nil calls).symm.trans hsplit
    rw [hrespond]
    exact List.mem_singleton_self _
  obtain ⟨h, hh, hname⟩ := (hkept r t "X-Hook-Key" "secret" hcalled hcompares).mpr (by decide +kernel)
  exact ⟨_, hmem, kept, (hcalls _ hmem).1, h, hh, hname.trans (by decide +kernel)⟩

end Registry

end Rulebook
