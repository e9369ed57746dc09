import Rulebook.Proofs.Engine.Catalog
import Rulebook.Proofs.Store.Part

/-!
# Whose rules and executions are

Rules have numbered identifiers, one for each number, and every execution is recorded for the tenant of its rule
(`Engine.Owned`). Whatever is done to an engine, a rule that it keeps stays that of its tenant, and so does an
execution (`Engine.after_owned`).
-/

namespace Rulebook.Engine

variable {σ : Type} {v : Environment σ} {now : Moment} {e : Engine σ} {r : Rule} {ruleId : String}

/-- Whose the rules and executions of an engine are is clear: identifiers of rules are given once, and executions are
recorded for the tenants of their rules. -/
structure Owned (e : Engine σ) : Prop where
  recorded : e.core.Recorded
  distinct : (e.rules.owners.map (·.1)).Nodup
  numbered : ∀ o ∈ e.rules.owners, ∃ n, n ≤ e.ruleIds ∧ o.1 = identifier "rule" n
  tried : ∀ u ∈ e.executions.trials, (u.ruleId, u.tenantId) ∈ e.rules.owners

/-- A rule that a tenant gets is that of the identifier, and the tenant's. -/
theorem owner_of_get_rule {tenantId : Option String} (h : e.getRule ruleId tenantId = .ok r) :
    e.rules.get ruleId = .ok (some r) ∧ ∀ tenant ∈ tenantId, r.tenantId = tenant := by
  obtain ⟨found, hfound, h⟩ := Outcome.bind_eq_ok.mp h
  cases found with
  | none => cases h
  | some q =>
      dsimp only at h
      split at h
      next htenant =>
        cases h
        refine ⟨hfound, fun tenant ht => ?_⟩
        rw [Option.mem_def.mp ht] at htenant
        exact (eq_of_beq htenant).symm
      next => cases h

/-- A rule in use is kept under the identifier. -/
theorem get_of_active (h : e.activeRule ruleId = .ok r) : e.rules.get ruleId = .ok (some r) := by
  obtain ⟨found, hfound, h⟩ := Outcome.bind_eq_ok.mp h
  cases found with
  | none => cases h
  | some q =>
      dsimp only at h
      split at h
      next =>
        cases h
        exact hfound
      next => cases h

/-- A new version of a rule that is kept leaves whose the rules are. -/
theorem Owned.owners_kept (he : e.Owned) {q : Rule} {t : RuleStore} (hq : e.rules.get ruleId = .ok (some q))
    (hid : r.id = q.id) (htenant : r.tenantId = q.tenantId) (h : e.rules.update r = .ok t) :
    t.owners = e.rules.owners := by
  obtain ⟨hqid, howner⟩ := RuleStore.owner_of_get hq
  refine RuleStore.owners_kept he.distinct ?_ h
  rw [hid, htenant, hqid]
  exact howner

/-- That an execution is counted leaves whose the rules are. -/
theorem Recounted.owners {P : Trial → Prop} {e' : Engine σ} (he : e.Owned) (h : e.Recounted P e') :
    e'.rules.owners = e.rules.owners ∧ e'.ruleIds = e.ruleIds := by
  obtain h | ⟨x, _, ⟨_, h⟩ | ⟨q, metadata, hq, _, hupdate, _, hids⟩⟩ := h
  · simp only [books, Prod.mk.injEq] at h
    exact ⟨congrArg RuleStore.owners h.1, h.2.2⟩
  · simp only [books, Prod.mk.injEq] at h
    exact ⟨congrArg RuleStore.owners h.1, h.2.2⟩
  · exact ⟨he.owners_kept (r := { q with metadata }) hq rfl rfl hupdate, hids⟩

/-- Registering the rules that are kept leaves them. -/
theorem set_up_rules (v : Environment σ) (now : Moment) :
    Leaves (fun e : Engine σ => (e.rules, e.ruleIds)) (setUp v now) := by
  have hregister : ∀ r, Leaves (fun e : Engine σ => (e.rules, e.ruleIds)) (register v now r) := fun r =>
    leaves_bind leaves_get fun _ => leaves_bind (leaves_modify fun _ => rfl) fun _ =>
      leaves_bind (leaves_modify fun _ => rfl) fun _ => leaves_lift _
  refine leaves_bind leaves_get fun _ => leaves_bind (leaves_lift _) fun rules => leaves_bind ?_ fun _ =>
    leaves_bind (leaves_modify fun _ => rfl) fun _ => leaves_pure _
  induction rules with
  | nil => exact leaves_pure ()
  | cons r rest ih => exact leaves_bind (hregister r) fun _ => ih

/-- An act leaves whose the rules are, or it creates the next one. -/
theorem act_owners (he : e.Owned) (v : Environment σ) (now : Moment) (act : Act) :
    let e' := act.apply v now e
    e'.rules.owners = e.rules.owners ∧ e.ruleIds ≤ e'.ruleIds ∨
      ∃ tenant, e'.rules.owners = e.rules.owners ++ [(identifier "rule" (e.ruleIds + 1), tenant)] ∧
        e'.ruleIds = e.ruleIds + 1 := by
  have hbooks : ∀ {e' : Engine σ}, e'.books = e.books →
      e'.rules.owners = e.rules.owners ∧ e.ruleIds ≤ e'.ruleIds := by
    intro e' h
    simp only [books, Prod.mk.injEq] at h
    exact ⟨congrArg RuleStore.owners h.1, Nat.le_of_eq h.2.2.symm⟩
  dsimp only
  cases act with
  | createRule d =>
      obtain h | ⟨r, t, hr, ht, h⟩ := create_rule_books v now e d <;>
        simp only [books, Prod.mk.injEq] at h <;> obtain ⟨hrules, _, hids⟩ := h
      · exact .inl ⟨congrArg RuleStore.owners hrules, Nat.le_trans (Nat.le_succ _) (Nat.le_of_eq hids.symm)⟩
      · cases hr
        refine .inr ⟨d.tenantId, ?_, hids⟩
        rw [show ((Act.createRule d).apply v now e).rules = t from hrules]
        exact (RuleStore.owners_of_create ht).1
  | updateRule id d tenantId =>
      obtain ⟨h, _⟩ | ⟨r, t, hr, ht, h⟩ := update_rule_books v now e id d tenantId
      · exact .inl (hbooks h)
      · simp only [books, Prod.mk.injEq] at h
        obtain ⟨hrules, _, hids⟩ := h
        cases hr with
        | @updated _ _ q d hq =>
            refine .inl ⟨?_, Nat.le_of_eq hids.symm⟩
            rw [show ((Act.updateRule id d tenantId).apply v now e).rules = t from hrules]
            exact he.owners_kept (r := redefine q d now) (owner_of_get_rule hq).1 rfl rfl ht
  | deactivateRule id tenantId =>
      obtain ⟨h, _⟩ | ⟨q, t, hq, ht, h⟩ := deactivate_rule_books now e id tenantId
      · exact .inl (hbooks h)
      · simp only [books, Prod.mk.injEq] at h
        obtain ⟨hrules, _, hids⟩ := h
        refine .inl ⟨?_, Nat.le_of_eq hids.symm⟩
        rw [show ((Act.deactivateRule id tenantId).apply v now e).rules = t from hrules]
        exact he.owners_kept (r := { q with isActive := false, updatedAt := now }) (owner_of_get_rule hq).1 rfl rfl ht
  | setUp =>
      have h := set_up_rules v now e
      simp only [Prod.mk.injEq] at h
      exact .inl ⟨congrArg RuleStore.owners h.1, Nat.le_of_eq h.2.symm⟩
  | execute id data context triggeredBy =>
      obtain ⟨howners, hids⟩ := Recounted.owners he (execute_recounted v now e id data context triggeredBy)
      exact .inl ⟨howners, Nat.le_of_eq hids.symm⟩
  | ring t =>
      obtain ⟨howners, hids⟩ := Recounted.owners he (ring_recounted v now e t)
      exact .inl ⟨howners, Nat.le_of_eq hids.symm⟩
  | cancel id tenantId => exact .inl (hbooks (leaves_cancel now id tenantId e))
  | abandon id => exact .inl (hbooks (abandon_books e id))
  | restart | schedule _ | note _ | setAlarms => exact .inl ⟨rfl, Nat.le_refl _⟩
  | poll r =>
      rw [Act.apply]
      split
      next reading hreading =>
        obtain ⟨f, _, rfl⟩ := Option.map_eq_some_iff.mp hreading
        exact .inl ⟨rfl, Nat.le_refl _⟩
      next => exact .inl ⟨rfl, Nat.le_refl _⟩

/-- An act keeps clear whose rules and executions are, and it leaves whose they were. -/
theorem act_owned (he : e.Owned) (v : Environment σ) (now : Moment) (act : Act) :
    (act.apply v now e).Owned ∧ e.rules.owners <+: (act.apply v now e).rules.owners ∧
      e.executions.trials <+: (act.apply v now e).executions.trials := by
  obtain ⟨hrecorded, htrials⟩ := act_trials he.recorded v now act
  have howners := act_owners he v now act
  have hprefix : e.rules.owners <+: (act.apply v now e).rules.owners := by
    obtain ⟨h, _⟩ | ⟨_, h, _⟩ := howners <;> rw [h]
    exact List.prefix_append _ _
  have htried : ∀ u ∈ (act.apply v now e).executions.trials, (u.ruleId, u.tenantId) ∈ e.rules.owners := by
    obtain h | ⟨q, reason, t, htries, h⟩ := htrials <;> rw [h]
    · exact he.tried
    · intro u hu
      obtain hu | hu := List.mem_append.mp hu
      · exact he.tried u hu
      · -- a new trial is for the tenant of the rule that was found
        obtain ⟨ruleId, _, _, _, _, hrule⟩ := htries.call
        obtain ⟨hid, howner⟩ := RuleStore.owner_of_get (get_of_active hrule)
        have htold := ExecutionStore.told_as htries.told
        rw [List.mem_singleton.mp hu, htold.ruleId, htold.tenantId]
        exact hid ▸ howner
  refine ⟨⟨hrecorded, ?_, ?_, fun u hu => hprefix.subset (htried u hu)⟩, hprefix, ?_⟩
  · obtain ⟨h, _⟩ | ⟨tenant, h, _⟩ := howners <;> rw [h]
    · exact he.distinct
    · refine Keyed.nodup_add he.distinct fun o ho heq => ?_
      obtain ⟨n, hn, hid⟩ := he.numbered o ho
      have hnumber := identifier_injective "rule" (hid.symm.trans heq)
      omega
  · obtain ⟨h, hids⟩ | ⟨tenant, h, hids⟩ := howners <;> rw [h]
    · exact fun o ho => (he.numbered o ho).imp fun n h => ⟨Nat.le_trans h.1 hids, h.2⟩
    · intro o ho
      obtain ho | ho := List.mem_append.mp ho
      · exact (he.numbered o ho).imp fun n h => ⟨by omega, h.2⟩
      · exact ⟨_, Nat.le_of_eq hids.symm, congrArg Prod.fst (List.mem_singleton.mp ho)⟩
  · obtain h | ⟨_, _, _, _, h⟩ := htrials <;> rw [h]
    exact List.prefix_append _ _

/-- Of a new engine it is clear whose rules and executions are: there are none. -/
theorem start_owned {rules : RuleStore} {p : ExecutionStore} (hrules : rules.owners = []) (hempty : p.IsEmpty)
    (world : σ) : (start rules p world).Owned where
  recorded := start_recorded rules hempty world
  distinct := by
    rw [show (start rules p world).rules.owners = [] from hrules]
    exact .nil
  numbered o ho := by
    rw [show (start rules p world).rules.owners = [] from hrules] at ho
    cases ho
  tried u hu := by
    rw [show (start rules p world).executions.trials = [] from hempty.trials_eq_nil] at hu
    cases hu

/-- Whatever acts follow, the rules that were kept stay those of their tenants, and so do the executions. -/
theorem after_owned (he : e.Owned) (v : Environment σ) (acts : List (Moment × Act)) :
    (e.after v acts).Owned ∧ e.rules.owners <+: (e.after v acts).rules.owners ∧
      e.executions.trials <+: (e.after v acts).executions.trials := by
  induction acts generalizing e with
  | nil => exact ⟨he, List.prefix_refl _, List.prefix_refl _⟩
  | cons act acts ih =>
      obtain ⟨howned, hrules, htrials⟩ := act_owned he v act.1 act.2
      obtain ⟨hafter, hrules', htrials'⟩ := ih howned
      exact ⟨hafter, hrules.trans hrules', htrials.trans htrials'⟩

end Rulebook.Engine
