import Rulebook.Proofs.Engine.Owner
import Rulebook.Proofs.Registry.Part

/-!
# What is done for one tenant

The share of some tenants in an engine is what it keeps of their rules and executions, with the runs that are under
way (`Engine.share`). An act that is done for a tenant spares all others (`Engine.act_spares`): their share and what
the registry holds of their rules stay as they are.
-/

namespace Rulebook

namespace Core

variable {σ : Type} {k k' : Core σ} {wanted : String → Bool} {u t : Trial} {x : Execution} {id : String}

/-- What a core holds of some tenants: their executions, and their runs, each with whether it can be cancelled. -/
def part (wanted : String → Bool) (k : Core σ) : ExecutionStore × List (Run × Bool) :=
  (k.executions.part wanted, (k.runs.filter (wanted ·.execution.tenantId)).map fun run =>
    (run, k.inFlight.contains run.execution.id))

/-- There is one trial of an identifier. -/
theorem Recorded.eq_of_id (hk : k.Recorded) (hu : u ∈ k.executions.trials) (ht : t ∈ k.executions.trials)
    (hid : u.id = t.id) : u = t :=
  List.inj_on_of_nodup_map hk.ids hu ht hid

/-- A run belongs to the tenant for whom its execution was recorded. -/
theorem Recorded.tenant_of_run (hk : k.Recorded) (ht : t ∈ k.executions.trials) {run : Run} (hrun : run ∈ k.runs)
    (hid : run.execution.id = t.id) : run.execution.tenantId = t.tenantId := by
  obtain ⟨w, hw, htold⟩ := hk.runs run hrun
  have hsame := ExecutionStore.told_as htold
  rw [← hk.eq_of_id hw ht (hsame.id.trans hid)]
  exact hsame.tenantId.symm

/-- The runs of some tenants can be cancelled as before if those that cannot be any more are not theirs. -/
theorem flags_of_ne {inFlight : List String} {runs : List Run} (h : ∀ run ∈ runs, run.execution.id ≠ id) :
    (runs.map fun run => (run, (inFlight.filter (· != id)).contains run.execution.id)) =
      runs.map fun run => (run, inFlight.contains run.execution.id) := by
  refine List.map_congr_left fun run hrun => Prod.ext rfl ?_
  have hne : (run.execution.id != id) = true := by simpa using h run hrun
  simp [List.contains_eq_mem, List.mem_filter, hne]

/-- While the execution of a trial of an unwanted tenant goes on, the part of the wanted ones stays as it is. -/
theorem Advances.part_eq (hk : k.Recorded) (ht : t ∈ k.executions.trials) (hu : k.executions.told u = .ok t)
    (hwanted : wanted u.tenantId = false) (h : k.Advances u k') : k'.part wanted = k.part wanted := by
  have htold := ExecutionStore.told_as hu
  have howner : ∀ {k' : Core σ}, k.Advances u k' → ∀ run ∈ k'.runs, run.execution.id = u.id →
      wanted run.execution.tenantId = false := by
    intro k' hadvances run hrun hid
    obtain ⟨hk', htrials, _⟩ := hadvances.recorded hk ht hu
    rw [hk'.tenant_of_run (htrials ▸ ht) hrun (hid.trans htold.id.symm), htold.tenantId, hwanted]
  induction h with
  | refl => rfl
  | @save k' x hx hadvances ih =>
      obtain ⟨hk', htrials, _⟩ := hadvances.recorded hk ht hu
      have htenant : wanted x.tenantId = false := (congrArg (wanted ·.tenantId) hx).trans hwanted
      rw [← ih]
      refine Prod.ext (ExecutionStore.part_saved (fun w hw hid => ?_) htenant) rfl
      have hwid : w.id = t.id := (hid.trans (congrArg Trial.id hx)).trans htold.id.symm
      rw [hk'.eq_of_id hw (htrials ▸ ht) hwid, htold.tenantId, hwanted]
  | @put k' run hrun hadvances ih =>
      have hruns : (k'.runs.map fun old => if old.execution.id == run.execution.id then run else old).filter
          (fun run => wanted run.execution.tenantId) = k'.runs.filter fun run => wanted run.execution.tenantId :=
        Keyed.filter_change_unwanted (fun run : Run => run.execution.id)
          (fun old hold hid => howner hadvances old hold (hid.trans (congrArg Trial.id hrun)))
          fun _ _ _ => (congrArg (wanted ·.tenantId) hrun).trans hwanted
      rw [← ih]
      exact Prod.ext rfl (congrArg (List.map _) hruns)
  | @add k' run hrun _ ih =>
      have hruns : (k'.runs ++ [run]).filter (fun run => wanted run.execution.tenantId) =
          k'.runs.filter fun run => wanted run.execution.tenantId := by
        have htenant : wanted run.execution.tenantId = false := (congrArg (wanted ·.tenantId) hrun).trans hwanted
        rw [List.filter_append, List.filter_singleton, htenant]
        exact List.append_nil _
      rw [← ih]
      exact Prod.ext rfl (congrArg (List.map _) hruns)
  | @drop k' hadvances ih =>
      have hruns : (k'.runs.filter (·.execution.id != u.id)).filter (fun run => wanted run.execution.tenantId) =
          k'.runs.filter fun run => wanted run.execution.tenantId := by
        rw [List.filter_filter]
        refine List.filter_congr fun run hrun => ?_
        by_cases hid : run.execution.id = u.id
        · simp [howner hadvances run hrun hid]
        · simp [hid]
      rw [← ih]
      exact Prod.ext rfl (congrArg (List.map _) hruns)
  | @release k' hadvances ih =>
      rw [← ih]
      refine Prod.ext rfl (flags_of_ne fun run hrun hid => ?_)
      obtain ⟨hmem, htenant⟩ := List.mem_filter.mp hrun
      rw [howner hadvances run hmem hid] at htenant
      cases htenant
  | work _ _ ih => exact ih

/-- While a run of an unwanted tenant goes on, the part of the wanted ones stays as it is. -/
theorem Advances.part_of_run {run : Run} (hk : k.Recorded) (hrun : k.run? id = some run)
    (hwanted : wanted run.execution.tenantId = false) (h : k.Advances run.execution.trial k') :
    k'.part wanted = k.part wanted := by
  obtain ⟨t, ht, htold⟩ := hk.runs run (mem_of_run hrun).1
  exact h.part_eq hk ht htold hwanted

/-- When the caller of a run of an unwanted tenant goes away, the part of the wanted ones stays as it is. -/
theorem part_of_abandon (hruns : ∀ run ∈ k.runs, run.execution.id = id → wanted run.execution.tenantId = false) :
    (k.abandon id).part wanted = k.part wanted := by
  have hne : ∀ run ∈ k.runs.filter (wanted ·.execution.tenantId), run.execution.id ≠ id := by
    intro run hrun hid
    obtain ⟨hmem, htenant⟩ := List.mem_filter.mp hrun
    rw [hruns run hmem hid] at htenant
    cases htenant
  have hrelease : (k.release id).part wanted = k.part wanted := Prod.ext rfl (flags_of_ne hne)
  rw [abandon]
  rcases (k.run? id).map Run.watch with _ | (_ | _) | _ | _
  · exact hrelease
  · have hdrop : (k.runs.filter (·.execution.id != id)).filter (fun run => wanted run.execution.tenantId) =
        k.runs.filter fun run => wanted run.execution.tenantId := by
      rw [List.filter_filter]
      refine List.filter_congr fun run hrun => ?_
      by_cases hid : run.execution.id = id
      · simp [hruns run hrun hid]
      · simp [hid]
    rw [← hrelease]
    exact Prod.ext rfl (congrArg (List.map _) hdrop)
  · have hunwatch : (k.runs.map fun run => if run.execution.id == id then { run with watch := .nobody } else run).filter
        (fun run => wanted run.execution.tenantId) = k.runs.filter fun run => wanted run.execution.tenantId :=
      Keyed.filter_change_unwanted (fun run : Run => run.execution.id) hruns hruns
    rw [← hrelease]
    exact Prod.ext rfl (congrArg (List.map _) hunwatch)
  · exact hrelease
  · exact hrelease

/-- When the record of an execution of an unwanted tenant is opened, the part of the wanted ones stays as it is,
whether the execution can be cancelled then or not. -/
theorem part_of_opened (hk : k.Recorded) (hid : x.id = identifier "exec" (k.executionIds + 1))
    (hwanted : wanted x.tenantId = false) :
    (k.opened x).part wanted = k.part wanted ∧ (k.turnedDown x).part wanted = k.part wanted := by
  have hfresh : ∀ u ∈ k.executions.trials, u.id ≠ x.id := by
    intro u hu heq
    obtain ⟨n, hn, hnumber⟩ := hk.numbered u hu
    have hnext := identifier_injective "exec" (hnumber.symm.trans (heq.trans hid))
    omega
  have hcreated : (k.executions.created x).part wanted = k.executions.part wanted :=
    ExecutionStore.part_created (fun u hu heq => absurd heq (hfresh u hu)) hwanted
  refine ⟨Prod.ext hcreated ?_, Prod.ext hcreated rfl⟩
  refine List.map_congr_left fun run hrun => Prod.ext rfl ?_
  obtain ⟨w, hw, htold⟩ := hk.runs run (List.mem_filter.mp hrun).1
  have hne : run.execution.id ≠ x.id := fun heq => hfresh w hw ((ExecutionStore.told_as htold).id.trans heq)
  simp [opened, List.contains_eq_mem, hne]

end Core

/-- An act is done for a tenant: it is about a rule, an execution or a run of the tenant, if there is one. -/
inductive Act.IsFor {σ : Type} (u : String) (e : Engine σ) : Act → Prop where
  | created (d : RuleDraft) : d.tenantId = u → IsFor u e (.createRule d)
  | updated (ruleId : String) (d : RuleDefinition) : IsFor u e (.updateRule ruleId d (some u))
  | deactivated (ruleId : String) : IsFor u e (.deactivateRule ruleId (some u))
  | executed {ruleId : String} {r : Rule} (data : Fields) (context : ExecutionContext)
      (triggeredBy : Option String) : e.getRule ruleId (some u) = .ok r →
      IsFor u e (.execute ruleId data context triggeredBy)
  | cancelled (id : String) : IsFor u e (.cancel id (some u))
  | rung (t : Timer) : (∀ run ∈ e.runs, run.execution.id = t.executionId → run.execution.tenantId = u) →
      IsFor u e (.ring t)
  | left (id : String) : (∀ run ∈ e.runs, run.execution.id = id → run.execution.tenantId = u) →
      IsFor u e (.abandon id)

namespace Engine

variable {σ : Type} {v : Environment σ} {now : Moment} {e e' : Engine σ} {u : String} {wanted : String → Bool}
  {P : Trial → Prop}

/-- The share of some tenants in an engine: their rules, their executions, and their runs. -/
def share (wanted : String → Bool) (e : Engine σ) : RuleStore × ExecutionStore × List (Run × Bool) :=
  (e.rules.part wanted, e.core.part wanted)

/-- What is done to an engine spares all tenants but one: the share of others stays as it is, and so does what the
registry holds of rules that are not the one's. -/
structure Spares (u : String) (e e' : Engine σ) : Prop where
  share : ∀ wanted : String → Bool, wanted u = false → e'.share wanted = e.share wanted
  registry : ∀ wanted : String → Bool, (∀ id, (id, u) ∈ e'.rules.owners → wanted id = false) →
    e'.registry.part wanted = e.registry.part wanted

/-- What is done to the rules of an engine and to its registry spares all tenants but one. -/
structure SparesRules (u : String) (e e' : Engine σ) : Prop where
  rules : ∀ wanted : String → Bool, wanted u = false → e'.rules.part wanted = e.rules.part wanted
  registry : ∀ wanted : String → Bool, (∀ id, (id, u) ∈ e'.rules.owners → wanted id = false) →
    e'.registry.part wanted = e.registry.part wanted

/-- All rules of an identifier are the tenant's to whom one of them belongs. -/
theorem Owned.owner_unique (he : e.Owned) {id : String} (h : (id, u) ∈ e.rules.owners) :
    ∀ o ∈ e.rules.owners, o.1 = id → o.2 = u :=
  fun _ ho hid => congrArg Prod.snd (List.inj_on_of_nodup_map he.distinct ho h hid)

/-- A rule that a tenant gets is kept, and the tenant's. -/
theorem owner_of_found {ruleId : String} {q : Rule} (h : e.getRule ruleId (some u) = .ok q) :
    e.rules.get ruleId = .ok (some q) ∧ q.id = ruleId ∧ q.tenantId = u ∧ (ruleId, u) ∈ e.rules.owners := by
  obtain ⟨hget, htenant⟩ := owner_of_get_rule h
  obtain ⟨hid, howner⟩ := RuleStore.owner_of_get hget
  have hu : q.tenantId = u := htenant u rfl
  exact ⟨hget, hid, hu, hu ▸ howner⟩

/-- What leaves the rules and the registry spares all tenants. -/
theorem SparesRules.of_catalog (h : e'.catalog = e.catalog) : e.SparesRules u e' := by
  obtain ⟨hrules, hregistry⟩ := Prod.mk.inj h
  exact ⟨fun wanted _ => by rw [hrules], fun wanted _ => by rw [hregistry]⟩

/-- A new version of a rule of the tenant spares the others. -/
theorem SparesRules.of_update (he : e.Owned) {r : Rule} (hr : (r.id, r.tenantId) ∈ e.rules.owners)
    (htenant : r.tenantId = u) (hwritten : e.rules.update r = .ok e'.rules)
    (hregistry : ∀ wanted, wanted r.id = false → e'.registry.part wanted = e.registry.part wanted) :
    e.SparesRules u e' where
  rules wanted hwanted := RuleStore.part_of_update
    (fun o ho hid => (congrArg wanted (he.owner_unique (htenant ▸ hr) o ho hid)).trans hwanted)
    ((congrArg wanted htenant).trans hwanted) hwritten
  registry wanted hwanted := by
    refine hregistry wanted (hwanted r.id ?_)
    rw [RuleStore.owners_kept he.distinct hr hwritten, ← htenant]
    exact hr

/-- That an execution of a rule of the tenant is counted spares the others. -/
theorem Recounted.spares (he : e.Owned) (hP : ∀ t, P t → (t.ruleId, u) ∈ e.rules.owners) (h : e.Recounted P e') :
    e.SparesRules u e' := by
  obtain h | ⟨x, hx, ⟨_, h⟩ | ⟨q, metadata, hq, _, hupdate, hregistry, _⟩⟩ := h
  · exact .of_catalog (catalog_of_books h)
  · exact .of_catalog (catalog_of_books h)
  · obtain ⟨hid, howner⟩ := RuleStore.owner_of_get hq
    have htenant : q.tenantId = u := he.owner_unique (hP _ hx) _ howner rfl
    have hkept : (q.id, q.tenantId) ∈ e.rules.owners := by rw [hid]; exact howner
    exact .of_update he (r := { q with metadata }) hkept htenant hupdate fun _ _ => by rw [hregistry]

/-- The trial of a run belongs to the tenant of the run, and so does its rule. -/
theorem Owned.owner_of_run (he : e.Owned) {run : Run} (hrun : run ∈ e.runs) :
    (run.execution.ruleId, run.execution.tenantId) ∈ e.rules.owners := by
  obtain ⟨w, hw, htold⟩ := he.recorded.runs run hrun
  have hsame := ExecutionStore.told_as htold
  have howner := he.tried w hw
  rwa [hsame.ruleId, hsame.tenantId] at howner

/-- An act that is done for a tenant spares the rules of all others. -/
theorem act_spares_rules (he : e.Owned) {act : Act} (hact : act.IsFor u e) (v : Environment σ) (now : Moment) :
    e.SparesRules u (act.apply v now e) := by
  cases hact with
  | created d hd =>
      obtain h | ⟨r, t, hr, ht, h⟩ := create_rule_books v now e d
      · exact .of_catalog (catalog_of_books h)
      · cases hr
        obtain ⟨hrules, hregistry⟩ := Prod.mk.inj (catalog_of_books h)
        refine ⟨fun wanted hwanted => ?_, fun wanted hwanted => ?_⟩
        · exact RuleStore.part_of_create ((congrArg wanted hd).trans hwanted) (ht.trans (congrArg Except.ok hrules.symm))
        · refine (congrArg (Registry.part · wanted) hregistry).trans (Registry.part_of_register (hwanted _ ?_) _)
          rw [show ((Act.createRule d).apply v now e).rules = t from hrules, (RuleStore.owners_of_create ht).1, ← hd]
          exact List.mem_append_right _ (List.mem_singleton_self _)
  | updated ruleId d =>
      obtain ⟨h, _⟩ | ⟨r, t, hr, ht, h⟩ := update_rule_books v now e ruleId d (some u)
      · exact .of_catalog (catalog_of_books h)
      · obtain ⟨hrules, hregistry⟩ := Prod.mk.inj (catalog_of_books h)
        cases hr with
        | @updated _ _ q d hq =>
            obtain ⟨_, hid, htenant, howner⟩ := owner_of_found hq
            have hkept : ((redefine q d now).id, (redefine q d now).tenantId) ∈ e.rules.owners := by
              show (q.id, q.tenantId) ∈ _
              rw [hid, htenant]
              exact howner
            refine .of_update he hkept htenant (ht.trans (congrArg Except.ok hrules.symm)) fun wanted hwanted => ?_
            exact (congrArg (Registry.part · wanted) hregistry).trans (Registry.part_of_register hwanted _)
  | deactivated ruleId =>
      obtain ⟨h, _⟩ | ⟨q, t, hq, ht, h⟩ := deactivate_rule_books now e ruleId (some u)
      · exact .of_catalog (catalog_of_books h)
      · obtain ⟨hrules, hregistry⟩ := Prod.mk.inj (catalog_of_books h)
        obtain ⟨_, hid, htenant, howner⟩ := owner_of_found hq
        have hkept : (q.id, q.tenantId) ∈ e.rules.owners := by
          rw [hid, htenant]
          exact howner
        refine .of_update he (r := { q with isActive := false, updatedAt := now }) hkept htenant
          (ht.trans (congrArg Except.ok hrules.symm)) fun wanted hwanted => ?_
        exact (congrArg (Registry.part · wanted) hregistry).trans (Registry.part_of_unregister hwanted _)
  | @executed ruleId r data context triggeredBy hr =>
      refine Recounted.spares he (fun t ht => ?_) (execute_recounted v now e ruleId data context triggeredBy)
      obtain ⟨q, hq, rfl⟩ := ht
      obtain ⟨hget, hid, htenant, howner⟩ := owner_of_found hr
      obtain rfl := Option.some.inj (Except.ok.inj (hget.symm.trans (get_of_active hq)))
      exact hid.symm ▸ howner
  | cancelled id => exact .of_catalog (catalog_of_books (leaves_cancel now id (some u) e))
  | rung t hruns =>
      refine Recounted.spares he (fun w hw => ?_) (ring_recounted v now e t)
      obtain ⟨run, hrun, rfl⟩ := hw
      obtain ⟨hmem, hid⟩ := Core.mem_of_run (k := e.core) hrun
      have howner := he.owner_of_run hmem
      rwa [hruns run hmem hid] at howner
  | left id _ => exact .of_catalog (catalog_of_books (abandon_books e id))

/-- An act that is done for a tenant leaves what the core holds of others. -/
theorem act_part (he : e.Owned) {act : Act} (hact : act.IsFor u e) (v : Environment σ) (now : Moment)
    (hwanted : wanted u = false) : (act.apply v now e).core.part wanted = e.core.part wanted := by
  have hk := he.recorded
  cases hact with
  | created d _ => exact congrArg (Core.part wanted) (leaves_create_rule v now d e)
  | updated ruleId d => exact congrArg (Core.part wanted) (leaves_update_rule v now ruleId d (some u) e)
  | deactivated ruleId => exact congrArg (Core.part wanted) (leaves_deactivate_rule now ruleId (some u) e)
  | @executed ruleId q data context triggeredBy hq =>
      obtain ⟨hget, _, htenant, _⟩ := owner_of_found hq
      have hu : ∀ {r}, e.activeRule ruleId = .ok r → wanted r.tenantId = false := by
        intro r hr
        obtain rfl := Option.some.inj (Except.ok.inj (hget.symm.trans (get_of_active hr)))
        exact (congrArg wanted htenant).trans hwanted
      show (e.execute v now ruleId data context triggeredBy).1.core.part wanted = _
      obtain ⟨_, h⟩ | h | ⟨r, reason, hr, _, h⟩ | ⟨r, x, t, hr, _, rfl, hcreate, h⟩ :=
        e.execute_core v now ruleId data context triggeredBy <;> rw [h]
      · rfl
      · have horigin := (Execution.precedes_move_to (pending r e.nextExecution now data context triggeredBy) now
          (some reason.message) (rfl : ExecutionStatus.isTerminal .failed = true)).origin
        exact (Core.part_of_opened (x := .refused r e.nextExecution now data context triggeredBy reason) hk
          (congrArg (·.1) horigin) ((congrArg (wanted ·.2.2.1) horigin).trans (hu hr))).2
      · obtain ⟨w, hw, htrials, ⟨w', hw', htold⟩, hrecorded⟩ := Core.created_trials hk rfl hcreate
          (e.core.opened _) (ExecutionStore.created_eq hcreate) rfl rfl
        refine ((Core.launch_advances _ v now r _ _).part_eq hrecorded hw' htold (hu hr)).trans ?_
        exact (Core.part_of_opened hk rfl (hu hr)).1
  | cancelled id =>
      show (e.perform (cancel now id (some u))).1.core.part wanted = _
      rw [cancel_core]
      cases hrun : e.core.run? id with
      | none => rw [Core.cancel, hrun]
      | some run =>
          by_cases htenant : run.execution.tenantId = u
          · exact (Core.cancel_advances hrun now (some u)).part_of_run hk hrun
              ((congrArg wanted htenant).trans hwanted)
          · have hne : (u == run.execution.tenantId) = false := beq_false_of_ne (Ne.symm htenant)
            rw [Core.cancel, hrun]
            cases e.core.inFlight.contains id with
            | false => rfl
            | true =>
                dsimp only
                rw [if_neg (by simp [hne])]
  | rung t hruns =>
      obtain ⟨run, hrun, h⟩ | ⟨_, h⟩ := ring_advances e v now t
      · obtain ⟨hmem, hid⟩ := Core.mem_of_run hrun
        exact h.part_of_run hk hrun ((congrArg wanted (hruns run hmem hid)).trans hwanted)
      · exact congrArg (Core.part wanted) h
  | left id hruns =>
      refine (congrArg (Core.part wanted) (abandon_core e id)).trans (Core.part_of_abandon fun run hrun hid => ?_)
      exact (congrArg wanted (hruns run hrun hid)).trans hwanted

/-- An act that is done for a tenant spares all others. -/
theorem act_spares (he : e.Owned) {act : Act} (hact : act.IsFor u e) (v : Environment σ) (now : Moment) :
    e.Spares u (act.apply v now e) where
  share wanted hwanted := Prod.ext ((act_spares_rules he hact v now).rules wanted hwanted)
    (act_part he hact v now hwanted)
  registry := (act_spares_rules he hact v now).registry

end Engine

end Rulebook
