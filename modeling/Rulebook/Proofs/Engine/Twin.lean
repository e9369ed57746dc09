import Rulebook.Proofs.Engine.Computation
import Rulebook.Proofs.Engine.Share
import Rulebook.Proofs.Store.Kept
import Rulebook.Proofs.Store.Namesake

/-!
# Two engines that are the same to a tenant

Computations on two engines agree (`Engine.Couples`) if both fail in the same way, or what they leave and give is
related. They agree if they do step by step (`Engine.couples_bind`).

Two engines may differ in what they hold of others and in the identifier of an execution that was begun in both for
one tenant (`Engine.Twins`). What is done with the execution comes out the same in both, but for the identifier:
its record is closed (`Engine.couples_close_record`), it is carried out (`Engine.couples_carry_out`), and its alarms
ring (`Engine.ring_twins`).
-/

namespace Rulebook

/-! ### Two computations side by side -/

/-- Two outcomes agree if both are the same failure, or both are results of which `R` holds. -/
inductive Outcome.Agree {α β : Type} (R : α → β → Prop) : Outcome α → Outcome β → Prop where
  | failed (f : Failure) : Agree R (.error f) (.error f)
  | gave {a : α} {b : β} : R a b → Agree R (.ok a) (.ok b)

/-- The same outcome agrees with itself. -/
theorem Outcome.Agree.of_eq {α : Type} {r s : Outcome α} (h : r = s) : Agree Eq r s := by
  subst h
  cases r with
  | error f => exact .failed f
  | ok a => exact .gave rfl

namespace Engine

variable {σ α β γ δ : Type}

/-- Two computations on engines of which `T` holds agree: both fail in the same way, or `U` holds of the engines then
and `R` of the results. -/
def Couples (T U : Engine σ → Engine σ → Prop) (R : α → β → Prop) (m : EngineM σ α) (m' : EngineM σ β) : Prop :=
  ∀ e e', T e e' → Outcome.Agree (fun a b => U (e.perform m).1 (e'.perform m').1 ∧ R a b)
    (e.perform m).2 (e'.perform m').2

section Couples

variable {T U V : Engine σ → Engine σ → Prop} {R : α → β → Prop} {S : γ → δ → Prop}

/-- Computations that only answer agree if the answers do. -/
theorem couples_pure {a : α} {b : β} (h : R a b) : Couples T T R (pure a) (pure b) :=
  fun _ _ he => .gave ⟨he, h⟩

/-- A failure agrees with itself. -/
theorem couples_throw (f : Failure) : Couples T U R (throw f) (throw f) := fun _ _ _ => .failed f

/-- Looks at the engines agree. -/
theorem couples_get : Couples T T T get get := fun _ _ he => .gave ⟨he, he⟩

/-- Computations that only may fail agree if their outcomes do. -/
theorem couples_lift {r : Outcome α} {s : Outcome β} (h : Outcome.Agree R r s) : Couples T T R (lift r) (lift s) := by
  intro e e' he
  rw [perform_lift, perform_lift]
  cases h with
  | failed f => exact .failed f
  | gave h => exact .gave ⟨he, h⟩

/-- Changes of the engines agree if `U` holds after them. -/
theorem couples_modify {f g : Engine σ → Engine σ} (h : ∀ e e', T e e' → U (f e) (g e')) :
    Couples T U (fun _ _ => True) (modify f) (modify g) :=
  fun e e' he => .gave ⟨h e e' he, trivial⟩

/-- Changes of the engines agree if nothing is asked of the engines any more. -/
theorem couples_ignore (f g : Engine σ → Engine σ) :
    Couples T (fun _ _ => True) (fun _ _ => True) (modify f) (modify g) := couples_modify fun _ _ _ => trivial

/-- Computations agree if they agree step by step. -/
theorem couples_bind {m : EngineM σ α} {m' : EngineM σ β} {f : α → EngineM σ γ} {g : β → EngineM σ δ}
    (hm : Couples T U R m m') (hf : ∀ a b, R a b → Couples U V S (f a) (g b)) : Couples T V S (m >>= f) (m' >>= g) := by
  intro e e' he
  have hagree := hm e e' he
  rw [perform_bind, perform_bind]
  rcases hp : e.perform m with ⟨d, r⟩
  rcases hp' : e'.perform m' with ⟨d', r'⟩
  rw [hp, hp'] at hagree
  cases hagree with
  | failed f => exact .failed f
  | gave h => exact hf _ _ h.2 d d' h.1

/-- Computations that agree with equal results have equal outcomes. -/
theorem Couples.outcome_eq {m m' : EngineM σ α} (h : Couples T U Eq m m') {e e' : Engine σ} (he : T e e') :
    (e'.perform m').2 = (e.perform m).2 := by
  have hagree := h e e' he
  generalize (e.perform m).2 = r at hagree
  generalize (e'.perform m').2 = r' at hagree
  cases hagree with
  | failed f => rfl
  | gave h => exact congrArg Except.ok h.2.symm

end Couples

end Engine

/-! ### Executions in two engines -/

/-- An execution is that of an identifier, of a rule and its tenant. -/
structure Execution.IsOf (u ruleId id : String) (x : Execution) : Prop where
  id : x.id = id
  ruleId : x.ruleId = ruleId
  tenantId : x.tenantId = u

/-- What comes from where an execution comes from is of the same rule. -/
theorem Execution.IsOf.of_origin {u ruleId id : String} {x y : Execution} (h : x.IsOf u ruleId id)
    (horigin : y.origin = x.origin) : y.IsOf u ruleId id where
  id := (congrArg (·.1) horigin).trans h.id
  ruleId := (congrArg (·.2.1) horigin).trans h.ruleId
  tenantId := (congrArg (·.2.2.1) horigin).trans h.tenantId

/-- The run of an execution under another identifier. -/
def Run.named (id : String) (run : Run) : Run := { run with execution := run.execution.named id }

/-- What is read of an entry belongs to the tenant of the entry. -/
theorem StoreEntry.tenant_of_read {n : StoreEntry} {x : Execution} (h : n.read = .ok x) : x.tenantId = n.tenantId := by
  cases n with
  | execution y =>
      obtain rfl := Except.ok.inj h
      rfl
  | row r =>
      obtain ⟨_, _, rfl⟩ := ExecutionRow.to_execution_eq_ok.mp h
      rfl

/-- A new version of a rule of wanted tenants is taken in the same way by stores that keep the same rules of them. -/
theorem RuleStore.update_agrees {s s' : RuleStore} {r : Rule} {wanted : String → Bool}
    (hpart : s'.part wanted = s.part wanted) (hold : ∀ o ∈ s.owners, o.1 = r.id → wanted o.2 = true)
    (hold' : ∀ o ∈ s'.owners, o.1 = r.id → wanted o.2 = true) (hnew : wanted r.tenantId = true) :
    Outcome.Agree (fun t t' => t'.part wanted = t.part wanted ∧ s.update r = .ok t ∧ s'.update r = .ok t')
      (s.update r) (s'.update r) := by
  have hsame := (update_part hold hnew).symm.trans ((congrArg (·.update r) hpart.symm).trans (update_part hold' hnew))
  rcases h : s.update r with f | t <;> rcases h' : s'.update r with f' | t' <;> rw [h, h'] at hsame
  · obtain rfl : f = f' := Except.error.inj hsame
    exact .failed f
  · cases hsame
  · cases hsame
  · exact .gave ⟨(Except.ok.inj hsame).symm, rfl, rfl⟩

namespace Engine

variable {σ : Type} {s : Services σ} {now : Moment} {e e' d d' : Engine σ} {u ruleId id id' : String} {x : Execution}
  {r : Rule}

/-- Two engines are the same to a tenant, but for the identifier of an execution of one of the tenant's rules. -/
structure Twins (u ruleId id id' : String) (e e' : Engine σ) : Prop where
  rules : e'.rules.part (· == u) = e.rules.part (· == u)
  owner : (ruleId, u) ∈ e.rules.owners
  distinct : (e.rules.owners.map (·.1)).Nodup
  distinct' : (e'.rules.owners.map (·.1)).Nodup
  executions : ExecutionStore.Namesakes id id' e.executions e'.executions
  entry : ∃ n, e.executions.entryAt id = some n ∧ n.tenantId = u
  run : e'.run? id' = (e.run? id).map (Run.named id')
  mine : ∀ run, e.run? id = some run → run.execution.IsOf u ruleId id
  world : e'.world = e.world

namespace Twins

/-- The rule of the execution is the tenant's in the other engine, too. -/
theorem owner' (h : Twins u ruleId id id' e e') : (ruleId, u) ∈ e'.rules.owners := by
  have hmem : (ruleId, u) ∈ (e.rules.part (· == u)).owners := by
    rw [RuleStore.owners_part]
    exact List.mem_filter.mpr ⟨h.owner, beq_self_eq_true u⟩
  rw [← h.rules, RuleStore.owners_part] at hmem
  exact (List.mem_filter.mp hmem).1

/-- The rule of the execution is nobody else's in both engines. -/
theorem owners (h : Twins u ruleId id id' e e') :
    (∀ o ∈ e.rules.owners, o.1 = ruleId → o.2 = u) ∧ ∀ o ∈ e'.rules.owners, o.1 = ruleId → o.2 = u :=
  ⟨fun _ ho hid => congrArg Prod.snd (List.inj_on_of_nodup_map h.distinct ho h.owner hid),
    fun _ ho hid => congrArg Prod.snd (List.inj_on_of_nodup_map h.distinct' ho h.owner' hid)⟩

/-- The rule of the execution is found alike in both engines, and it is the tenant's. -/
theorem get_rule (h : Twins u ruleId id id' e e') :
    e.rules.get ruleId = e'.rules.get ruleId ∧
      ∀ r, e.rules.get ruleId = .ok (some r) → r.id = ruleId ∧ r.tenantId = u := by
  obtain ⟨howner, howner'⟩ := h.owners
  have hpart : ∀ {s : RuleStore}, (∀ o ∈ s.owners, o.1 = ruleId → o.2 = u) →
      (s.part (· == u)).get ruleId = s.get ruleId := fun h =>
    RuleStore.get_part fun o ho hid => beq_iff_eq.mpr (h o ho hid)
  refine ⟨?_, fun r hr => ?_⟩
  · rw [← hpart howner, ← h.rules, hpart howner']
  · obtain ⟨hid, hmem⟩ := RuleStore.owner_of_get hr
    exact ⟨hid, howner _ hmem rfl⟩

/-- Both engines can write a version of the execution, or neither can. -/
theorem agree_of_update (h : Twins u ruleId id id' e e') (hx : x.IsOf u ruleId id) :
    Outcome.Agree (fun t t' => ExecutionStore.Namesakes id id' t t' ∧ ∃ m, t.entryAt id = some m ∧ m.tenantId = u)
      (e.executions.update x) (e'.executions.update (x.named id')) := by
  obtain ⟨n, hentry, _⟩ := h.entry
  obtain ⟨f, hf, hf'⟩ | ⟨m, t, t', hm, ht, ht', hsame, hfound⟩ := h.executions.update hx.id hentry
  · rw [hf, hf']
    exact .failed f
  · rw [ht, ht']
    exact .gave ⟨hsame, m, hfound, (StoreEntry.of_kept hm).tenant.trans hx.tenantId⟩

end Twins

/-- What a tenant does not see of two engines can change in any way. -/
theorem couples_unseen {f g : Engine σ → Engine σ}
    (h : ∀ e e', Twins u ruleId id id' e e' → Twins u ruleId id id' (f e) (g e')) :
    Couples (Twins u ruleId id id') (Twins u ruleId id id') (fun _ _ => True) (modify f) (modify g) :=
  couples_modify h

/-- A version of the execution is written in both engines or in none. -/
theorem couples_save_execution (hx : x.IsOf u ruleId id) : Couples (Twins (σ := σ) u ruleId id id')
    (Twins u ruleId id id') (fun _ _ => True) (saveExecution x) (saveExecution (x.named id')) := by
  refine couples_bind couples_get fun e e' h => ?_
  exact couples_bind (couples_lift (h.agree_of_update hx)) fun t t' ht => couples_modify fun _ _ h =>
    { h with executions := ht.1, entry := ht.2 }

/-- A version of the rule of the execution is written in both engines or in none. -/
theorem couples_save_rule (hid : r.id = ruleId) (htenant : r.tenantId = u) : Couples (Twins (σ := σ) u ruleId id id')
    (Twins u ruleId id id') (fun _ _ => True) (saveRule r) (saveRule r) := by
  refine couples_bind couples_get fun e e' h => ?_
  obtain ⟨howner, howner'⟩ := h.owners
  have hupdate := RuleStore.update_agrees (r := r) h.rules
    (fun o ho heq => beq_iff_eq.mpr (howner o ho (heq.trans hid)))
    (fun o ho heq => beq_iff_eq.mpr (howner' o ho (heq.trans hid))) (beq_iff_eq.mpr htenant)
  refine couples_bind (couples_lift hupdate) fun t t' ht => couples_modify fun _ _ h' => ?_
  obtain ⟨hrules, ht, ht'⟩ := ht
  have hkept := RuleStore.owners_kept h.distinct (by rw [hid, htenant]; exact h.owner) ht
  have hkept' := RuleStore.owners_kept h.distinct' (by rw [hid, htenant]; exact h.owner') ht'
  exact { h' with
    rules := hrules
    owner := hkept.symm ▸ h.owner
    distinct := hkept.symm ▸ h.distinct
    distinct' := hkept'.symm ▸ h.distinct' }

/-- An execution is counted in its rule in both engines or in none. -/
theorem couples_record_outcome (hx : x.IsOf u ruleId id) : Couples (Twins (σ := σ) u ruleId id id')
    (Twins u ruleId id id') (fun _ _ => True) (recordOutcome x) (recordOutcome (x.named id')) := by
  refine couples_bind couples_get fun e e' h => ?_
  obtain ⟨hsame, hfound⟩ := h.get_rule
  have hget : Outcome.Agree (fun q q' => q = q' ∧ ∀ r, q = some r → r.id = ruleId ∧ r.tenantId = u)
      (e.rules.get x.ruleId) (e'.rules.get (x.named id').ruleId) := by
    rw [show (x.named id').ruleId = x.ruleId from rfl, hx.ruleId, ← hsame]
    cases hq : e.rules.get ruleId with
    | error f => exact .failed f
    | ok q => exact .gave ⟨rfl, fun r hr => hfound r (hq.trans (congrArg Except.ok hr))⟩
  refine couples_bind (couples_lift hget) fun q q' hq => ?_
  obtain ⟨rfl, hmine⟩ := hq
  cases q with
  | none => exact couples_pure trivial
  | some r =>
      obtain ⟨hid, htenant⟩ := hmine r rfl
      refine couples_bind (couples_lift (.of_eq rfl)) fun metadata metadata' hmetadata => ?_
      subst hmetadata
      exact couples_save_rule hid htenant

/-- The record of the execution is closed in both engines or in none. -/
theorem couples_close_record (hx : x.IsOf u ruleId id) : Couples (Twins (σ := σ) u ruleId id id')
    (Twins u ruleId id id') (fun a b => a = id ∧ b = id') (closeRecord x) (closeRecord (x.named id')) :=
  couples_bind (couples_unseen fun _ _ h => { h with }) fun _ _ _ =>
    couples_bind (couples_save_execution hx) fun _ _ _ =>
      couples_bind (couples_record_outcome hx) fun _ _ _ =>
        couples_bind (couples_unseen fun _ _ h => { h with }) fun _ _ _ => couples_pure ⟨hx.id, rfl⟩

/-- Two calls go on alike. -/
inductive Launched (id id' : String) : Launch → Launch → Prop where
  | ended : Launched id id' (.ended (.ok id)) (.ended (.ok id'))
  | underway : Launched id id' (.underway id) (.underway id')

/-- The record of the execution is closed in both engines or in none, which ends the call. -/
theorem couples_ended (hx : x.IsOf u ruleId id) : Couples (Twins (σ := σ) u ruleId id id')
    (Twins u ruleId id id') (Launched id id') (closeRecord x >>= fun id => pure (.ended (.ok id)))
    (closeRecord (x.named id') >>= fun id => pure (.ended (.ok id))) := by
  refine couples_bind (couples_close_record hx) fun a b h => ?_
  obtain ⟨rfl, rfl⟩ := h
  exact couples_pure .ended

/-- The execution fails in both engines. -/
theorem couples_crash (hx : x.IsOf u ruleId id) (f : NumberFault) : Couples (Twins (σ := σ) u ruleId id id')
    (Twins u ruleId id id') (Launched id id') (crash x now (.number f)) (crash (x.named id') now (.number f)) := by
  have hcrashed : (x.crashed now f).IsOf u ruleId id := hx.of_origin (x.precedes_move_to now _ rfl).origin
  have hsave := @couples_save_execution σ u ruleId id id' _ hcrashed
  rw [← Execution.crashed_named] at hsave
  exact couples_bind (couples_unseen fun _ _ h => { h with }) fun _ _ _ => couples_bind hsave fun _ _ _ =>
    couples_bind (couples_unseen fun _ _ h => { h with }) fun _ _ _ => couples_throw _

/-! ### Runs of the execution -/

/-- A run of the execution is added in both engines. -/
theorem couples_add_run {run : Run} (hrun : run.execution.IsOf u ruleId id) : Couples (Twins (σ := σ) u ruleId id id')
    (Twins u ruleId id id') (fun _ _ => True) (modify fun e => { e with runs := e.runs ++ [run] })
    (modify fun e => { e with runs := e.runs ++ [run.named id'] }) := by
  refine couples_modify fun e e' h => { h with run := ?_, mine := fun other hother => ?_ }
  · have hfound : [run].find? (·.execution.id == id) = some run := by simp [hrun.id]
    have hfound' : [run.named id'].find? (·.execution.id == id') = some (run.named id') := by
      simp [Run.named, Execution.named]
    show (e'.runs ++ [run.named id']).find? _ = ((e.runs ++ [run]).find? _).map _
    rw [List.find?_append, List.find?_append, hfound, hfound', ← run?, h.run, ← run?]
    cases e.run? id <;> rfl
  · change (e.runs ++ [run]).find? _ = some other at hother
    rw [List.find?_append, ← run?] at hother
    obtain hold | ⟨_, hnew⟩ := Option.or_eq_some_iff.mp hother
    · exact h.mine other hold
    · obtain rfl := List.mem_singleton.mp (List.mem_of_find?_eq_some hnew)
      exact hrun

/-- The run of the execution is dropped in both engines. -/
theorem couples_drop_run : Couples (Twins (σ := σ) u ruleId id id') (Twins u ruleId id id') (fun _ _ => True)
    (dropRun id) (dropRun id') := by
  refine couples_modify fun e e' h => ?_
  have hdrop : (e.runs.filter (·.execution.id != id)).find? (·.execution.id == id) = none :=
    Keyed.find_drop_self (fun run : Run => run.execution.id) e.runs
  have hdrop' : (e'.runs.filter (·.execution.id != id')).find? (·.execution.id == id') = none :=
    Keyed.find_drop_self (fun run : Run => run.execution.id) e'.runs
  exact { h with
    run := hdrop'.trans (congrArg (Option.map (Run.named id')) hdrop).symm
    mine := fun run hrun => by cases hdrop.symm.trans hrun }

/-- The run of the execution is replaced in both engines. -/
theorem couples_put_run {run : Run} (hrun : run.execution.IsOf u ruleId id) : Couples (Twins (σ := σ) u ruleId id id')
    (Twins u ruleId id id') (fun _ _ => True) (putRun run) (putRun (run.named id')) := by
  have hid := hrun.id
  subst hid
  refine couples_modify fun e e' h => ?_
  have hput : ∀ (runs : List Run) (new : Run),
      (runs.map fun old => if old.execution.id == new.execution.id then new else old).find?
          (·.execution.id == new.execution.id) =
        (runs.find? (·.execution.id == new.execution.id)).map fun _ => new := fun runs new =>
    Keyed.find_change_self (fun run : Run => run.execution.id) (fun _ _ => rfl) runs
  refine { h with
    run := (hput e'.runs (run.named id')).trans ?_
    mine := fun other hother => ?_ }
  · show (e'.run? id').map _ = Option.map _ ((e.runs.map _).find? _)
    rw [h.run, hput e.runs run, ← run?]
    cases e.run? run.execution.id <;> rfl
  · obtain ⟨_, _, rfl⟩ := Option.map_eq_some_iff.mp ((hput e.runs run).symm.trans hother)
    exact hrun

/-- The end of the execution is recorded in both engines or in none if nobody waits for it. -/
theorem couples_record_late (hx : x.IsOf u ruleId id) : Couples (Twins (σ := σ) u ruleId id id')
    (Twins u ruleId id id') (fun _ _ => True) (recordLate x) (recordLate (x.named id')) := by
  refine couples_bind couples_get fun e e' h => ?_
  have hagree := h.agree_of_update hx
  generalize e.executions.update x = r, e'.executions.update (x.named id') = r' at hagree ⊢
  cases hagree with
  | failed f => exact couples_pure trivial
  | gave ht => exact couples_modify fun _ _ h => { h with executions := ht.1, entry := ht.2 }

/-- The actions of the execution are run alike in both engines. -/
theorem couples_run_phase (hx : x.IsOf u ruleId id) : Couples (Twins (σ := σ) u ruleId id id')
    (Twins u ruleId id id') (Launched id id') (runPhase s.environment now r x)
    (runPhase s.environment now r (x.named id')) := by
  refine couples_bind (couples_unseen fun _ _ h => { h with }) fun _ _ _ => couples_bind couples_get fun e e' h => ?_
  have hbegin : Course.Namesake id' ⟨e.world, x, []⟩ ⟨e'.world, x.named id', []⟩ := ⟨h.world, rfl⟩
  obtain ⟨hcourse, hend⟩ := s.run_actions_named now r hbegin
  have horigin := s.environment.run_actions_origin now r ⟨e.world, x, []⟩
  rcases hc : s.environment.runActions now r ⟨e.world, x, []⟩ with ⟨c, ended⟩
  rcases hd : s.environment.runActions now r ⟨e'.world, x.named id', []⟩ with ⟨d, ended'⟩
  rw [hc, hd] at hcourse hend
  rw [hc] at horigin
  obtain ⟨world, _, _⟩ := d
  obtain ⟨rfl, rfl⟩ := hcourse
  obtain rfl : ended' = ended := hend
  have hmine : c.execution.IsOf u ruleId id := hx.of_origin horigin
  refine couples_bind (couples_modify fun _ _ he => { he with world := rfl }) fun _ _ _ =>
    couples_bind (couples_unseen fun _ _ h => { h with }) fun _ _ _ => ?_
  cases ended' with
  | done =>
      have hclose := @couples_ended σ u ruleId id id' _ (hmine.of_origin (c.execution.precedes_close now).origin)
      rwa [← Execution.close_named] at hclose
  | waits p =>
      refine couples_bind (couples_unseen fun _ _ h => { h with }) fun _ _ _ =>
        couples_bind (@couples_add_run σ u ruleId id id' ⟨r, c.execution, p, .caller (isTimed r)⟩ hmine) fun _ _ _ => ?_
      rw [hx.id]
      exact couples_pure .underway

/-- The execution is carried out alike in both engines. -/
theorem couples_carry_out (hx : x.IsOf u ruleId id) : Couples (Twins (σ := σ) u ruleId id id')
    (Twins u ruleId id id') (Launched id id') (carryOut s.environment now r x)
    (carryOut s.environment now r (x.named id')) := by
  refine couples_bind (couples_unseen fun _ _ h => { h with }) fun _ _ _ => ?_
  rw [show (x.named id').seen = x.seen from rfl]
  rcases Condition.allHold r.conditions x.seen with f | _ | _
  · exact couples_crash hx f
  · have horigin : (x.unmet now).origin = x.origin := (Execution.precedes_move_to _ now none rfl).origin
    have hended := @couples_ended σ u ruleId id id' _ (hx.of_origin horigin)
    rwa [← Execution.unmet_named] at hended
  · exact couples_run_phase hx

/-! ### Alarms of the execution -/

/-- Two alarms end calls alike, if they end any. -/
inductive Returned (id id' : String) : Option String → Option String → Prop where
  | goes : Returned id id' none none
  | ended : Returned id id' (some id) (some id')

/-- The record of the execution is closed in both engines or in none, which ends the call of its caller. -/
theorem couples_returned (hx : x.IsOf u ruleId id) : Couples (Twins (σ := σ) u ruleId id id')
    (Twins u ruleId id id') (Returned id id') (closeRecord x >>= fun id => pure (some id))
    (closeRecord (x.named id') >>= fun id => pure (some id)) := by
  refine couples_bind (couples_close_record hx) fun a b h => ?_
  obtain ⟨rfl, rfl⟩ := h
  exact couples_pure .ended

/-- The execution goes on alike in both engines. -/
theorem couples_go_on (lane : Nat) : Couples (Twins (σ := σ) u ruleId id id') (Twins u ruleId id id')
    (Returned id id') (goOn s.environment now id lane) (goOn s.environment now id' lane) := by
  refine couples_bind couples_get fun e e' h => ?_
  have hrun := h.run
  cases hr : e.run? id with
  | none =>
      rw [hr] at hrun
      rw [hrun]
      exact couples_pure .goes
  | some run =>
      rw [hr] at hrun
      rw [hrun]
      refine couples_bind couples_get fun d d' hd => ?_
      have hbegin : Course.Namesake id' ⟨d.world, run.execution, []⟩ ⟨d'.world, (run.named id').execution, []⟩ :=
        ⟨hd.world, rfl⟩
      obtain ⟨hcourse, hend⟩ := s.resume_actions_named now run.rule lane run.phase hbegin
      have horigin := s.environment.resume_actions_origin now run.rule lane run.phase ⟨d.world, run.execution, []⟩
      rcases hc : s.environment.resumeActions now run.rule lane run.phase ⟨d.world, run.execution, []⟩ with ⟨c, ended⟩
      rcases hc' : s.environment.resumeActions now (run.named id').rule lane (run.named id').phase
        ⟨d'.world, (run.named id').execution, []⟩ with ⟨c', ended'⟩
      rw [show (run.named id').rule = run.rule from rfl, show (run.named id').phase = run.phase from rfl] at hc'
      rw [hc, hc'] at hcourse hend
      rw [hc] at horigin
      obtain ⟨world, _, _⟩ := c'
      obtain ⟨rfl, rfl⟩ := hcourse
      obtain rfl : ended' = ended := hend
      have hmine : c.execution.IsOf u ruleId id := (h.mine run hr).of_origin horigin
      refine couples_bind (couples_modify fun _ _ he => { he with world := rfl }) fun _ _ _ =>
        couples_bind (couples_unseen fun _ _ h => { h with }) fun _ _ _ => ?_
      rw [show (run.named id').watch = run.watch from rfl]
      rcases ended' with _ | p
      · rcases run.watch with timed | _ | _
        · have hclose := @couples_returned σ u ruleId id id' _
            (hmine.of_origin (c.execution.precedes_close now).origin)
          rw [← Execution.close_named] at hclose
          exact couples_bind couples_drop_run fun _ _ _ => hclose
        · exact couples_bind couples_drop_run fun _ _ _ => couples_bind (couples_record_late hmine) fun _ _ _ =>
            couples_pure .goes
        · exact couples_bind couples_drop_run fun _ _ _ => couples_pure .goes
      · rcases run.watch with timed | _ | _ <;>
          exact couples_bind (couples_unseen fun _ _ h => { h with }) fun _ _ _ =>
            couples_bind (@couples_put_run σ u ruleId id id' ⟨run.rule, c.execution, p, _⟩ hmine)
              fun _ _ _ => couples_pure .goes

/-- The time of the execution runs out alike in both engines. -/
theorem couples_time_out : Couples (Twins (σ := σ) u ruleId id id') (Twins u ruleId id id') (Returned id id')
    (timeOut now id) (timeOut now id') := by
  refine couples_bind couples_get fun e e' h => ?_
  have hrun := h.run
  cases hr : e.run? id with
  | none =>
      rw [hr] at hrun
      rw [hrun]
      exact couples_pure .goes
  | some run =>
      rw [hr] at hrun
      rw [hrun]
      dsimp only [Option.map_some]
      rw [show (run.named id').watch = run.watch from rfl]
      have hexpired : (run.execution.expired run.rule now).IsOf u ruleId id :=
        (h.mine run hr).of_origin (Execution.precedes_expired run.execution run.rule now).origin
      have hnamed := Execution.expired_named run.execution id' now run.rule
      rcases run.watch with (_ | _) | _ | _
      · exact couples_pure .goes
      · have hclose := @couples_returned σ u ruleId id id' _ hexpired
        have hput := @couples_put_run σ u ruleId id id'
          ⟨run.rule, run.execution.expired run.rule now, run.phase, .late⟩ hexpired
        rw [Run.named] at hput
        rw [← hnamed] at hclose hput
        exact couples_bind hput fun _ _ _ => hclose
      · exact couples_pure .goes
      · exact couples_pure .goes

/-- What an alarm of the execution does in both engines, and how it ends the calls. -/
inductive Rings (u ruleId id id' : String) :
    Engine σ × Option (String × Outcome String) → Engine σ × Option (String × Outcome String) → Prop where
  | goes {a b : Engine σ} : Twins u ruleId id id' a b → Rings u ruleId id id' (a, none) (b, none)
  | ended {a b : Engine σ} : Twins u ruleId id id' a b →
      Rings u ruleId id id' (a, some (id, .ok id)) (b, some (id', .ok id'))
  | failed {a b : Engine σ} (f : Failure) : Rings u ruleId id id' (a, some (id, .error f)) (b, some (id', .error f))

/-- How the call of an execution ends if a computation for one of its alarms comes out so. -/
def ending (id : String) : Engine σ × Outcome (Option String) → Engine σ × Option (String × Outcome String)
  | (e, .ok none) => (e, none)
  | (e, .ok (some a)) => (e, some (id, .ok a))
  | (e, .error f) => (e, some (id, .error f))

/-- Calls end alike if the computations for their alarms agree. -/
theorem Rings.of_agree {p p' : Engine σ × Outcome (Option String)}
    (h : Outcome.Agree (fun a b => Twins u ruleId id id' p.1 p'.1 ∧ Returned id id' a b) p.2 p'.2) :
    Rings u ruleId id id' (ending id p) (ending id' p') := by
  obtain ⟨a, r⟩ := p
  obtain ⟨b, r'⟩ := p'
  cases h with
  | failed f => exact .failed f
  | gave hgave =>
      obtain ⟨htwins, hreturned⟩ := hgave
      cases hreturned with
      | goes => exact .goes htwins
      | ended => exact .ended htwins

end Engine

/-- The alarm for another execution. -/
def Timer.named (id : String) : Timer → Timer
  | wake _ lane => .wake id lane
  | expire _ => .expire id

namespace Engine

variable {σ : Type} {s : Services σ} {now : Moment} {e e' d d' : Engine σ} {u ruleId id id' : String}

/-- An alarm of the execution does the same in both engines. -/
theorem ring_twins (h : Twins u ruleId id id' e e') {t : Timer} (ht : t.executionId = id) :
    Rings u ruleId id id' (e.ring s.environment now t) (e'.ring s.environment now (t.named id')) := by
  subst ht
  cases t with
  | wake id lane => exact .of_agree (couples_go_on lane e e' h)
  | expire id => exact .of_agree (couples_time_out e e' h)

/-- Two engines stay the same to the tenant while others do what leaves the tenant's share. -/
theorem Twins.of_share (h : Twins u ruleId id id' e e') (he : e.Owned) (he' : e'.Owned) (hd : d.Owned)
    (hd' : d'.Owned) (hshare : d.share (· == u) = e.share (· == u)) (hshare' : d'.share (· == u) = e'.share (· == u))
    (hworld : d'.world = d.world) : Twins u ruleId id id' d d' := by
  obtain ⟨n, hentry, htenant⟩ := h.entry
  obtain ⟨t, ht, rfl, hu⟩ := ExecutionStore.trial_of_entry hentry
  have hwanted : (t.tenantId == u) = true := beq_iff_eq.mpr (hu.trans htenant)
  have hentry' := h.executions.entry
  rw [hentry] at hentry'
  obtain ⟨t', ht', rfl, hu'⟩ := ExecutionStore.trial_of_entry hentry'
  have hwanted' : (t'.tenantId == u) = true := by
    refine beq_iff_eq.mpr (hu'.trans ?_)
    cases n <;> exact htenant
  have hfound := entry_of_share he hd hshare ht hwanted
  have hfound' := entry_of_share he' hd' hshare' ht' hwanted'
  have hrun := run_of_share he hd hshare ht hwanted
  have hrun' := run_of_share he' hd' hshare' ht' hwanted'
  exact {
    rules := (rules_of_share hshare').trans (h.rules.trans (rules_of_share hshare).symm)
    owner := (rule_of_share he hd hshare h.owner).1
    distinct := hd.distinct
    distinct' := hd'.distinct
    executions :=
      ⟨(kind_of_share hshare').trans (h.executions.kind.trans (kind_of_share hshare).symm),
        by rw [hfound', hfound]; exact h.executions.entry⟩
    entry := ⟨n, hfound.trans hentry, htenant⟩
    run := by rw [hrun', hrun]; exact h.run
    mine := fun run hr => h.mine run (hrun.symm.trans hr)
    world := hworld }

end Engine

end Rulebook
