import Rulebook.Proofs.Api.Tenant
import Rulebook.Proofs.Engine.Beginning

/-!
# How orders are answered

An order is answered at once, or when the execution has ended that it calls (`Order.answer`). What an order of a
tenant does spares all others (`Order.start_spares`), and in two engines that are alike to the tenant it is answered
with the same reply but for new identifiers, whatever others do meanwhile (`Order.answer_alike`).
-/

namespace Rulebook

variable {σ : Type}

namespace Engine

/-- How the call of an execution ends by the time that alarms have rung, if it does, and the engine then. -/
def ended? (v : Environment σ) (id : String) : List (Rung σ) → Option (Engine σ × Outcome String)
  | [] => none
  | rung :: rest =>
    match rung.engine.ring v rung.now rung.timer with
    | (e, some (about, result)) => if about = id then some (e, result) else ended? v id rest
    | (_, none) => ended? v id rest

/-- How a call ends by the time that alarms have rung, if it does, and the engine then. -/
def await (v : Environment σ) (e : Engine σ) : Launch → List (Rung σ) → Option (Engine σ × Outcome String)
  | .ended result, _ => some (e, result)
  | .underway id, rungs => ended? v id rungs

end Engine

namespace Order

/-- What comes of an order that was begun by the time that alarms have rung, if it is done by then. -/
def settle (v : Environment σ) (e : Engine σ) (rungs : List (Rung σ)) : Outcome OrderState → Option (Outcome Value)
  | .error f => some (.error f)
  | .ok (.done value) => some (.ok value)
  | .ok (.called tenantId l) => (e.await v l rungs).map fun (e, result) =>
    result.bind fun id => (e.getExecution id (some tenantId)).map Execution.toValue
  | .ok (.dispatched _) => none

/-- What comes of an order by the time that alarms have rung, if it is done by then. -/
def answer (v : Environment σ) (now : Moment) (o : Order) (e : Engine σ) (rungs : List (Rung σ)) :
    Option (Outcome Value) :=
  let (e, state) := e.perform (o.start v now)
  settle v e rungs state

/-- What an order of a tenant comes to, apart from new identifiers. -/
inductive Reply where
  /-- No new identifier is told. -/
  | plain (result : Outcome Value)
  /-- A new rule is shown. -/
  | created (r : Rule)
  /-- A new execution is shown. -/
  | executed (x : Execution)
  /-- A rule ran too often. -/
  | refused (message : String)

/-- The outcome of an order that was replied to: new identifiers are those that an engine gave. -/
def Reply.outcome (e : Engine σ) : Reply → Outcome Value
  | plain result => result
  | created r => .ok ({ r with id := e.nextRule } : Rule).toValue
  | executed x => .ok (x.named e.nextExecution).toValue
  | refused message => .error (.rateLimited message (some e.nextExecution))

variable {v : Environment σ} {s : Services σ} {now : Moment} {e e' : Engine σ} {u : String} {o : Order}

/-! ### Orders spare others -/

/-- To begin an order of a tenant is an act for the tenant, or nothing is done. -/
theorem start_act (e : Engine σ) (ho : o.tenant? = some u) (v : Environment σ) (now : Moment) :
    (e.perform (o.start v now)).1 = e ∨
      ∃ act : Act, act.IsFor u e ∧ (e.perform (o.start v now)).1 = act.apply v now e := by
  open Engine in
  have hquery : ∀ {α : Type} (query : Engine σ → Outcome α) (g : α → OrderState),
      (e.perform (do let a ← lift (query (← get)); pure (g a))).1 = e := fun query g =>
    perform_bind_pure_fst e (lift (query e)) g
  cases o with
  | createRule d => exact .inr ⟨_, .created d (Option.some.inj ho), perform_bind_pure_fst _ _ _⟩
  | template ids tenantId name t =>
      obtain rfl := Option.some.inj ho
      rw [start, perform_bind, perform_lift]
      cases hd : RuleTemplate.draft ids name t.config tenantId t.createdBy with
      | error f => exact .inl rfl
      | ok d => exact .inr ⟨_, .created d (RuleTemplate.tenant_of_draft hd), perform_bind_pure_fst _ _ _⟩
  | updateRule tenantId ruleId d =>
      obtain rfl := Option.some.inj ho
      exact .inr ⟨_, .updated ruleId d, perform_bind_pure_fst _ _ _⟩
  | deactivateRule tenantId ruleId =>
      obtain rfl := Option.some.inj ho
      exact .inr ⟨_, .deactivated ruleId, perform_bind_pure_fst _ _ _⟩
  | execute tenantId ruleId c =>
      obtain rfl := Option.some.inj ho
      rw [start, perform_bind, perform_get]
      dsimp only
      rw [perform_bind, perform_lift]
      cases hq : e.getRule ruleId (some tenantId) with
      | error f => exact .inl rfl
      | ok q => exact .inr ⟨_, .executed c.triggerData c.context (some "manual") hq, rfl⟩
  | cancel tenantId id =>
      obtain rfl := Option.some.inj ho
      exact .inr ⟨_, .cancelled id, perform_bind_pure_fst _ _ _⟩
  | listRules tenantId active => exact .inl (hquery (·.listRules tenantId) _)
  | rule tenantId ruleId => exact .inl (hquery (·.getRule ruleId (some tenantId)) _)
  | executions tenantId ruleId status limit offset =>
      exact .inl (hquery (·.listExecutions ⟨tenantId, none, ruleId, status⟩) _)
  | execution tenantId id => exact .inl (hquery (·.getExecution id (some tenantId)) _)
  | metrics tenantId period => exact .inl (hquery (·.metrics now tenantId period) _)
  | event | webhook => cases ho

/-- To begin an order of a tenant spares all others, and it leaves clear whose rules and executions are. -/
theorem start_spares (he : e.Owned) (ho : o.tenant? = some u) (v : Environment σ) (now : Moment) :
    e.Spares u (e.perform (o.start v now)).1 ∧ (e.perform (o.start v now)).1.Owned := by
  obtain h | ⟨act, hact, h⟩ := start_act e ho v now <;> rw [h]
  · exact ⟨⟨fun _ _ => rfl, fun _ _ => rfl⟩, he⟩
  · exact ⟨Engine.act_spares he hact v now, (Engine.act_owned he v now act).1⟩

/-! ### Orders are answered alike -/

/-- An order of a tenant was begun in two engines alike: it is replied to at once, or an execution is called. -/
inductive Starts (u : String) (e e' : Engine σ) (p p' : Engine σ × Outcome OrderState) : Prop where
  | replied (reply : Reply) : p.2 = (reply.outcome e).map .done → p'.2 = (reply.outcome e').map .done →
      Starts u e e' p p'
  | called {l l' : Launch} : Engine.Begins u e.nextExecution e'.nextExecution (p.1, l) (p'.1, l') →
      p.2 = .ok (.called u l) → p'.2 = .ok (.called u l') → Starts u e e' p p'

/-- What comes out the same in both engines is replied to. -/
theorem Starts.of_eq {α : Type} {m : EngineM σ α} (h : (e'.perform m).2 = (e.perform m).2) (g : α → Value) :
    Starts u e e' (e.perform (m >>= fun a => pure (.done (g a)))) (e'.perform (m >>= fun a => pure (.done (g a)))) := by
  have hmap : ∀ o : Outcome α, o.map (fun a => OrderState.done (g a)) = (o.map g).map .done := fun o => by
    cases o <;> rfl
  refine .replied (.plain ((e.perform m).2.map g)) ?_ ?_
  · rw [Engine.perform_bind_pure, hmap]
    rfl
  · rw [Engine.perform_bind_pure, h, hmap]
    rfl

/-- A query that is answered alike is replied to. -/
theorem Starts.of_query {α : Type} (query : Engine σ → Outcome α) (h : query e' = query e) (g : α → Value) :
    Starts u e e' (e.perform (do let a ← Engine.lift (query (← get)); pure (.done (g a))))
      (e'.perform (do let a ← Engine.lift (query (← get)); pure (.done (g a)))) := by
  have hask : ∀ d : Engine σ, d.perform (do let a ← Engine.lift (query (← get)); pure (OrderState.done (g a))) =
      d.perform (Engine.lift (query d) >>= fun a => pure (OrderState.done (g a))) := fun _ => rfl
  have hsame : (e'.perform (Engine.lift (query e))).2 = (e.perform (Engine.lift (query e))).2 := rfl
  rw [hask, hask, h]
  exact .of_eq hsame g

/-- A rule that is created alike is replied to. -/
theorem Starts.of_create (h : Engine.Alike u e e') (d : RuleDraft) :
    Starts u e e' (e.perform (create v now d)) (e'.perform (create v now d)) := by
  obtain ⟨o, ho, ho'⟩ := h.create_rule v now d
  have hreply := Engine.perform_bind_pure e (Engine.createRule v now d) fun r => OrderState.done r.toValue
  have hreply' := Engine.perform_bind_pure e' (Engine.createRule v now d) fun r => OrderState.done r.toValue
  rw [ho] at hreply
  rw [ho'] at hreply'
  cases o with
  | error f => exact .replied (.plain (.error f)) hreply hreply'
  | ok r => exact .replied (.created r) hreply hreply'

/-- An order of a tenant is begun alike in two engines that are alike to the tenant. -/
theorem start_alike (h : Engine.Alike u e e') (ho : o.tenant? = some u) (s : Services σ) (now : Moment) :
    Starts u e e' (e.perform (o.start s.environment now)) (e'.perform (o.start s.environment now)) := by
  open Engine in
  cases o with
  | createRule d => exact .of_create h d
  | template ids tenantId name t =>
      rw [start, perform_bind, perform_lift, perform_bind, perform_lift]
      cases RuleTemplate.draft ids name t.config tenantId t.createdBy with
      | error f => exact .replied (.plain (.error f)) rfl rfl
      | ok d => exact .of_create h d
  | listRules tenantId active =>
      obtain rfl := Option.some.inj ho
      exact .of_query (·.listRules tenantId) h.list_rules _
  | rule tenantId ruleId =>
      obtain rfl := Option.some.inj ho
      exact .of_query (·.getRule ruleId (some tenantId)) (h.get_rule ruleId) _
  | updateRule tenantId ruleId d =>
      obtain rfl := Option.some.inj ho
      exact .of_eq (h.update_rule ruleId d) _
  | deactivateRule tenantId ruleId =>
      obtain rfl := Option.some.inj ho
      exact .of_eq (h.deactivate_rule ruleId) _
  | execute tenantId ruleId c =>
      obtain rfl := Option.some.inj ho
      have hget := h.get_rule ruleId
      rw [start, perform_bind, perform_get, perform_bind, perform_get]
      dsimp only
      rw [perform_bind, perform_lift, perform_bind, perform_lift, hget]
      cases hq : e.getRule ruleId (some tenantId) with
      | error f => exact .replied (.plain (.error f)) rfl rfl
      | ok q => exact .called (h.execute hq s now c.triggerData c.context (some "manual")) rfl rfl
  | executions tenantId ruleId status limit offset =>
      obtain rfl := Option.some.inj ho
      exact .of_query (·.listExecutions ⟨tenantId, none, ruleId, status⟩) (h.list_executions rfl) _
  | execution tenantId id =>
      obtain rfl := Option.some.inj ho
      exact .of_query (·.getExecution id (some tenantId)) (h.get_execution id) _
  | cancel tenantId id =>
      obtain rfl := Option.some.inj ho
      exact .of_eq (h.cancel id) _
  | metrics tenantId period =>
      obtain rfl := Option.some.inj ho
      exact .of_query (·.metrics now tenantId period) (h.metrics now period) _
  | event | webhook => cases ho

end Order

namespace Engine

variable {v : Environment σ} {s : Services σ} {now : Moment} {e e' : Engine σ} {u ruleId id id' : String}

/-- Alarms of an execution ring in two engines. Before each of them others may do anything that leaves the share of
the tenant, and services are in the same state in both engines. -/
inductive Goes (v : Environment σ) (u id id' : String) :
    Engine σ → Engine σ → List (Rung σ) → List (Rung σ) → Prop where
  | nil {a b : Engine σ} : Goes v u id id' a b [] []
  | cons {a b c d : Engine σ} {now : Moment} {t : Timer} {rungs rungs' : List (Rung σ)} : c.IsReached v →
      d.IsReached v → c.share (· == u) = a.share (· == u) → d.share (· == u) = b.share (· == u) → d.world = c.world →
      t.executionId = id → Goes v u id id' (c.ring v now t).1 (d.ring v now (t.named id')).1 rungs rungs' →
      Goes v u id id' a b (⟨c, now, t⟩ :: rungs) (⟨d, now, t.named id'⟩ :: rungs')

/-- The call of an execution ended alike in two engines, if it did. -/
inductive Closes (u id id' : String) : Option (Engine σ × Outcome String) → Option (Engine σ × Outcome String) → Prop where
  | goes : Closes u id id' none none
  | ended {a b : Engine σ} {ruleId : String} : Twins u ruleId id id' a b →
      Closes u id id' (some (a, .ok id)) (some (b, .ok id'))
  | failed {a b : Engine σ} (f : Failure) : Closes u id id' (some (a, .error f)) (some (b, .error f))
  | refused {a b : Engine σ} (message : String) : Closes u id id'
      (some (a, .error (.rateLimited message (some id)))) (some (b, .error (.rateLimited message (some id'))))

/-- The call of an execution of a tenant ends alike in two engines that are the same to the tenant. -/
theorem Goes.closes {rungs rungs' : List (Rung σ)} (hgoes : Goes s.environment u id id' e e' rungs rungs')
    (h : Twins u ruleId id id' e e') (he : e.Owned) (he' : e'.Owned) :
    Closes u id id' (ended? s.environment id rungs) (ended? s.environment id' rungs') := by
  induction hgoes with
  | nil => exact .goes
  | @cons a b c d now t rungs rungs' hc hd hshare hshare' hworld ht _ ih =>
      have hrings := @ring_twins σ s now c d u ruleId id id'
        (h.of_share he he' hc.orderly.owned hd.orderly.owned hshare hshare' hworld) t ht
      have hafter := (act_owned hc.orderly.owned s.environment now (.ring t)).1
      have hafter' := (act_owned hd.orderly.owned s.environment now (.ring (t.named id'))).1
      change ((c.ring s.environment now t).1).Owned at hafter
      change ((d.ring s.environment now (t.named id')).1).Owned at hafter'
      rw [ended?, ended?]
      rcases hp : c.ring s.environment now t with ⟨c', r⟩
      rcases hp' : d.ring s.environment now (t.named id') with ⟨d', r'⟩
      rw [hp, hp'] at hrings
      rw [hp] at hafter ih
      rw [hp'] at hafter' ih
      cases hrings with
      | goes htwins => exact ih htwins hafter hafter'
      | ended htwins =>
          dsimp only
          rw [if_pos rfl, if_pos rfl]
          exact .ended htwins
      | failed f =>
          dsimp only
          rw [if_pos rfl, if_pos rfl]
          exact .failed f

/-- A call of a tenant that was begun alike ends alike. -/
theorem Begins.closes {l l' : Launch} {rungs rungs' : List (Rung σ)} (h : Begins u id id' (e, l) (e', l'))
    (hgoes : Goes s.environment u id id' e e' rungs rungs') (he : e.Owned) (he' : e'.Owned) :
    Closes u id id' (e.await s.environment l rungs) (e'.await s.environment l' rungs') := by
  cases h with
  | failed f => exact .failed f
  | refused message => exact .refused message
  | ended htwins => exact .ended htwins
  | underway htwins => exact hgoes.closes htwins he he'

/-- The tenant gets the same execution from both engines, but for its identifier. -/
theorem Twins.get_execution (h : Twins u ruleId id id' e e') :
    e'.getExecution id' (some u) = (e.getExecution id (some u)).map (Execution.named id') := by
  obtain ⟨n, hentry, htenant⟩ := h.entry
  have hentry' := h.executions.entry
  rw [hentry] at hentry'
  rw [getExecution, getExecution, ExecutionStore.get_eq hentry, ExecutionStore.get_eq hentry', StoreEntry.read_named]
  cases hread : n.read with
  | error f => rfl
  | ok x =>
      have hu : (u == x.tenantId) = true := beq_iff_eq.mpr (htenant.symm.trans (StoreEntry.tenant_of_read hread).symm)
      have hown : ∀ y : Execution, y.tenantId = x.tenantId → ∀ f : Failure,
          (if (some u).all (· == y.tenantId) then .ok y else .error f : Outcome Execution) = .ok y := by
        intro y hy f
        rw [hy]
        exact if_pos hu
      exact (hown (x.named id') rfl _).trans (congrArg (Except.map _) (hown x rfl _).symm)

/-- An execution that is got is that of the identifier. -/
theorem id_of_get_execution {tenantId : Option String} {x : Execution} (h : e.getExecution id tenantId = .ok x) :
    x.id = id := by
  obtain ⟨found, hfound, h⟩ := Outcome.bind_eq_ok.mp h
  cases found with
  | none => cases h
  | some y =>
      dsimp only at h
      split at h
      next =>
        cases h
        exact ExecutionStore.id_of_get hfound
      next => cases h

end Engine

namespace Order

variable {s : Services σ} {now : Moment} {e e' : Engine σ} {u : String} {o : Order} {rungs rungs' : List (Rung σ)}

/-- What is replied at once is the answer. -/
theorem settle_done (v : Environment σ) (e : Engine σ) (rungs : List (Rung σ)) (result : Outcome Value) :
    settle v e rungs (result.map .done) = some result := by
  cases result <;> rfl

/-- In two engines that are alike to a tenant an order of the tenant is answered with the same reply, but for new
identifiers, whatever others do meanwhile. -/
theorem answer_alike (h : Engine.Alike u e e') (ho : o.tenant? = some u)
    (hgoes : Engine.Goes s.environment u e.nextExecution e'.nextExecution (e.perform (o.start s.environment now)).1
      (e'.perform (o.start s.environment now)).1 rungs rungs') :
    ∃ reply : Option Reply, o.answer s.environment now e rungs = reply.map (·.outcome e) ∧
      o.answer s.environment now e' rungs' = reply.map (·.outcome e') := by
  have howned := (start_spares h.orderly.owned ho s.environment now).2
  have howned' := (start_spares h.orderly'.owned ho s.environment now).2
  have hstarts := start_alike h ho s now
  rw [answer, answer]
  rcases hs : e.perform (o.start s.environment now) with ⟨a, state⟩
  rcases hs' : e'.perform (o.start s.environment now) with ⟨b, state'⟩
  rw [hs] at howned hstarts hgoes
  rw [hs'] at howned' hstarts hgoes
  cases hstarts with
  | replied reply hr hr' =>
      obtain rfl : state = _ := hr
      obtain rfl : state' = _ := hr'
      exact ⟨some reply, settle_done _ _ _ _, settle_done _ _ _ _⟩
  | @called l l' hbegins hl hl' =>
      obtain rfl : state = _ := hl
      obtain rfl : state' = _ := hl'
      have hcloses := hbegins.closes hgoes howned howned'
      show ∃ reply : Option Reply,
        (a.await s.environment l rungs).map _ = reply.map _ ∧ (b.await s.environment l' rungs').map _ = reply.map _
      rcases hp : a.await s.environment l rungs with _ | ⟨c, result⟩ <;>
        rcases hp' : b.await s.environment l' rungs' with _ | ⟨d, result'⟩ <;> rw [hp, hp'] at hcloses
      · exact ⟨none, rfl, rfl⟩
      · cases hcloses
      · cases hcloses
      · cases hcloses with
        | failed f => exact ⟨some (.plain (.error f)), rfl, rfl⟩
        | refused message => exact ⟨some (.refused message), rfl, rfl⟩
        | ended htwins =>
            have hget := htwins.get_execution
            show ∃ reply : Option Reply,
              some ((c.getExecution e.nextExecution (some u)).map Execution.toValue) = reply.map (·.outcome e) ∧
                some ((d.getExecution e'.nextExecution (some u)).map Execution.toValue) = reply.map (·.outcome e')
            rw [hget]
            cases hx : c.getExecution e.nextExecution (some u) with
            | error f => exact ⟨some (.plain (.error f)), rfl, rfl⟩
            | ok x =>
                refine ⟨some (.executed x), ?_, rfl⟩
                rw [Option.map_some, Reply.outcome, x.named_self (Engine.id_of_get_execution hx)]
                rfl

end Order

end Rulebook
