import Rulebook.Proofs.Engine.Alike

/-!
# Executions that are begun alike

The execution of a rule of a tenant is begun in the same way in two engines that are alike to the tenant, but for its
identifier (`Engine.Alike.execute`): it fails, is refused, ends, or goes on in both, and then the engines are the same
to the tenant.
-/

namespace Rulebook.Engine

variable {σ : Type} {s : Services σ} {now : Moment} {e e' : Engine σ} {u ruleId id id' : String} {q : Rule}

/-- The execution of a rule of a tenant was begun in two engines, under an identifier each. -/
inductive Begins (u id id' : String) : Engine σ × Launch → Engine σ × Launch → Prop where
  | failed {a b : Engine σ} (f : Failure) : Begins u id id' (a, .ended (.error f)) (b, .ended (.error f))
  | refused {a b : Engine σ} (message : String) : Begins u id id'
      (a, .ended (.error (.rateLimited message (some id)))) (b, .ended (.error (.rateLimited message (some id'))))
  | ended {a b : Engine σ} {ruleId : String} : Twins u ruleId id id' a b →
      Begins u id id' (a, .ended (.ok id)) (b, .ended (.ok id'))
  | underway {a b : Engine σ} {ruleId : String} : Twins u ruleId id id' a b →
      Begins u id id' (a, .underway id) (b, .underway id')

/-- To execute a rule is to open a record and to carry out the execution. -/
theorem execute_eq (e : Engine σ) (v : Environment σ) (now : Moment) (ruleId : String) (data : Fields)
    (context : ExecutionContext) (triggeredBy : Option String) :
    e.execute v now ruleId data context triggeredBy =
      match e.perform (openRecord now ruleId data context triggeredBy) with
      | (a, .error f) => (a, .ended (.error f))
      | (a, .ok (r, x)) =>
        match a.perform (carryOut v now r x) with
        | (b, .ok l) => (b, l)
        | (b, .error f) => (b, .ended (.error f)) := by
  rw [execute, begin, perform_bind]
  rcases e.perform (openRecord now ruleId data context triggeredBy) with ⟨a, f | ⟨r, x⟩⟩ <;> rfl


/-- There is no run of the next identifier. -/
theorem Owned.run_fresh (he : e.Owned) : e.run? e.nextExecution = none := by
  cases hrun : e.run? e.nextExecution with
  | none => rfl
  | some run =>
      obtain ⟨hmem, hid⟩ := Core.mem_of_run (k := e.core) hrun
      obtain ⟨w, hw, htold⟩ := he.recorded.runs run hmem
      exact absurd ((ExecutionStore.told_as htold).id.trans hid) (he.recorded.next_fresh w hw)

namespace Alike

/-- The limits of a rule of the tenant are checked alike. -/
theorem check (h : Alike u e e') (howner : (ruleId, u) ∈ e.rules.owners) (settings : RuleSettings) (now : Moment) :
    RateLimit.check e'.executions ruleId settings now = RateLimit.check e.executions ruleId settings now := by
  have hpart : ∀ {e : Engine σ}, e.Owned → (ruleId, u) ∈ e.rules.owners →
      RateLimit.check (e.executions.part (· == u)) ruleId settings now =
        RateLimit.check e.executions ruleId settings now := by
    intro e he howner
    refine ExecutionStore.check_part (fun t ht hrule => ?_) settings now
    exact beq_iff_eq.mpr (he.owner_unique howner _ (he.tried t ht) hrule)
  rw [← hpart h.orderly'.owned (rule_of_share h.orderly.owned h.orderly'.owned h.share howner).1,
    executions_of_share h.share, hpart h.orderly.owned howner]

/-- The execution of a rule of the tenant is carried out alike once its record is opened. -/
theorem carry_out (h : Alike u e e') {r : Rule} {x : Execution} (howner : (r.id, u) ∈ e.rules.owners)
    (hx : x.IsOf u r.id e.nextExecution) {n : StoreEntry} {t t' : ExecutionStore} (hn : e.executions.entryOf x = .ok n)
    (hsame : ExecutionStore.Namesakes e.nextExecution e'.nextExecution t t')
    (hfound : t.entryAt e.nextExecution = some n) {a b : Engine σ}
    (ha : a = { e with
      executionIds := e.executionIds + 1, executions := t, inFlight := e.inFlight ++ [e.nextExecution] })
    (hb : b = { e' with
      executionIds := e'.executionIds + 1, executions := t', inFlight := e'.inFlight ++ [e'.nextExecution] }) :
    Begins u e.nextExecution e'.nextExecution
      (match a.perform (carryOut s.environment now r x) with
        | (c, .ok l) => (c, l)
        | (c, .error f) => (c, .ended (.error f)))
      (match b.perform (carryOut s.environment now r (x.named e'.nextExecution)) with
        | (c, .ok l) => (c, l)
        | (c, .error f) => (c, .ended (.error f))) := by
  have hrules := rules_of_share h.share
  have htwins : Twins u r.id e.nextExecution e'.nextExecution a b := by
    subst ha hb
    exact {
      rules := hrules
      owner := howner
      distinct := h.orderly.owned.distinct
      distinct' := h.orderly'.owned.distinct
      executions := hsame
      entry := ⟨n, hfound, (StoreEntry.of_entry_of hn).tenant.trans hx.tenantId⟩
      run := h.orderly'.owned.run_fresh.trans (congrArg (Option.map _) h.orderly.owned.run_fresh).symm
      mine := fun run hrun => by cases h.orderly.owned.run_fresh.symm.trans hrun
      world := h.world }
  have hagree := @couples_carry_out σ s now u r.id e.nextExecution e'.nextExecution x r hx a b htwins
  rcases hp : a.perform (carryOut s.environment now r x) with ⟨c, o⟩
  rcases hp' : b.perform (carryOut s.environment now r (x.named e'.nextExecution)) with ⟨c', o'⟩
  rw [hp, hp'] at hagree
  cases hagree with
  | failed f => exact .failed f
  | gave hgave =>
      obtain ⟨hafter, hlaunched⟩ := hgave
      cases hlaunched with
      | ended => exact .ended hafter
      | underway => exact .underway hafter

/-- The execution of a rule of the tenant is begun alike in both engines. -/
theorem execute (h : Alike u e e') (hq : e.getRule ruleId (some u) = .ok q) (s : Services σ) (now : Moment)
    (data : Fields) (context : ExecutionContext) (triggeredBy : Option String) :
    Begins u e.nextExecution e'.nextExecution (e.execute s.environment now ruleId data context triggeredBy)
      (e'.execute s.environment now ruleId data context triggeredBy) := by
  obtain ⟨hget, hid, htenant, howner⟩ := owner_of_found hq
  subst hid
  have hactive : e'.activeRule q.id = e.activeRule q.id := by
    rw [activeRule, (rule_of_share h.orderly.owned h.orderly'.owned h.share howner).2, activeRule]
  rw [execute_eq, execute_eq, open_record_eq, open_record_eq, hactive]
  cases hrule : e.activeRule q.id with
  | error f => exact .failed f
  | ok r =>
      obtain rfl := Option.some.inj (Except.ok.inj (hget.symm.trans (get_of_active hrule)))
      dsimp only
      rw [h.check howner, ← nextExecution, ← nextExecution]
      rcases RateLimit.check e.executions q.id q.settings now with f | _ | reason
      · exact .failed f
      · have hopened : (Execution.opened q e.nextExecution now data context triggeredBy).IsOf u q.id e.nextExecution :=
          ⟨rfl, rfl, htenant⟩
        have hnamed : Execution.opened q e'.nextExecution now data context triggeredBy =
            (Execution.opened q e.nextExecution now data context triggeredBy).named e'.nextExecution := rfl
        dsimp only
        rw [hnamed]
        obtain ⟨f, hf, hf'⟩ | ⟨n, t, t', hn, ht, ht', hsame, hfound⟩ :=
          ExecutionStore.namesakes_of_create (x := Execution.opened q e.nextExecution now data context triggeredBy)
            (kind_of_share h.share) (entry_fresh h.orderly.owned.recorded) (entry_fresh h.orderly'.owned.recorded)
        · rw [hf, hf']
          exact .failed f
        · rw [ht, ht']
          exact h.carry_out howner hopened hn hsame hfound rfl rfl
      · have hrefused : (Execution.refused q e.nextExecution now data context triggeredBy reason).id =
            e.nextExecution := congrArg (·.1) (Execution.precedes_move_to _ now _ rfl).origin
        dsimp only
        rw [Execution.refused_named e'.nextExecution now q e.nextExecution data context triggeredBy reason]
        obtain ⟨f, hf, hf'⟩ | ⟨n, t, t', _, ht, ht', _, _⟩ :=
          ExecutionStore.namesakes_of_create
            (x := Execution.refused q e.nextExecution now data context triggeredBy reason)
            (kind_of_share h.share) (by rw [hrefused]; exact entry_fresh h.orderly.owned.recorded)
            (entry_fresh h.orderly'.owned.recorded)
        · rw [hf, hf']
          exact .failed f
        · rw [ht, ht']
          dsimp only
          rw [hrefused]
          exact .refused reason.message

end Alike

end Rulebook.Engine
