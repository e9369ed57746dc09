import Rulebook.Proofs.Engine.Share
import Rulebook.Proofs.Engine.Statistics
import Rulebook.Proofs.Store.Legible

/-!
# Engines that acts lead to

What holds of the executions that are kept holds after an act if it does after each execution that is added or
replaced (`Engine.act_executions`). An engine that acts made of a new one (`Engine.IsReached`) is orderly: it is clear
whose its rules and executions are, and all of them can be read (`Engine.IsReached.orderly`).
-/

namespace Rulebook

variable {σ : Type}

/-- What holds of a store of executions when others are added to it and replaced. -/
structure ExecutionStore.Lasts (P : ExecutionStore → Prop) : Prop where
  created : ∀ s x, P s → P (s.created x)
  saved : ∀ s x, P s → P (s.saved x)

/-- Stores stay legible. -/
theorem ExecutionStore.legible_lasts : Lasts IsLegible := ⟨fun _ x h => h.created x, fun _ x h => h.saved x⟩

/-- What lasts holds while an execution goes on. -/
theorem Core.Advances.executions {P : ExecutionStore → Prop} (hP : ExecutionStore.Lasts P) {k k' : Core σ} {u : Trial}
    (hk : P k.executions) (h : k.Advances u k') : P k'.executions := by
  induction h with
  | refl => exact hk
  | save _ _ ih => exact hP.saved _ _ ih
  | put _ _ ih | add _ _ ih | drop _ ih | release _ ih | work _ _ ih => exact ih

namespace Engine

variable {v : Environment σ} {now : Moment} {e : Engine σ} {P : ExecutionStore → Prop}

/-- What lasts holds after an act. -/
theorem act_executions (hP : ExecutionStore.Lasts P) (he : P e.executions) (v : Environment σ) (now : Moment)
    (act : Act) : P (act.apply v now e).executions := by
  have hsame : ∀ k' : Core σ, (act.apply v now e).core = k' → P k'.executions →
      P (act.apply v now e).executions := fun k' hk' h => by
    have hstore : (act.apply v now e).executions = k'.executions := congrArg Core.executions hk'
    exact hstore ▸ h
  cases act with
  | createRule d => exact hsame _ (leaves_create_rule v now d e) he
  | updateRule ruleId d tenantId => exact hsame _ (leaves_update_rule v now ruleId d tenantId e) he
  | deactivateRule ruleId tenantId => exact hsame _ (leaves_deactivate_rule now ruleId tenantId e) he
  | setUp => exact hsame _ (leaves_set_up v now e) he
  | execute ruleId data context triggeredBy =>
      obtain ⟨_, h⟩ | h | ⟨r, reason, _, _, h⟩ | ⟨r, x, t, _, _, _, _, h⟩ :=
        e.execute_core v now ruleId data context triggeredBy
      · exact hsame _ h he
      · exact hsame _ h he
      · exact hsame _ h (hP.created _ _ he)
      · exact hsame _ h ((Core.launch_advances _ v now r x _).executions hP (hP.created _ x he))
  | ring t =>
      obtain ⟨run, _, h⟩ | ⟨_, h⟩ := ring_advances e v now t
      · exact h.executions hP he
      · exact hsame _ h he
  | cancel id tenantId =>
      obtain ⟨run, _, h⟩ | ⟨_, h⟩ := core_of_cancel e now id tenantId
      · exact h.executions hP he
      · exact hsame _ h he
  | abandon id =>
      have hstore : (e.core.abandon id).executions = e.core.executions := by
        rw [Core.abandon]
        split <;> rfl
      exact hsame _ (abandon_core e id) (hstore ▸ he)
  | restart | schedule s | note notes | setAlarms => exact he
  | poll r =>
      rw [Act.apply, host]
      cases v.source <;> exact he

/-- What lasts holds after acts. -/
theorem after_executions (hP : ExecutionStore.Lasts P) (he : P e.executions) (v : Environment σ)
    (acts : List (Moment × Act)) : P (e.after v acts).executions := by
  induction acts generalizing e with
  | nil => exact he
  | cons act acts ih => exact ih (act_executions hP he v act.1 act.2)

/-- Acts made an engine of a new one. In a database only times are written that can be told, and only rules that were
admitted. -/
def IsReached (v : Environment σ) (e : Engine σ) : Prop :=
  ∃ rules p world acts, RuleStore.IsEmpty rules ∧ ExecutionStore.IsEmpty p ∧ (start rules p world).Admits acts ∧
    e = (start rules p world).after v acts

/-- Another act leads on from an engine that was reached. -/
theorem IsReached.act (h : e.IsReached v) {act : Act}
    (hact : e.rules.isDatabase = true → now.IsTold ∧ act.IsAdmitted) : (act.apply v now e).IsReached v := by
  obtain ⟨rules, p, world, acts, hrules, hempty, hacts, rfl⟩ := h
  have hdatabase := (after_becomes (start_faithful hrules p world) hacts v).1.2
  refine ⟨rules, p, world, acts ++ [(now, act)], hrules, hempty, fun hkept a ha => ?_, ?_⟩
  · obtain ha | ha := List.mem_append.mp ha
    · exact hacts hkept a ha
    · rw [List.mem_singleton.mp ha]
      exact hact (hdatabase.trans hkept)
  · rw [after, after, List.foldl_append]
    rfl

/-- It is clear whose the rules and executions of an engine are, and all of them can be read. -/
structure Orderly (e : Engine σ) : Prop where
  owned : e.Owned
  rules : e.rules.IsFaithful
  executions : e.executions.IsLegible

/-- An engine that was reached is orderly. -/
theorem IsReached.orderly (h : e.IsReached v) : e.Orderly := by
  obtain ⟨rules, p, world, acts, hrules, hempty, hacts, rfl⟩ := h
  have howners : rules.owners = [] := by
    cases rules with
    | memory t => exact congrArg (List.map _) (List.map_eq_nil_iff.mp hrules)
    | sql t => exact congrArg (List.map _) (List.map_eq_nil_iff.mp hrules)
  exact ⟨(after_owned (start_owned howners hempty world) v acts).1,
    (after_becomes ⟨hrules.faithful, fun _ => List.forall_mem_nil _⟩ hacts v).1.1.rules,
    after_executions ExecutionStore.legible_lasts hempty.legible v acts⟩

end Engine

end Rulebook
