import Rulebook.Proofs.Engine.Owner
import Rulebook.Proofs.Store.Version

/-!
# What an act writes

An act writes one rule at most: it creates one, makes a version of one that is kept (`Act.revise`), or records in one
the execution whose call it answers (`Act.answered?`). `Engine.RulesStep` says which, and `Engine.act_rules` that there
is no other way.
-/

namespace Rulebook

/-! ### What an act does to a rule -/

namespace Act

variable {σ : Type}

/-- The version that an act makes of a rule whose definition it changes. -/
def revise (now : Moment) (q : Rule) : Act → Option Rule
  | updateRule ruleId d tenantId =>
    if ruleId = q.id ∧ tenantId.all (· == q.tenantId) then some (Engine.redefine q d now) else none
  | deactivateRule ruleId tenantId =>
    if ruleId = q.id ∧ tenantId.all (· == q.tenantId) then some { q with isActive := false, updatedAt := now }
    else none
  | _ => none

/-- The trial of the execution that an act begins or goes on with. -/
def trial? (now : Moment) (e : Engine σ) : Act → Option Trial
  | execute ruleId _ _ _ =>
    (e.activeRule ruleId).toOption.map fun r => ⟨e.nextExecution, r.id, r.tenantId, now, some now⟩
  | ring t => (e.run? t.executionId).map (·.execution.trial)
  | _ => none

/-- The trial of the execution whose call an act answers with its identifier. -/
def answered? (v : Environment σ) (now : Moment) (e : Engine σ) (act : Act) : Option Trial :=
  match act.answer v now e with
  | some (.ok _) => act.trial? now e
  | _ => none

end Act

namespace RuleStore

/-- Whether the store takes a version of a rule. -/
def takes (s : RuleStore) (r : Rule) : Bool := (s.update r).toOption.isSome

end RuleStore

namespace Engine

variable {σ : Type} (v : Environment σ) (now : Moment) (e : Engine σ)

/-- A rule after an act, as far as the act changes its definition: what the store gives back of the new version if it
takes it. -/
def revised (act : Act) (q : Rule) : Rule :=
  match act.revise now q with
  | some r => if e.rules.takes r then e.rules.version q r else q
  | none => q

/-- What an act does to the rules that an engine keeps. -/
inductive RulesStep (act : Act) (e' : Engine σ) : Prop where
  /-- Nothing is written. -/
  | same (hrules : e'.rules = e.rules)
      (hrevised : ∀ id q r, e.rules.get id = .ok (some q) → act.revise now q = some r → e.rules.takes r = false)
      (hanswered : ∀ u, act.answered? v now e = some u → e.rules.get u.ruleId = .ok none)
  /-- A rule is created. -/
  | created {d : RuleDraft} (hact : act = .createRule d)
      (hrules : e.rules.create { d with id := identifier "rule" (e.ruleIds + 1), createdAt := now, updatedAt := now } =
        .ok e'.rules)
  /-- The definition of a rule is changed. -/
  | revised {q r : Rule} (hq : e.rules.get q.id = .ok (some q)) (hr : act.revise now q = some r)
      (hrules : e.rules.update r = .ok e'.rules)
  /-- An execution is recorded in its rule, and its call is answered. -/
  | recorded {x : Execution} {q : Rule} {metadata : RuleMetadata} (hanswered : act.answered? v now e = some x.trial)
      (hq : e.rules.get x.ruleId = .ok (some q)) (hmetadata : q.metadata.recording x = .ok metadata)
      (hrules : e.rules.update { q with metadata } = .ok e'.rules)

variable {v now e} {act : Act} {q r : Rule} {ruleId : String} {tenantId : Option String} {u : Trial}

/-! ### Which rule an act is about -/

/-- A tenant gets the rule of an identifier if it is the tenant's. -/
theorem get_rule_of_get (hq : e.rules.get ruleId = .ok (some q)) (htenant : tenantId.all (· == q.tenantId) = true) :
    e.getRule ruleId tenantId = .ok q := by
  rw [getRule, hq]
  show (if tenantId.all (· == q.tenantId) then _ else _) = _
  rw [if_pos htenant]

/-- A rule that a tenant gets is the tenant's. -/
theorem tenant_of_get_rule (h : e.getRule ruleId tenantId = .ok q) : tenantId.all (· == q.tenantId) = true := by
  rw [Option.all_eq_true]
  exact fun tenant htenant => beq_iff_eq.mpr ((owner_of_get_rule h).2 tenant htenant).symm

/-- A version is a new definition of the rule, or the rule taken out of use, by its tenant. -/
theorem revise_cases (h : act.revise now q = some r) :
    ∃ tenantId : Option String, tenantId.all (· == q.tenantId) = true ∧
      ((∃ d, act = .updateRule q.id d tenantId ∧ r = redefine q d now) ∨
        act = .deactivateRule q.id tenantId ∧ r = { q with isActive := false, updatedAt := now }) := by
  cases act with
  | updateRule ruleId d tenantId =>
      simp only [Act.revise, Option.ite_none_right_eq_some, Option.some.injEq] at h
      obtain ⟨⟨rfl, htenant⟩, rfl⟩ := h
      exact ⟨tenantId, htenant, .inl ⟨d, rfl, rfl⟩⟩
  | deactivateRule ruleId tenantId =>
      simp only [Act.revise, Option.ite_none_right_eq_some, Option.some.injEq] at h
      obtain ⟨⟨rfl, htenant⟩, rfl⟩ := h
      exact ⟨tenantId, htenant, .inr ⟨rfl, rfl⟩⟩
  | _ => cases h

/-- A version is that of the rule whose definition an act changes, and of no other one. -/
theorem id_of_revise (h : act.revise now q = some r) :
    r.id = q.id ∧ ∀ p : Rule, p.id ≠ q.id → act.revise now p = none := by
  obtain ⟨tenantId, _, ⟨d, rfl, rfl⟩ | ⟨rfl, rfl⟩⟩ := revise_cases h <;>
  exact ⟨rfl, fun p hp => if_neg fun hid => hp hid.1.symm⟩

/-! ### Which calls an act answers -/

/-- An act that answers a call changes no definition. -/
theorem revise_of_answered (h : act.answered? v now e = some u) (q : Rule) : act.revise now q = none := by
  cases act with
  | execute | ring => rfl
  | _ => cases h

/-- An act that changes the definition of a rule does not answer a call. -/
theorem answered_of_revise (h : act.revise now q = some r) : act.answered? v now e = none := by
  cases hanswered : act.answered? v now e with
  | none => rfl
  | some u =>
      rw [revise_of_answered hanswered q] at h
      cases h

/-- What holds of the trial that a call begins and of those of the runs holds of the one whose call is answered. -/
theorem of_answered {P : Trial → Prop} (hruns : ∀ run ∈ e.runs, P run.execution.trial)
    (hcall : ∀ ruleId data context triggeredBy r, act = .execute ruleId data context triggeredBy →
      e.activeRule ruleId = .ok r → P ⟨e.nextExecution, r.id, r.tenantId, now, some now⟩)
    (h : act.answered? v now e = some u) : P u := by
  have htrial : act.trial? now e = some u := by
    unfold Act.answered? at h
    split at h
    · exact h
    · cases h
  cases act with
  | execute ruleId data context triggeredBy =>
      obtain ⟨r, hr, rfl⟩ := Option.map_eq_some_iff.mp htrial
      refine hcall ruleId data context triggeredBy r rfl ?_
      cases hactive : e.activeRule ruleId with
      | error f =>
          rw [hactive] at hr
          cases hr
      | ok q =>
          rw [hactive] at hr
          exact congrArg Except.ok (Option.some.inj hr)
  | ring t =>
      obtain ⟨run, hrun, rfl⟩ := Option.map_eq_some_iff.mp htrial
      exact hruns run (List.mem_of_find?_eq_some hrun)
  | _ => cases htrial

/-- A call that is counted is answered, with the trial that is counted. -/
theorem execute_answered (v : Environment σ) (now : Moment) (e : Engine σ) (ruleId : String) (data : Fields)
    (context : ExecutionContext) (triggeredBy : Option String) :
    let act := Act.execute ruleId data context triggeredBy
    (∃ u, act.answered? v now e = some u ∧ e.Counted (· = u) (act.apply v now e)) ∨
      act.answered? v now e = none ∧ (act.apply v now e).books = e.books := by
  dsimp only
  rw [Act.answered?, Act.answer, Act.apply]
  obtain ⟨⟨id, hends⟩, hcounted⟩ | ⟨hnot, hbooks⟩ := execute_counts v now e ruleId data context triggeredBy
  · have hr : ∃ r, e.activeRule ruleId = .ok r := by
      obtain ⟨x, ⟨r, hr, _⟩, _⟩ := hcounted
      exact ⟨r, hr⟩
    obtain ⟨r, hr⟩ := hr
    refine .inl ⟨⟨e.nextExecution, r.id, r.tenantId, now, some now⟩, ?_, hcounted.mono ?_⟩
    · rw [hends, Act.trial?, hr]
      rfl
    · rintro u ⟨r', hr', rfl⟩
      rw [Except.ok.inj (hr.symm.trans hr')]
  · refine .inr ⟨?_, hbooks⟩
    rcases hl : (e.execute v now ruleId data context triggeredBy).2 with (f | id) | id
    · rfl
    · exact absurd ⟨id, hl⟩ hnot
    · rfl

/-- The ring of an alarm that is counted answers a call, with the trial that is counted. -/
theorem ring_answered (v : Environment σ) (now : Moment) (e : Engine σ) (t : Timer) :
    let act := Act.ring t
    (∃ u, act.answered? v now e = some u ∧ e.Counted (· = u) (act.apply v now e)) ∨
      act.answered? v now e = none ∧ (act.apply v now e).books = e.books := by
  dsimp only
  rw [Act.answered?, Act.answer, Act.apply]
  obtain ⟨⟨id, hends⟩, hcounted⟩ | ⟨hnot, hbooks⟩ := ring_counts v now e t
  · have hrun : ∃ run, e.run? t.executionId = some run := by
      obtain ⟨x, ⟨run, hrun, _⟩, _⟩ := hcounted
      exact ⟨run, hrun⟩
    obtain ⟨run, hrun⟩ := hrun
    refine .inl ⟨run.execution.trial, ?_, hcounted.mono ?_⟩
    · rw [hends, Act.trial?, hrun]
      rfl
    · rintro u ⟨run', hrun', rfl⟩
      rw [Option.some.inj (hrun.symm.trans hrun')]
  · refine .inr ⟨?_, hbooks⟩
    rcases hl : (e.ring v now t).2 with _ | ⟨executionId, f | id⟩
    · rfl
    · rfl
    · exact absurd ⟨id, congrArg (Option.map Prod.snd) hl⟩ hnot

/-! ### What acts write -/

namespace RulesStep

variable {e' : Engine σ}

/-- An act that makes no version and answers no call writes nothing, if it leaves the rules. -/
theorem quiet (hanswered : act.answered? v now e = none) (hrevise : ∀ q, act.revise now q = none)
    (hrules : e'.rules = e.rules) : e.RulesStep v now act e' := by
  refine .same hrules (fun _ q r _ hr => ?_) fun u hu => ?_
  · rw [hrevise q] at hr
    cases hr
  · rw [hanswered] at hu
    cases hu

/-- A call that is counted is recorded, unless its rule is not kept. -/
theorem counted (hrevise : ∀ q, act.revise now q = none)
    (h : (∃ u, act.answered? v now e = some u ∧ e.Counted (· = u) e') ∨
      act.answered? v now e = none ∧ e'.books = e.books) : e.RulesStep v now act e' := by
  obtain ⟨_, hanswered, x, rfl, ⟨hnone, hbooks⟩ | ⟨q, metadata, hq, hmetadata, hupdate, _⟩⟩ | ⟨hanswered, hbooks⟩ := h
  · refine .same (congrArg Prod.fst hbooks) (fun _ q r _ hr => ?_) fun u hu => ?_
    · rw [hrevise q] at hr
      cases hr
    · obtain rfl := Option.some.inj (hanswered.symm.trans hu)
      exact hnone
  · exact .recorded hanswered hq hmetadata hupdate
  · exact quiet hanswered hrevise (congrArg Prod.fst hbooks)

/-- A version that is made of the rule that a tenant gets is written, unless the store does not take it. -/
theorem of_version {make : Rule → Rule} (hanswered : act.answered? v now e = none)
    (hrevise : ∀ q, act.revise now q =
      if ruleId = q.id ∧ tenantId.all (· == q.tenantId) then some (make q) else none)
    (h : (e'.books = e.books ∧ ∀ q t, e.getRule ruleId tenantId = .ok q → e.rules.update (make q) ≠ .ok t) ∨
      ∃ q, e.getRule ruleId tenantId = .ok q ∧ e.rules.update (make q) = .ok e'.rules) :
    e.RulesStep v now act e' := by
  obtain ⟨hbooks, hnot⟩ | ⟨q, hq, hupdate⟩ := h
  · refine .same (congrArg Prod.fst hbooks) (fun id q r hq hr => ?_) fun u hu => ?_
    · rw [hrevise, Option.ite_none_right_eq_some, Option.some.injEq] at hr
      obtain ⟨⟨rfl, htenant⟩, rfl⟩ := hr
      obtain rfl := (RuleStore.owner_of_get hq).1
      rw [RuleStore.takes]
      cases hupdate : e.rules.update (make q) with
      | error f => rfl
      | ok t => exact absurd hupdate (hnot q t (get_rule_of_get hq htenant))
    · rw [hanswered] at hu
      cases hu
  · obtain ⟨hget, _⟩ := owner_of_get_rule hq
    obtain ⟨rfl, _⟩ := RuleStore.owner_of_get hget
    exact .revised hget ((hrevise q).trans (if_pos ⟨rfl, tenant_of_get_rule hq⟩)) hupdate

end RulesStep

/-- What an act writes is one rule at most. -/
theorem act_rules (v : Environment σ) (now : Moment) (e : Engine σ) (act : Act) :
    e.RulesStep v now act (act.apply v now e) := by
  cases act with
  | createRule d =>
      obtain h | ⟨r, t, hr, ht, h⟩ := create_rule_books v now e d
      · exact .quiet rfl (fun _ => rfl) (congrArg Prod.fst h)
      · cases hr
        exact .created rfl (ht.trans (congrArg Except.ok (congrArg Prod.fst h).symm))
  | updateRule ruleId d tenantId =>
      refine .of_version rfl (fun _ => rfl) ((update_rule_books v now e ruleId d tenantId).imp_right ?_)
      rintro ⟨_, t, hr, ht, h⟩
      cases hr with
      | updated _ hq => exact ⟨_, hq, ht.trans (congrArg Except.ok (congrArg Prod.fst h).symm)⟩
  | deactivateRule ruleId tenantId =>
      refine .of_version rfl (fun _ => rfl) ((deactivate_rule_books now e ruleId tenantId).imp_right ?_)
      rintro ⟨q, t, hq, ht, h⟩
      exact ⟨q, hq, ht.trans (congrArg Except.ok (congrArg Prod.fst h).symm)⟩
  | execute ruleId data context triggeredBy =>
      exact .counted (fun _ => rfl) (execute_answered v now e ruleId data context triggeredBy)
  | ring t => exact .counted (fun _ => rfl) (ring_answered v now e t)
  | setUp => exact .quiet rfl (fun _ => rfl) (congrArg Prod.fst (set_up_rules v now e))
  | cancel id tenantId => exact .quiet rfl (fun _ => rfl) (congrArg Prod.fst (leaves_cancel now id tenantId e))
  | abandon id => exact .quiet rfl (fun _ => rfl) (congrArg Prod.fst (abandon_books e id))
  | restart | schedule | note | setAlarms => exact .quiet rfl (fun _ => rfl) rfl
  | poll r =>
      refine .quiet rfl (fun _ => rfl) ?_
      rw [Act.apply, host]
      cases v.source <;> rfl

end Engine

end Rulebook
