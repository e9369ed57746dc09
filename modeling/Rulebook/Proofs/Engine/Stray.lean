import Rulebook.Proofs.Engine.Called
import Rulebook.Proofs.Engine.Settled

/-!
# Failures that callers do not expect

A caller expects that a rule is not found, not in use or ran too often. While the stores answer, a call of
`Engine.execute` fails otherwise exactly if the limits of the rule cannot be checked, its conditions
cannot be told, or the execution cannot be counted when its record is closed (`Engine.strays_iff`);
nothing that an action does makes a call fail.
-/

namespace Rulebook

/-- No call of a store that an execution needs fails. -/
structure Engine.StoresAnswer {σ : Type} (e : Engine σ) : Prop where
  rules : e.rules.Answers
  counted : ∀ ruleId day, ∃ n, e.executions.count ruleId day = .ok n
  started : ∀ ruleId, ∃ m, e.executions.lastStarted ruleId = .ok m

/-- A store in memory answers. -/
theorem RuleStore.memory_answers (t : RuleTable) : (memory t).Answers where
  found ruleId := ⟨t.get? ruleId, rfl⟩
  kept ruleId r m hr := by
    have hfound : t.rules.find? (·.id == ruleId) = some r := Except.ok.inj hr
    have hid : r.id = ruleId := by simpa using List.find?_some hfound
    refine ⟨_, congrArg (Except.map memory) (if_pos ?_)⟩
    rw [RuleTable.get?, hid, hfound]
    rfl

/-- An act makes a call of `Engine.execute` fail with `f` although the rule is in use and did not run too
often: the limits of the rule cannot be checked, the first of its conditions that cannot be told has a
fault, or the act ends that the caller waits and the execution cannot be counted. -/
def Act.Strays {σ : Type} (v : Environment σ) (now : Moment) (e : Engine σ) (f : Failure) (act : Act) :
    Prop :=
  match act with
  | execute ruleId data context _ => ∃ r, e.activeRule ruleId = .ok r ∧
      ((∃ fault, f = .time fault ∧ RateLimit.Faults e.executions r.id r.settings now fault) ∨
      RateLimit.check e.executions r.id r.settings now = .ok none ∧
        let seen := .object (evaluationData data (some context))
        ((∃ fault, f = .number fault ∧ Condition.FirstFault r.conditions seen fault) ∨
        (∀ fault, ¬Condition.FirstFault r.conditions seen fault) ∧
          ¬(act.apply v now e).IsCalled e.nextExecution (fun _ => True) ∧
          e.rules.fault? r.id = some f))
  | ring t => e.IsCalled t.executionId (fun x => e.rules.fault? x.ruleId = some f) ∧
      ¬(act.apply v now e).IsCalled t.executionId fun _ => True
  | _ => False

/-- The execution whose caller an act can answer. -/
def Act.executionId? {σ : Type} (e : Engine σ) : Act → Option String
  | execute _ _ _ _ => some e.nextExecution
  | ring t => some t.executionId
  | _ => none

/-- That an execution cannot be counted is not expected. -/
theorem RuleStore.unexpected_of_fault {s : RuleStore} {ruleId : String} {f : Failure}
    (h : s.fault? ruleId = some f) : f.isExpected = false := by
  have hmetadata : ∀ m : RuleMetadata, m.fault? = some f → f.isExpected = false := by
    intro m hm
    unfold RuleMetadata.fault? at hm
    split at hm
    · rw [← Option.some.inj hm]
      rfl
    · split at hm
      · rw [← Option.some.inj hm]
        rfl
      · cases hm
  unfold fault? at h
  split at h
  next r _ => exact hmetadata r.metadata h
  next => cases h

/-- The answer when a record is closed is a failure exactly if the execution cannot be counted. -/
theorem RuleStore.answer_to_eq_error_iff {s : RuleStore} {x : Execution} {f : Failure} :
    s.answerTo x = .error f ↔ s.fault? x.ruleId = some f := by
  unfold answerTo
  cases s.fault? x.ruleId <;> simp

/-- The answer when a record is closed is no other identifier than that of the execution. -/
theorem RuleStore.id_of_answer {s : RuleStore} {x : Execution} {id : String}
    (h : s.answerTo x = .ok id) : id = x.id := by
  unfold answerTo at h
  cases hfault : s.fault? x.ruleId with
  | none =>
      rw [hfault] at h
      exact (Except.ok.inj h).symm
  | some f =>
      rw [hfault] at h
      cases h

namespace Environment

variable {σ : Type} {p : ExecutionStore} {clock : Clock} {now : Moment} {r : Rule} {x y : Execution}

/-- The version with which the record of an execution is closed is one that the store can keep. -/
theorem launched_kept (v : Environment σ) (hx : x.TimesIn clock) (hsteps : x.steps = [])
    (hrunning : x.status = .running) (hnow : clock.Shows now) (hkeeps : p.Keeps clock (r.retries + 1))
    (world : Traced σ) (conditions : Except NumberFault Bool)
    (hy : v.traced.launched? now world r x conditions = some y) :
    x.Precedes y ∧ ∃ n, p.entryOf y = .ok n := by
  have hopen : x.isTerminal = false := by rw [Execution.isTerminal, hrunning]; rfl
  have htells : x.Tells r.retries [] := .of_nil hsteps (by simp)
  rcases conditions with f | _ | _
  · obtain rfl := Option.some.inj hy
    exact ⟨x.precedes_crashed now f, hkeeps.entry_of htells (hx.move_to hnow _ rfl)
      (Execution.move_to_steps x now _ rfl)⟩
  · obtain rfl := Option.some.inj hy
    have hskipped : ({ x with result := some Execution.skipped } : Execution).TimesIn clock :=
      ⟨hx.triggered, hx.started, hx.completed, hx.steps⟩
    exact ⟨Execution.precedes_unmet now hopen, hkeeps.entry_of htells (hskipped.move_to hnow _ rfl)
      (Execution.move_to_steps _ now _ rfl)⟩
  · obtain ⟨l, _, hmoves, _⟩ := v.run_actions_fits now r ⟨world, x, []⟩ hsteps hrunning
    unfold launched? at hy
    dsimp only at hy
    rcases hrun : v.traced.runActions now r ⟨world, x, []⟩ with ⟨c, _ | phase⟩ <;>
      rw [hrun] at hy hmoves
    · obtain rfl := Option.some.inj hy
      exact ⟨hmoves.precedes.trans (Execution.precedes_close _ now),
        hkeeps.entry_of (hmoves.tells htells) ((hmoves.times_in hx hnow).close hnow)
          (Execution.close_steps _ now)⟩
    · cases hy

end Environment

namespace Engine

variable {σ : Type} {v : Environment σ} {p : ExecutionStore} {clock : Clock} {now : Moment}
  {e : Engine (Traced σ)} {L R : Prop} {x y : Execution} {f : Failure}

/-- The version with which the record of a run is closed is one that the store can keep. -/
theorem closed_kept (hk : e.core.Sound p) (t : Timer)
    (hsettled : (e.core.standing t.executionId).Settled p clock L R) (hnow : clock.Shows now)
    (hy : e.closed? v.traced now t = some y) :
    ∃ run, e.run? t.executionId = some run ∧ run.execution.Precedes y ∧
      ∃ n, p.entryOf y = .ok n := by
  cases t with
  | wake id lane =>
      obtain ⟨run, hrun, hreturned⟩ := Option.bind_eq_some_iff.mp hy
      have hsound := hk.run_id hrun
      obtain ⟨_, hv, _⟩ := hsettled.of_run hrun
      obtain ⟨l, _, hmoves, _⟩ := v.resume_actions_fits now run.rule lane run.phase
        ⟨e.world, run.execution, []⟩ hsound.fits hsound.underway
        fun s hs => hsound.tells.attempts_le hs
      unfold Environment.returned? at hreturned
      rcases hresume : v.traced.resumeActions now run.rule lane run.phase
        ⟨e.world, run.execution, []⟩ with ⟨c, _ | phase⟩ <;> rw [hresume] at hreturned hmoves
      · rcases hwatch : run.watch with timed | _ | _ <;> rw [hwatch] at hreturned
        · obtain rfl := Option.some.inj hreturned
          exact ⟨run, hrun, hmoves.precedes.trans (Execution.precedes_close _ now),
            hv.keeps.entry_of (hmoves.tells hv.tells) ((hmoves.times_in hv.timed hnow).close hnow)
              (Execution.close_steps _ now)⟩
        · cases hreturned
        · cases hreturned
      · cases hreturned
  | expire id =>
      obtain ⟨run, hrun, hexpired⟩ := Option.bind_eq_some_iff.mp hy
      obtain ⟨_, hv, _⟩ := hsettled.of_run hrun
      split at hexpired
      · obtain rfl := Option.some.inj hexpired
        exact ⟨run, hrun, Execution.precedes_expired _ _ now, hv.keeps.entry_of hv.tells
          ((hv.timed.move_to hnow _ rfl).close hnow) (Execution.expired_steps _ _ now)⟩
      · cases hexpired

/-- The store keeps the version with which the record of a run is closed. -/
theorem closed_stored (hk : e.core.Sound p) (t : Timer)
    (hsettled : (e.core.standing t.executionId).Settled p clock L R) (hnow : clock.Shows now)
    (hy : e.closed? v.traced now t = some y) : ∃ u, e.executions.update y = .ok u := by
  obtain ⟨run, hrun, hlater, n, hn⟩ := closed_kept hk t hsettled hnow hy
  have hid : y.id = t.executionId := hlater.id_eq.trans (hk.run_id hrun).id
  have hentry := (hk.standing t.executionId).entry_ne_none hrun
  exact ExecutionStore.update_eq_ok (hid ▸ hentry) (hk.kind ▸ hn)

/-- The ring of an alarm makes a call fail exactly if it ends that the caller waits and the execution
cannot be counted. -/
theorem ring_strays_iff (hk : e.core.Sound p) (t : Timer)
    (hsettled : (e.core.standing t.executionId).Settled p clock L R) (hnow : clock.Shows now)
    (hanswers : e.StoresAnswer) :
    (Act.ring t).answer v.traced now e = some (.error f) ↔ (Act.ring t).Strays v.traced now e f := by
  have hcloses : e.closed? v.traced now t ≠ none ↔ e.IsCalled t.executionId (fun _ => True) ∧
      ¬((Act.ring t).apply v.traced now e).IsCalled t.executionId fun _ => True := closed_iff hk t
  rw [ring_answer hanswers.rules t fun _ => closed_stored hk t hsettled hnow]
  cases hy : e.closed? v.traced now t with
  | none =>
      refine iff_of_false nofun ?_
      rintro ⟨⟨run, timed, hrun, hwatch, _⟩, hended⟩
      exact hcloses.mpr ⟨⟨run, timed, hrun, hwatch, trivial⟩, hended⟩ hy
  | some y =>
      obtain ⟨run, hrun, hlater, _⟩ := closed_kept hk t hsettled hnow hy
      obtain ⟨⟨run', timed, hrun', hwatch, _⟩, hended⟩ := hcloses.mp (by rw [hy]; nofun)
      obtain rfl := Option.some.inj (hrun.symm.trans hrun')
      rw [Option.map_some, Option.some.injEq, RuleStore.answer_to_eq_error_iff, hlater.rule_id_eq]
      constructor
      · intro hfault
        exact ⟨⟨run, timed, hrun, hwatch, hfault⟩, hended⟩
      · rintro ⟨⟨run', _, hrun', _, hfault⟩, _⟩
        obtain rfl := Option.some.inj (hrun.symm.trans hrun')
        exact hfault

/-- The ring of an alarm answers a call with no other identifier than that of the execution. -/
theorem ring_answers_id (hk : e.core.Sound p) (t : Timer)
    (hsettled : (e.core.standing t.executionId).Settled p clock L R) (hnow : clock.Shows now)
    (hanswers : e.StoresAnswer) {id : String}
    (h : (Act.ring t).answer v.traced now e = some (.ok id)) : id = t.executionId := by
  rw [ring_answer hanswers.rules t fun _ => closed_stored hk t hsettled hnow] at h
  obtain ⟨y, hy, hid⟩ := Option.map_eq_some_iff.mp h
  obtain ⟨run, hrun, hlater, _⟩ := closed_kept hk t hsettled hnow hy
  exact (RuleStore.id_of_answer hid).trans (hlater.id_eq.trans (hk.run_id hrun).id)

variable {ruleId : String} {r : Rule}

/-- A rule is in use, or it is expected that it is not. -/
theorem active_rule_cases (hrules : e.rules.Answers) (ruleId : String) :
    (∃ f, e.activeRule ruleId = .error f ∧ f.isExpected = true) ∨ ∃ r, e.activeRule ruleId = .ok r := by
  obtain ⟨found, hfound⟩ := hrules.found ruleId
  rw [activeRule, hfound]
  cases found with
  | none => exact .inl ⟨_, rfl, rfl⟩
  | some r =>
      cases hactive : r.isActive with
      | false => exact .inl ⟨.ruleInactive ruleId, by simp [hactive, bind, Except.bind], rfl⟩
      | true => exact .inr ⟨r, by simp [hactive, bind, Except.bind]⟩

/-- A call of a rule in use that may run waits exactly if the record is not closed at once. -/
theorem execute_called_iff (hk : e.core.Sound p) (hrule : e.activeRule ruleId = .ok r)
    (hrate : RateLimit.check e.executions r.id r.settings now = .ok none) {data : Fields}
    {context : ExecutionContext} {triggeredBy : Option String} {t : ExecutionStore}
    (hx : Execution.opened r e.nextExecution now data context triggeredBy = x)
    (hcreate : e.executions.create x = .ok t) :
    ((Act.execute ruleId data context triggeredBy).apply v.traced now e).IsCalled e.nextExecution
        (fun _ => True) ↔
      v.traced.launched? now e.world r x (Condition.allHold r.conditions x.seen) = none := by
  have hsteps : x.steps = [] := hx ▸ rfl
  have hrunning : x.status = .running := hx ▸ rfl
  have hid : x.id = e.nextExecution := hx ▸ rfl
  have hnone : (e.core.opened x).run? x.id = none := hid ▸ congrArg Standing.run (standing_of_fresh hk)
  rw [is_called_iff, Act.apply, execute_opened_core _ _ _ _ _ _ _ hrule hrate (hx ▸ hcreate)]
  rw [← nextExecution, hx, ← hid, Core.launch_called_iff hnone hsteps hrunning]
  rfl

/-- Where the store keeps executions, a call of a rule in use that may run is answered at once with the
fault of its conditions, or as the record is closed if the caller does not wait. -/
theorem unlimited_answer (hk : e.core.Sound p) (hnow : clock.Shows now)
    (hkeeps : p.Keeps clock (r.retries + 1)) (hrules : e.rules.Answers)
    (hrule : e.activeRule ruleId = .ok r)
    (hrate : RateLimit.check e.executions r.id r.settings now = .ok none)
    (data : Fields) (context : ExecutionContext) (triggeredBy : Option String) :
    let act := Act.execute ruleId data context triggeredBy
    (∃ fault, Condition.allHold r.conditions (.object (evaluationData data (some context))) =
        .error fault ∧ act.answer v.traced now e = some (.error (.number fault))) ∨
      (∃ b, Condition.allHold r.conditions (.object (evaluationData data (some context))) = .ok b) ∧
        ((act.apply v.traced now e).IsCalled e.nextExecution (fun _ => True) ∧
            act.answer v.traced now e = none ∨
          ¬(act.apply v.traced now e).IsCalled e.nextExecution (fun _ => True) ∧
            ∃ y, y.id = e.nextExecution ∧ y.ruleId = r.id ∧
              act.answer v.traced now e = some (e.rules.answerTo y)) := by
  intro act
  generalize hx : Execution.opened r e.nextExecution now data context triggeredBy = x
  have htimed : x.TimesIn clock := hx ▸ Execution.opened_times_in hnow
  have hsteps : x.steps = [] := hx ▸ rfl
  have hrunning : x.status = .running := hx ▸ rfl
  have hid : x.id = e.nextExecution := hx ▸ rfl
  have hruleId : x.ruleId = r.id := hx ▸ rfl
  have hseen : x.seen = .object (evaluationData data (some context)) := hx ▸ rfl
  obtain ⟨n, hn⟩ := hkeeps x htimed (by simp [hsteps])
  have hfresh : e.executions.entryAt x.id = none := by
    rw [hid]
    exact congrArg Standing.entry (standing_of_fresh hk)
  obtain ⟨t, hcreate, hkind, hentry⟩ := ExecutionStore.create_eq_ok hfresh (hk.kind ▸ hn)
  have hkept := fun conditions y => v.launched_kept (y := y) htimed hsteps hrunning hnow hkeeps e.world
    conditions
  have hcarry := @carry_out_answer _ v.traced now { e with
    executionIds := e.executionIds + 1, executions := t
    inFlight := e.inFlight ++ [e.nextExecution] } x r hrules fun y hy => by
      obtain ⟨hlater, m, hm⟩ := hkept _ y hy
      refine ExecutionStore.update_eq_ok (n := m) ?_ ?_
      · rw [hlater.id_eq, hentry]
        exact Option.some_ne_none _
      · rw [hkind]
        exact hk.kind ▸ hm
  have hcalled := execute_called_iff (v := v) hk hrule hrate hx hcreate
  rw [hcalled, execute_answer, hrule]
  dsimp only
  rw [hrate]
  dsimp only
  rw [hx, hcreate]
  dsimp only
  rw [hcarry, hseen]
  cases Condition.allHold r.conditions (.object (evaluationData data (some context))) with
  | error fault => exact .inl ⟨fault, rfl, rfl⟩
  | ok b =>
      refine .inr ⟨⟨b, rfl⟩, ?_⟩
      dsimp only
      cases hy : v.traced.launched? now e.world r x (.ok b) with
      | none => exact .inl ⟨rfl, rfl⟩
      | some y =>
          obtain ⟨hlater, _⟩ := hkept (.ok b) y hy
          refine .inr ⟨Option.some_ne_none _, y, hlater.id_eq.trans hid, hlater.rule_id_eq.trans hruleId, ?_⟩
          dsimp only
          cases e.rules.answerTo y <;> rfl

/-- A call that is refused answers what is expected. -/
theorem refused_answer (hk : e.core.Sound p) (hnow : clock.Shows now)
    (hkeeps : p.Keeps clock (r.retries + 1)) (hrule : e.activeRule ruleId = .ok r) {reason : RateLimit}
    (hrate : RateLimit.check e.executions r.id r.settings now = .ok (some reason))
    (data : Fields) (context : ExecutionContext) (triggeredBy : Option String) :
    ∃ g, (Act.execute ruleId data context triggeredBy).answer v.traced now e = some (.error g) ∧
      g.isExpected = true := by
  obtain ⟨n, hn⟩ := hkeeps (.refused r e.nextExecution now data context triggeredBy reason)
    (Execution.refused_times_in hnow reason) (by simp [Execution.refused_steps])
  have hfresh : e.executions.entryAt
      (Execution.refused r e.nextExecution now data context triggeredBy reason).id = none := by
    rw [Execution.refused_id]
    exact congrArg Standing.entry (standing_of_fresh hk)
  obtain ⟨t, hcreate, _⟩ := ExecutionStore.create_eq_ok hfresh (hk.kind ▸ hn)
  refine ⟨.rateLimited reason.message (some
    (Execution.refused r e.nextExecution now data context triggeredBy reason).id), ?_, rfl⟩
  rw [execute_answer, hrule]
  dsimp only
  rw [hrate]
  dsimp only
  rw [hcreate]

/-- A call of a rule in use strays exactly if the check of its limits fails, or if the rule may run and its
conditions cannot be told or the execution is over at once and cannot be counted. -/
theorem execute_strays_cases (hanswers : e.StoresAnswer) (hrule : e.activeRule ruleId = .ok r) (data : Fields)
    (context : ExecutionContext) (triggeredBy : Option String) (f : Failure) :
    (Act.execute ruleId data context triggeredBy).Strays v.traced now e f ↔
      RateLimit.check e.executions r.id r.settings now = .error f ∨
      RateLimit.check e.executions r.id r.settings now = .ok none ∧
        ((∃ fault, f = .number fault ∧
            Condition.allHold r.conditions (.object (evaluationData data (some context))) = .error fault) ∨
          (∃ b, Condition.allHold r.conditions (.object (evaluationData data (some context))) = .ok b) ∧
            ¬((Act.execute ruleId data context triggeredBy).apply v.traced now e).IsCalled e.nextExecution
              (fun _ => True) ∧
            e.rules.fault? r.id = some f) := by
  rw [RateLimit.check_eq_error_iff (hanswers.counted r.id) (hanswers.started r.id),
    Condition.all_hold_eq_ok_iff]
  simp only [Condition.all_hold_eq_error_iff]
  constructor
  · rintro ⟨r', hr, h⟩
    obtain rfl := Except.ok.inj (hrule.symm.trans hr)
    exact h
  · exact fun h => ⟨r, hrule, h⟩

/-- A call that answers what is expected does not stray, so nothing else is to be said of it. -/
theorem expected_answer {act : Act} {g : Failure} {id : String}
    (hanswer : act.answer v.traced now e = some (.error g)) (hg : g.isExpected = true)
    (hnot : ∀ f, ¬act.Strays v.traced now e f) :
    (∀ id', act.answer v.traced now e = some (.ok id') → id' = id) ∧
      ∀ f, act.answer v.traced now e = some (.error f) ∧ f.isExpected = false ↔
        act.Strays v.traced now e f := by
  rw [hanswer]
  refine ⟨nofun, fun f => iff_of_false ?_ (hnot f)⟩
  rintro ⟨heq, hf⟩
  obtain rfl := Except.error.inj (Option.some.inj heq)
  rw [hg] at hf
  cases hf

/-- A call of a rule that may run fails in an unexpected way exactly if the conditions of the rule cannot be
told, or the execution is over at once and cannot be counted. -/
theorem unlimited_strays_iff (hk : e.core.Sound p) (hnow : clock.Shows now)
    (hkeeps : p.Keeps clock (r.retries + 1)) (hanswers : e.StoresAnswer)
    (hrule : e.activeRule ruleId = .ok r)
    (hrate : RateLimit.check e.executions r.id r.settings now = .ok none)
    (data : Fields) (context : ExecutionContext) (triggeredBy : Option String) :
    let act := Act.execute ruleId data context triggeredBy
    (∀ id, act.answer v.traced now e = some (.ok id) → id = e.nextExecution) ∧
      ∀ f, act.answer v.traced now e = some (.error f) ∧ f.isExpected = false ↔
        act.Strays v.traced now e f := by
  intro act
  have hcases : ∀ f, act.Strays v.traced now e f ↔ _ :=
    execute_strays_cases hanswers hrule data context triggeredBy
  obtain ⟨fault, hholds, hanswer⟩ | ⟨⟨b, hholds⟩, ⟨hcalled, hanswer⟩ | ⟨hcalled, y, hid, hruleId, hanswer⟩⟩ :=
    unlimited_answer (v := v) hk hnow hkeeps hanswers.rules hrule hrate data context triggeredBy
  · -- the conditions cannot be told, and the call fails with that
    rw [hanswer]
    refine ⟨nofun, fun f => ?_⟩
    rw [hcases, hrate, hholds]
    constructor
    · rintro ⟨h, _⟩
      obtain rfl := Except.error.inj (Option.some.inj h)
      exact .inr ⟨rfl, .inl ⟨fault, rfl, rfl⟩⟩
    · rintro (h | ⟨_, ⟨fault', rfl, h⟩ | ⟨⟨b, h⟩, _⟩⟩)
      · cases h
      · rw [Except.error.inj h]
        exact ⟨rfl, rfl⟩
      · cases h
  · -- the caller waits, and nothing is answered yet
    rw [hanswer]
    refine ⟨nofun, fun f => iff_of_false (fun h => nomatch h.1) ?_⟩
    rw [hcases]
    rintro (h | ⟨_, ⟨fault, _, h⟩ | ⟨_, hnot, _⟩⟩)
    · cases hrate.symm.trans h
    · cases hholds.symm.trans h
    · exact hnot hcalled
  · -- the record is closed, and the answer is how it is counted
    rw [hanswer]
    refine ⟨fun id h => (RuleStore.id_of_answer (Option.some.inj h)).trans hid, fun f => ?_⟩
    rw [hcases, Option.some.injEq, RuleStore.answer_to_eq_error_iff, hruleId]
    constructor
    · rintro ⟨h, _⟩
      exact .inr ⟨hrate, .inr ⟨⟨b, hholds⟩, hcalled, h⟩⟩
    · rintro (h | ⟨_, ⟨fault, _, h⟩ | ⟨_, _, h⟩⟩)
      · cases hrate.symm.trans h
      · cases hholds.symm.trans h
      · exact ⟨h, RuleStore.unexpected_of_fault h⟩

/-- A call fails in an unexpected way exactly if the limits of the rule cannot be checked, its conditions
cannot be told, or the execution is over at once and cannot be counted. -/
theorem execute_strays_iff (hk : e.core.Sound p) (hnow : clock.Shows now)
    (hkeeps : ∀ r, e.UsesRule r → p.Keeps clock (r.retries + 1)) (hanswers : e.StoresAnswer)
    (ruleId : String) (data : Fields) (context : ExecutionContext) (triggeredBy : Option String) :
    let act := Act.execute ruleId data context triggeredBy
    (∀ id, act.answer v.traced now e = some (.ok id) → id = e.nextExecution) ∧
      ∀ f, act.answer v.traced now e = some (.error f) ∧ f.isExpected = false ↔
        act.Strays v.traced now e f := by
  intro act
  obtain ⟨g, hrule, hg⟩ | ⟨r, hrule⟩ := active_rule_cases hanswers.rules ruleId
  · refine expected_answer (by rw [execute_answer, hrule]) hg ?_
    rintro f ⟨r, hr, _⟩
    cases hrule.symm.trans hr
  have hcases : ∀ f, act.Strays v.traced now e f ↔ _ :=
    execute_strays_cases hanswers hrule data context triggeredBy
  cases hrate : RateLimit.check e.executions r.id r.settings now with
  | error g =>
      obtain ⟨fault, rfl, _⟩ :=
        (RateLimit.check_eq_error_iff (hanswers.counted r.id) (hanswers.started r.id)).mp hrate
      rw [execute_answer, hrule]
      dsimp only
      rw [hrate]
      refine ⟨nofun, fun f => ?_⟩
      rw [hcases, hrate]
      constructor
      · rintro ⟨h, _⟩
        exact .inl (congrArg _ (Except.error.inj (Option.some.inj h)))
      · rintro (h | ⟨h, _⟩)
        · obtain rfl := Except.error.inj h
          exact ⟨rfl, rfl⟩
        · cases h
  | ok reason? =>
      cases reason? with
      | some reason =>
          obtain ⟨g, hanswer, hg⟩ := refused_answer (v := v) hk hnow (hkeeps r ⟨ruleId, hrule⟩) hrule hrate
            data context triggeredBy
          refine expected_answer hanswer hg fun f => ?_
          rw [hcases, hrate]
          rintro (h | ⟨h, _⟩) <;> cases h
      | none => exact unlimited_strays_iff hk hnow (hkeeps r ⟨ruleId, hrule⟩) hanswers hrule hrate _ _ _

end Engine

end Rulebook
