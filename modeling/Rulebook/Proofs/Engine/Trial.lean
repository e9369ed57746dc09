import Rulebook.Proofs.Engine.Answer
import Rulebook.Proofs.Identifier
import Rulebook.Proofs.Run.Course
import Rulebook.Proofs.Store.Trial

/-!
# Trials of an engine

An act adds at most one trial to the store, and then it executes a rule whose limits were checked
(`Engine.act_trials`). Nothing else that is done to an engine adds, changes or removes a trial: what goes on is a
later version of an execution whose trial is told already (`Core.Advances`). So the trials of an engine are the
history of its calls that were recorded, in their order (`Engine.after_recorded`).
-/

namespace Rulebook

/-- A later version of an execution is the same trial. -/
theorem Execution.Precedes.trial_eq {y x : Execution} (h : y.Precedes x) : x.trial = y.trial := by
  have horigin := h.origin
  simp only [Execution.origin, Prod.mk.injEq] at horigin
  simp only [Execution.trial, h.startedAt, horigin]

namespace Environment

variable {σ : Type} (v : Environment σ) (now : Moment)

/-- Running actions keeps the trial. -/
theorem sustains_trial (u : Trial) : v.Sustains now fun c => c.execution.trial = u where
  begins _ _ _ _ _ h := h
  resumes _ _ _ h := h
  notes _ _ h := h
  starts _ _ h := h
  counts _ _ h := h
  finishes _ _ _ _ _ h := h
  fails c _ h := (c.execution.precedes_move_to now _ rfl).trial_eq.trans h

/-- An execution is the same trial after the actions of a rule were run. -/
theorem run_actions_trial (r : Rule) (c : Course σ) :
    (v.runActions now r c).1.execution.trial = c.execution.trial :=
  (v.sustains_trial now c.execution.trial).run_actions r c rfl

/-- An execution is the same trial after the actions of a rule went on. -/
theorem resume_actions_trial (r : Rule) (lane : Nat) (p : Phase) (c : Course σ) :
    (v.resumeActions now r lane p c).1.execution.trial = c.execution.trial :=
  (v.sustains_trial now c.execution.trial).resume_actions r lane p c rfl

end Environment

namespace Core

variable {σ : Type} {k k' : Core σ} {v : Environment σ} {now : Moment} {r : Rule} {x : Execution} {id : String}
  {u : Trial}

/-- The store of a core tells an execution as one of the trials. -/
def Tells (k : Core σ) (x : Execution) : Prop :=
  ∃ u ∈ k.executions.trials, k.executions.told x.trial = .ok u

/-- The trials of a core have numbered identifiers, one for each number, and every run is that of a trial. -/
structure Recorded (k : Core σ) : Prop where
  ids : (k.executions.trials.map (·.id)).Nodup
  numbered : ∀ u ∈ k.executions.trials, ∃ n, n ≤ k.executionIds ∧ u.id = identifier "exec" n
  runs : ∀ run ∈ k.runs, k.Tells run.execution

/-- From one core to another only the execution of a trial went on: versions of it were written, and its runs were
put, added or dropped. -/
inductive Advances (u : Trial) (k : Core σ) : Core σ → Prop where
  /-- Nothing happened. -/
  | refl : Advances u k k
  /-- A version was written. -/
  | save {k' : Core σ} {x : Execution} (hx : x.trial = u) : Advances u k k' → Advances u k (k'.save x)
  /-- A run was replaced. -/
  | put {k' : Core σ} {run : Run} (hrun : run.execution.trial = u) : Advances u k k' → Advances u k (k'.putRun run)
  /-- A run was added. -/
  | add {k' : Core σ} {run : Run} (hrun : run.execution.trial = u) : Advances u k k' → Advances u k (k'.addRun run)
  /-- The runs were dropped. -/
  | drop {k' : Core σ} : Advances u k k' → Advances u k (k'.dropRun u.id)
  /-- It cannot be cancelled any more. -/
  | release {k' : Core σ} : Advances u k k' → Advances u k (k'.release u.id)
  /-- The services worked. -/
  | work {k' : Core σ} (world : σ) : Advances u k k' → Advances u k { k' with world }

/-- A run that is found is one of the runs, and that of the identifier. -/
theorem mem_of_run {run : Run} (h : k.run? id = some run) : run ∈ k.runs ∧ run.execution.id = id :=
  ⟨List.mem_of_find?_eq_some h, by simpa using List.find?_some h⟩

/-! ### What goes on -/

/-- The record of the execution was closed. -/
theorem Advances.close (hx : x.trial = u) (h : k.Advances u k') : k.Advances u (k'.close x) := by
  have hid : x.id = u.id := congrArg Trial.id hx
  rw [Core.close, hid]
  exact (h.save hx).release

/-- When a run goes on, its execution does. -/
theorem go_on_advances {run : Run} (hrun : k.run? id = some run) (v : Environment σ) (now : Moment) (lane : Nat) :
    k.Advances run.execution.trial (k.goOn v now id lane) := by
  have hid : id = run.execution.trial.id := (mem_of_run hrun).2.symm
  have htrial := v.resume_actions_trial now run.rule lane run.phase ⟨k.world, run.execution, []⟩
  rw [goOn, hrun]
  dsimp only
  rcases hresume : v.resumeActions now run.rule lane run.phase ⟨k.world, run.execution, []⟩
    with ⟨c, _ | p⟩ <;> rw [hresume] at htrial
  · rcases run.watch with timed | _ | _
    · rw [hid]
      exact .close ((c.execution.precedes_close now).trial_eq.trans htrial) (.drop (.work _ .refl))
    · rw [hid]
      exact .save htrial (.drop (.work _ .refl))
    · rw [hid]
      exact .drop (.work _ .refl)
  · exact .put htrial (.work _ .refl)

/-- When the time of a run runs out, its execution goes on to its end. -/
theorem time_out_advances {run : Run} (hrun : k.run? id = some run) (now : Moment) :
    k.Advances run.execution.trial (k.timeOut now id) := by
  have htrial : (run.execution.expired run.rule now).trial = run.execution.trial :=
    (Execution.precedes_close _ now).trial_eq.trans (Execution.precedes_move_to _ now _ rfl).trial_eq
  rw [timeOut, hrun]
  dsimp only
  split
  · exact .close htrial (.put htrial .refl)
  · exact .refl

/-- When a run is cancelled, its execution goes on to its end. -/
theorem cancel_advances {run : Run} (hrun : k.run? id = some run) (now : Moment) (tenantId : Option String) :
    k.Advances run.execution.trial (k.cancel now id tenantId) := by
  have htrial := (run.execution.precedes_move_to now (some "Execution cancelled")
    (rfl : ExecutionStatus.isTerminal .cancelled = true)).trial_eq
  rw [cancel, hrun]
  cases k.inFlight.contains id with
  | false => exact .refl
  | true =>
      dsimp only
      split
      next =>
        rcases hmove : run.execution.moveTo .cancelled now (some "Execution cancelled") with ⟨y, moved⟩
        rw [hmove] at htrial
        have hput : k.Advances run.execution.trial (k.putRun { run with execution := y }) := .put htrial .refl
        cases moved with
        | false => exact hput
        | true => exact .save htrial hput
      next => exact .refl

/-- When an execution is carried out, it goes on. -/
theorem launch_advances (k : Core σ) (v : Environment σ) (now : Moment) (r : Rule) (x : Execution)
    (conditions : Except NumberFault Bool) : k.Advances x.trial (k.launch v now r x conditions) := by
  rcases conditions with f | _ | _
  · exact .close (x.precedes_move_to now _ rfl).trial_eq .refl
  · have hunmet : (x.unmet now).trial = x.trial := (Execution.precedes_move_to _ now _ rfl).trial_eq
    exact .close hunmet .refl
  · have htrial := v.run_actions_trial now r ⟨k.world, x, []⟩
    rw [launch]
    rcases hrun : v.runActions now r ⟨k.world, x, []⟩ with ⟨c, _ | p⟩ <;> rw [hrun] at htrial
    · exact .close ((c.execution.precedes_close now).trial_eq.trans htrial) (.work _ .refl)
    · exact .add htrial (.work _ .refl)

/-- What holds of the trials of all runs still does when the execution of such a trial goes on. -/
theorem Advances.runs {P : Trial → Prop} (h : k.Advances u k') (hu : P u)
    (hruns : ∀ run ∈ k.runs, P run.execution.trial) : ∀ run ∈ k'.runs, P run.execution.trial := by
  induction h with
  | refl => exact hruns
  | save _ _ ih => exact ih
  | @put k' run hrun _ ih =>
      refine List.forall_mem_map.mpr fun old hold => ?_
      split
      · exact hrun ▸ hu
      · exact ih old hold
  | add hrun _ ih => exact List.forall_mem_append.mpr ⟨ih, List.forall_mem_singleton.mpr (hrun ▸ hu)⟩
  | drop _ ih => exact fun run hrun => ih run (List.mem_filter.mp hrun).1
  | release _ ih => exact ih
  | work _ _ ih => exact ih

/-- What holds of the trials of all runs still does when a caller goes away. -/
theorem abandon_runs {P : Trial → Prop} (hruns : ∀ run ∈ k.runs, P run.execution.trial) (id : String) :
    ∀ run ∈ (k.abandon id).runs, P run.execution.trial := by
  rw [abandon]
  rcases (k.run? id).map Run.watch with _ | (_ | _) | _ | _
  · exact hruns
  · exact fun run hrun => hruns run (List.mem_filter.mp hrun).1
  · refine List.forall_mem_map.mpr fun old hold => ?_
    split <;> exact hruns old hold
  · exact hruns
  · exact hruns

/-- While the execution of a trial goes on, the trials stay as they are. -/
theorem Advances.recorded (hk : k.Recorded) {t : Trial} (ht : t ∈ k.executions.trials)
    (hu : k.executions.told u = .ok t) (h : k.Advances u k') :
    k'.Recorded ∧ k'.executions.trials = k.executions.trials ∧ k'.executions.told = k.executions.told ∧
      k'.executionIds = k.executionIds := by
  induction h with
  | refl => exact ⟨hk, rfl, rfl, rfl⟩
  | @save k' x hx _ ih =>
      obtain ⟨hk', htrials, htold, hids⟩ := ih
      have htrials' : (k'.executions.saved x).trials = k'.executions.trials :=
        ExecutionStore.trials_saved hk'.ids (htrials ▸ ht) (by rw [htold, hx, hu])
      have htold' : (k'.executions.saved x).told = k'.executions.told := ExecutionStore.told_saved _ _
      refine ⟨⟨?_, fun w hw => ?_, fun run hrun => ?_⟩, htrials'.trans htrials, htold'.trans htold, hids⟩
      · exact htrials' ▸ hk'.ids
      · exact hk'.numbered w (htrials' ▸ hw)
      · obtain ⟨w, hw, htells⟩ := hk'.runs run hrun
        exact ⟨w, htrials' ▸ hw, htold' ▸ htells⟩
  | @put k' run hrun _ ih =>
      obtain ⟨hk', htrials, htold, hids⟩ := ih
      refine ⟨⟨hk'.ids, hk'.numbered, fun run' hrun' => ?_⟩, htrials, htold, hids⟩
      obtain ⟨old, hold, rfl⟩ := List.mem_map.mp hrun'
      split
      · exact ⟨t, htrials ▸ ht, by rw [show (k'.putRun run).executions.told = _ from htold, hrun, hu]⟩
      · exact hk'.runs old hold
  | @add k' run hrun _ ih =>
      obtain ⟨hk', htrials, htold, hids⟩ := ih
      refine ⟨⟨hk'.ids, hk'.numbered, fun run' hrun' => ?_⟩, htrials, htold, hids⟩
      obtain hold | hnew := List.mem_append.mp hrun'
      · exact hk'.runs run' hold
      · rw [List.mem_singleton.mp hnew]
        exact ⟨t, htrials ▸ ht, by rw [show (k'.addRun run).executions.told = _ from htold, hrun, hu]⟩
  | drop _ ih =>
      obtain ⟨hk', hrest⟩ := ih
      exact ⟨⟨hk'.ids, hk'.numbered, fun run hrun => hk'.runs run (List.mem_filter.mp hrun).1⟩, hrest⟩
  | release _ ih =>
      obtain ⟨hk', hrest⟩ := ih
      exact ⟨⟨hk'.ids, hk'.numbered, hk'.runs⟩, hrest⟩
  | work _ _ ih =>
      obtain ⟨hk', hrest⟩ := ih
      exact ⟨⟨hk'.ids, hk'.numbered, hk'.runs⟩, hrest⟩

/-- While the execution of a run goes on, the trials stay as they are. -/
theorem Advances.recorded_run {run : Run} (hk : k.Recorded) (hrun : k.run? id = some run)
    (h : k.Advances run.execution.trial k') :
    k'.Recorded ∧ k'.executions.trials = k.executions.trials := by
  obtain ⟨t, ht, htold⟩ := hk.runs run (mem_of_run hrun).1
  obtain ⟨hrecorded, htrials, _⟩ := h.recorded hk ht htold
  exact ⟨hrecorded, htrials⟩

/-- The going away of a caller leaves the trials. -/
theorem abandon_recorded (hk : k.Recorded) (id : String) :
    (k.abandon id).Recorded ∧ (k.abandon id).executions = k.executions := by
  rw [abandon]
  rcases (k.run? id).map Run.watch with _ | (_ | _) | _ | _
  · exact ⟨⟨hk.ids, hk.numbered, hk.runs⟩, rfl⟩
  · exact ⟨⟨hk.ids, hk.numbered, fun run hrun => hk.runs run (List.mem_filter.mp hrun).1⟩, rfl⟩
  · refine ⟨⟨hk.ids, hk.numbered, fun run hrun => ?_⟩, rfl⟩
    obtain ⟨old, hold, rfl⟩ := List.mem_map.mp hrun
    have hsame : (if old.execution.id == id then { old with watch := .nobody } else old).execution =
        old.execution := by split <;> rfl
    show k.Tells _
    rw [hsame]
    exact hk.runs old hold
  · exact ⟨⟨hk.ids, hk.numbered, hk.runs⟩, rfl⟩
  · exact ⟨⟨hk.ids, hk.numbered, hk.runs⟩, rfl⟩

/-- No trial has the next identifier. -/
theorem Recorded.next_fresh (hk : k.Recorded) :
    ∀ u ∈ k.executions.trials, u.id ≠ identifier "exec" (k.executionIds + 1) := by
  intro u hu heq
  obtain ⟨n, hn, hid⟩ := hk.numbered u hu
  have hnumber := identifier_injective "exec" (hid.symm.trans heq)
  omega

/-- What is told of an execution once it is added to the store. -/
theorem created_trials {t : ExecutionStore} (hk : k.Recorded) (hx : x.id = identifier "exec" (k.executionIds + 1))
    (h : k.executions.create x = .ok t) (k' : Core σ) (hstore : k'.executions = t)
    (hids : k'.executionIds = k.executionIds + 1) (hruns : k'.runs = k.runs) :
    ∃ u, k.executions.told x.trial = .ok u ∧ k'.executions.trials = k.executions.trials ++ [u] ∧
      k'.Tells x ∧ k'.Recorded := by
  have hfresh : ∀ u ∈ k.executions.trials, u.id ≠ x.id := hx ▸ hk.next_fresh
  obtain ⟨u, hu, htrials⟩ := ExecutionStore.trials_of_create h hfresh
  have htold : k'.executions.told = k.executions.told := by
    rw [hstore, ← ExecutionStore.created_eq h, ExecutionStore.told_created]
  have hkept : ∀ y, k.Tells y → k'.Tells y := by
    rintro y ⟨w, hw, hy⟩
    rw [Tells, hstore, htrials, ← hstore, htold]
    exact ⟨w, List.mem_append_left _ hw, hy⟩
  have huid : u.id = x.id := (ExecutionStore.told_as hu).id
  refine ⟨u, hu, hstore ▸ htrials, ?_, ?_, ?_, ?_⟩
  · rw [Tells, htold, hstore, htrials]
    exact ⟨u, List.mem_append_right _ (List.mem_singleton_self u), hu⟩
  · rw [hstore, htrials]
    exact Keyed.nodup_add hk.ids fun w hw => huid ▸ hfresh w hw
  · rw [hstore, htrials, hids]
    intro w hw
    obtain hw | hw := List.mem_append.mp hw
    · obtain ⟨n, hn, hid⟩ := hk.numbered w hw
      exact ⟨n, by omega, hid⟩
    · rw [List.mem_singleton.mp hw]
      exact ⟨_, Nat.le_refl _, huid.trans hx⟩
  · rw [hruns]
    exact fun run hrun => hkept run.execution (hk.runs run hrun)

end Core

namespace Engine

variable {σ : Type} {v : Environment σ} {now : Moment} {e : Engine σ}

/-- The ring of an alarm lets the execution of its run go on, or it does nothing to the core. -/
theorem ring_advances (e : Engine σ) (v : Environment σ) (now : Moment) (t : Timer) :
    (∃ run, e.core.run? t.executionId = some run ∧
        e.core.Advances run.execution.trial (e.ring v now t).1.core) ∨
      e.core.run? t.executionId = none ∧ (e.ring v now t).1.core = e.core := by
  cases t with
  | wake id lane =>
      have hcore : (e.ring v now (.wake id lane)).1.core = e.core.goOn v now id lane := ring_core v now e _
      rw [hcore]
      cases hrun : e.core.run? id with
      | none => exact .inr ⟨hrun, by rw [Core.goOn, hrun]⟩
      | some run => exact .inl ⟨run, hrun, Core.go_on_advances hrun v now lane⟩
  | expire id =>
      have hcore : (e.ring v now (.expire id)).1.core = e.core.timeOut now id := ring_core v now e _
      rw [hcore]
      cases hrun : e.core.run? id with
      | none => exact .inr ⟨hrun, by rw [Core.timeOut, hrun]⟩
      | some run => exact .inl ⟨run, hrun, Core.time_out_advances hrun now⟩

/-- Cancelling lets the execution of a run go on to its end, or it does nothing to the core. -/
theorem core_of_cancel (e : Engine σ) (now : Moment) (id : String) (tenantId : Option String) :
    (∃ run, e.core.run? id = some run ∧
        e.core.Advances run.execution.trial (e.perform (cancel now id tenantId)).1.core) ∨
      e.core.run? id = none ∧ (e.perform (cancel now id tenantId)).1.core = e.core := by
  rw [cancel_core]
  cases hrun : e.core.run? id with
  | none => exact .inr ⟨rfl, by rw [Core.cancel, hrun]⟩
  | some run => exact .inl ⟨run, rfl, Core.cancel_advances hrun now tenantId⟩

/-- An act is recorded as a trial: it executes a rule in use whose limits were checked, and the execution starts
at once unless there is a reason to refuse it. -/
structure Tries (e : Engine σ) (now : Moment) (act : Act) (r : Rule) (reason : Option RateLimit)
    (u : Trial) : Prop where
  call : ∃ ruleId data context triggeredBy, act = .execute ruleId data context triggeredBy ∧
    e.activeRule ruleId = .ok r
  check : RateLimit.check e.executions r.id r.settings now = .ok reason
  told : e.executions.told ⟨e.nextExecution, r.id, r.tenantId, now,
    if reason = none then some now else none⟩ = .ok u

/-- Executing a rule adds at most the trial of the execution. -/
theorem execute_trials (he : e.core.Recorded) (ruleId : String) (data : Fields) (context : ExecutionContext)
    (triggeredBy : Option String) :
    let k := (e.execute v now ruleId data context triggeredBy).1.core
    k.Recorded ∧ (k.executions.trials = e.executions.trials ∨
      ∃ r reason u, e.Tries now (.execute ruleId data context triggeredBy) r reason u ∧
        k.executions.trials = e.executions.trials ++ [u]) := by
  dsimp only
  obtain ⟨_, h⟩ | h | ⟨r, reason, hrule, hcheck, h⟩ | ⟨r, x, t, hrule, hcheck, hx, hcreate, h⟩ :=
    e.execute_core v now ruleId data context triggeredBy <;> rw [h]
  · exact ⟨he, .inl rfl⟩
  · refine ⟨⟨he.ids, fun u hu => ?_, he.runs⟩, .inl rfl⟩
    obtain ⟨n, hn, hid⟩ := he.numbered u hu
    exact ⟨n, Nat.le_succ_of_le hn, hid⟩
  · have htrial : (Execution.refused r e.nextExecution now data context triggeredBy reason).trial =
        ⟨e.nextExecution, r.id, r.tenantId, now, none⟩ :=
      (Execution.precedes_move_to _ now _ rfl).trial_eq
    -- a store that cannot keep the refused execution stays as it is
    cases hcreate : e.executions.create
        (Execution.refused r e.nextExecution now data context triggeredBy reason) with
    | error f =>
        have hsame : e.executions.created
            (Execution.refused r e.nextExecution now data context triggeredBy reason) = e.executions := by
          rw [ExecutionStore.created, hcreate]
        have hstore : (e.core.turnedDown (Execution.refused r e.nextExecution now data context triggeredBy
            reason)).executions = e.core.executions := hsame
        refine ⟨⟨?_, fun u hu => ?_, fun run hrun => ?_⟩, .inl (congrArg ExecutionStore.trials hstore)⟩
        · exact hstore ▸ he.ids
        · obtain ⟨n, hn, hid⟩ := he.numbered u (hstore ▸ hu)
          exact ⟨n, Nat.le_succ_of_le hn, hid⟩
        · have htold := he.runs run hrun
          rw [Core.Tells] at htold ⊢
          exact hstore ▸ htold
    | ok t =>
        obtain ⟨u, hu, htrials, _, hrecorded⟩ := Core.created_trials he (congrArg Trial.id htrial) hcreate
          (e.core.turnedDown _) (ExecutionStore.created_eq hcreate) rfl rfl
        refine ⟨hrecorded, .inr ⟨r, some reason, u, ⟨⟨_, _, _, _, rfl, hrule⟩, hcheck, ?_⟩, htrials⟩⟩
        exact htrial ▸ hu
  · obtain ⟨u, hu, htrials, htells, hrecorded⟩ := Core.created_trials he (by rw [hx]; rfl) hcreate
      (e.core.opened x) (ExecutionStore.created_eq hcreate) rfl rfl
    obtain ⟨t', ht', htold'⟩ := htells
    obtain ⟨hlaunch, hlaunched, _⟩ := Core.Advances.recorded hrecorded ht' htold'
      (Core.launch_advances _ v now r x (Condition.allHold r.conditions x.seen))
    refine ⟨hlaunch, .inr ⟨r, none, u, ⟨⟨_, _, _, _, rfl, hrule⟩, hcheck, ?_⟩, hlaunched.trans htrials⟩⟩
    rw [hx] at hu
    exact hu

/-- An act adds at most one trial, that of an execution whose limits were checked. -/
theorem act_trials (he : e.core.Recorded) (v : Environment σ) (now : Moment) (act : Act) :
    (act.apply v now e).core.Recorded ∧
      ((act.apply v now e).executions.trials = e.executions.trials ∨
        ∃ r reason u, e.Tries now act r reason u ∧
          (act.apply v now e).executions.trials = e.executions.trials ++ [u]) := by
  have hsame : ∀ k', (act.apply v now e).core = k' → k'.Recorded ∧ k'.executions.trials = e.executions.trials →
      (act.apply v now e).core.Recorded ∧
        ((act.apply v now e).executions.trials = e.executions.trials ∨
          ∃ r reason u, e.Tries now act r reason u ∧
            (act.apply v now e).executions.trials = e.executions.trials ++ [u]) := by
    intro k' hcore h
    have htrials := congrArg (fun k => k.executions.trials) hcore
    exact ⟨hcore ▸ h.1, .inl (htrials.trans h.2)⟩
  cases act with
  | createRule d => exact hsame _ (leaves_create_rule v now d e) ⟨he, rfl⟩
  | updateRule ruleId d tenantId => exact hsame _ (leaves_update_rule v now ruleId d tenantId e) ⟨he, rfl⟩
  | deactivateRule ruleId tenantId => exact hsame _ (leaves_deactivate_rule now ruleId tenantId e) ⟨he, rfl⟩
  | setUp => exact hsame _ (leaves_set_up v now e) ⟨he, rfl⟩
  | execute ruleId data context triggeredBy => exact execute_trials he ruleId data context triggeredBy
  | ring t =>
      obtain ⟨run, hrun, h⟩ | ⟨_, h⟩ := ring_advances e v now t
      · exact hsame _ rfl (h.recorded_run he hrun)
      · exact hsame _ h ⟨he, rfl⟩
  | cancel id tenantId =>
      obtain ⟨run, hrun, h⟩ | ⟨_, h⟩ := core_of_cancel e now id tenantId
      · exact hsame _ rfl (h.recorded_run he hrun)
      · exact hsame _ h ⟨he, rfl⟩
  | abandon id =>
      have habandon := Core.abandon_recorded he id
      exact hsame _ (abandon_core e id) ⟨habandon.1, congrArg ExecutionStore.trials habandon.2⟩
  | restart => exact hsame _ rfl ⟨⟨he.ids, he.numbered, he.runs⟩, rfl⟩
  | schedule s => exact hsame _ rfl ⟨he, rfl⟩
  | note notes => exact hsame _ rfl ⟨he, rfl⟩
  | poll r =>
      rw [Act.apply, host] at *
      cases hsource : v.source with
      | none => exact ⟨he, .inl rfl⟩
      | some reading => exact ⟨⟨he.ids, he.numbered, he.runs⟩, .inl rfl⟩
  | setAlarms => exact hsame _ rfl ⟨he, rfl⟩

/-- What holds of the trials of all runs, and of the one that a call begins, holds of those after an act. -/
theorem act_runs {P : Trial → Prop} {act : Act} (hruns : ∀ run ∈ e.runs, P run.execution.trial)
    (hcall : ∀ ruleId data context triggeredBy r, act = .execute ruleId data context triggeredBy →
      e.activeRule ruleId = .ok r → P ⟨e.nextExecution, r.id, r.tenantId, now, some now⟩) (v : Environment σ) :
    ∀ run ∈ (act.apply v now e).runs, P run.execution.trial := by
  have hsame : ∀ k' : Core σ, (act.apply v now e).core = k' → (∀ run ∈ k'.runs, P run.execution.trial) →
      ∀ run ∈ (act.apply v now e).runs, P run.execution.trial := fun k' hk' h => by
    have hruns' : (act.apply v now e).runs = k'.runs := congrArg Core.runs hk'
    exact hruns' ▸ h
  cases act with
  | createRule d => exact hsame _ (leaves_create_rule v now d e) hruns
  | updateRule ruleId d tenantId => exact hsame _ (leaves_update_rule v now ruleId d tenantId e) hruns
  | deactivateRule ruleId tenantId => exact hsame _ (leaves_deactivate_rule now ruleId tenantId e) hruns
  | setUp => exact hsame _ (leaves_set_up v now e) hruns
  | execute ruleId data context triggeredBy =>
      obtain ⟨_, h⟩ | h | ⟨r, reason, hrule, _, h⟩ | ⟨r, x, t, hrule, _, hx, _, h⟩ :=
        e.execute_core v now ruleId data context triggeredBy
      · exact hsame _ h hruns
      · exact hsame _ h hruns
      · exact hsame _ h hruns
      · refine hsame _ h ((Core.launch_advances _ v now r x _).runs ?_ hruns)
        rw [hx]
        exact hcall ruleId data context triggeredBy r rfl hrule
  | ring t =>
      obtain ⟨run, hrun, h⟩ | ⟨_, h⟩ := ring_advances e v now t
      · exact hsame _ rfl (h.runs (hruns run (Core.mem_of_run hrun).1) hruns)
      · exact hsame _ h hruns
  | cancel id tenantId =>
      obtain ⟨run, hrun, h⟩ | ⟨_, h⟩ := core_of_cancel e now id tenantId
      · exact hsame _ rfl (h.runs (hruns run (Core.mem_of_run hrun).1) hruns)
      · exact hsame _ h hruns
  | abandon id => exact hsame _ (abandon_core e id) (Core.abandon_runs hruns id)
  | restart | schedule s | note notes | setAlarms => exact hsame _ rfl hruns
  | poll r =>
      rw [Act.apply, host]
      cases v.source <;> exact hruns

/-- The trials of a new engine are recorded: there are none. -/
theorem start_recorded (rules : RuleStore) {p : ExecutionStore} (hempty : p.IsEmpty) (world : σ) :
    (start rules p world).core.Recorded := by
  have hnone : (start rules p world).core.executions.trials = [] := hempty.trials_eq_nil
  refine ⟨by rw [hnone]; exact .nil, fun u hu => ?_, fun run hrun => ?_⟩
  · rw [hnone] at hu
    cases hu
  · cases hrun

/-- Acts leave the trials that were recorded before and add theirs. -/
theorem after_recorded (he : e.core.Recorded) (v : Environment σ) (acts : List (Moment × Act)) :
    (e.after v acts).core.Recorded ∧ e.executions.trials <+: (e.after v acts).executions.trials := by
  induction acts generalizing e with
  | nil => exact ⟨he, List.prefix_refl _⟩
  | cons act acts ih =>
      obtain ⟨hrecorded, htrials⟩ := act_trials he v act.1 act.2
      obtain ⟨hafter, hprefix⟩ := ih hrecorded
      refine ⟨hafter, List.IsPrefix.trans ?_ hprefix⟩
      obtain hsame | ⟨r, reason, u, _, hadded⟩ := htrials
      · rw [hsame]
      · rw [hadded]
        exact List.prefix_append _ _

end Engine

end Rulebook
