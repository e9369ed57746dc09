import Rulebook.Proofs.Engine.Named
import Rulebook.Proofs.Engine.Statistics

/-!
# Which executions are recorded

A call that is answered with the identifier of an execution has the version recorded in the rule with which the record
of the execution is closed: `Act.closing?` tells which one this is. The version is that of the trial that is counted
(`Engine.answered_records`), and how it ended is what the success rate of the rule takes in.
-/

namespace Rulebook

/-- The version with which an act closes the record of an execution for its caller, if it does. -/
def Act.closing? {σ : Type} (v : Environment σ) (now : Moment) (e : Engine σ) : Act → Option Execution
  | execute ruleId data context triggeredBy =>
    (e.activeRule ruleId).toOption.bind fun r =>
      let x := Execution.opened r e.nextExecution now data context triggeredBy
      v.launched? now e.world r x (Condition.allHold r.conditions x.seen)
  | ring t => e.closed? v now t
  | _ => none

namespace Engine

variable {σ : Type} {v : Environment σ} {now : Moment} {e e' : Engine σ} {x : Execution} {id : String}

/-- An execution was recorded in its rule, if the rule is kept; else the rules are as they were. -/
def Records (e : Engine σ) (x : Execution) (e' : Engine σ) : Prop :=
  e.rules.get x.ruleId = .ok none ∧ e'.rules = e.rules ∨
    ∃ q metadata, e.rules.get x.ruleId = .ok (some q) ∧ q.metadata.recording x = .ok metadata ∧
      e.rules.update { q with metadata } = .ok e'.rules

/-- Writing down in the rule how an execution went records it. -/
theorem record_outcome_records (h : e.perform (recordOutcome x) = (e', .ok ())) : e.Records x e' := by
  rw [recordOutcome] at h
  obtain ⟨_, _, hget, h⟩ := perform_bind_eq_ok h
  cases hget
  obtain ⟨_, found, hfound, h⟩ := perform_bind_eq_ok h
  rw [perform_lift, Prod.mk.injEq] at hfound
  obtain ⟨rfl, hfound⟩ := hfound
  cases found with
  | none =>
      cases h
      exact .inl ⟨hfound, rfl⟩
  | some q =>
      obtain ⟨_, metadata, hrecording, h⟩ := perform_bind_eq_ok h
      rw [perform_lift, Prod.mk.injEq] at hrecording
      obtain ⟨rfl, hrecording⟩ := hrecording
      rw [saveRule] at h
      obtain ⟨_, _, hget, h⟩ := perform_bind_eq_ok h
      cases hget
      obtain ⟨_, rules, hupdate, h⟩ := perform_bind_eq_ok h
      rw [perform_lift, Prod.mk.injEq] at hupdate
      obtain ⟨rfl, hupdate⟩ := hupdate
      cases h
      exact .inr ⟨q, metadata, hfound, hrecording, hupdate⟩

/-- Closing the record of an execution records it in its rule. -/
theorem close_record_records (h : e.perform (closeRecord x) = (e', .ok id)) : e.Records x e' := by
  rw [closeRecord] at h
  obtain ⟨_, _, hland, h⟩ := perform_bind_eq_ok h
  cases hland
  obtain ⟨saved, _, hsave, h⟩ := perform_bind_eq_ok h
  have hsaved : saved.rules = e.rules := by
    have hbooks := leaves_save_execution x { e with inFlight := e.inFlight.filter (· != x.id) }
    rw [hsave] at hbooks
    exact congrArg Prod.fst hbooks
  obtain ⟨recorded, _, hrecord, h⟩ := perform_bind_eq_ok h
  cases h
  have hrecords := record_outcome_records hrecord
  rw [Records, hsaved] at hrecords
  exact hrecords

/-- Running the actions of a rule records the version with which the record is closed if that answers the call. -/
theorem run_phase_records {r : Rule} (h : e.perform (runPhase v now r x) = (e', .ok (.ended (.ok id)))) :
    ∃ y, v.launched? now e.world r x (.ok true) = some y ∧ e.Records y e' := by
  rw [runPhase] at h
  obtain ⟨_, _, hlimit, h⟩ := perform_bind_eq_ok h
  cases hlimit
  obtain ⟨_, _, hget, h⟩ := perform_bind_eq_ok h
  cases hget
  rw [Environment.launched?]
  dsimp only at h ⊢
  rcases hrun : v.runActions now r ⟨e.world, x, []⟩ with ⟨c, _ | p⟩ <;> rw [hrun] at h
  · obtain ⟨_, _, hmodify, h⟩ := perform_bind_eq_ok h
    cases hmodify
    obtain ⟨_, _, hnote, h⟩ := perform_bind_eq_ok h
    cases hnote
    obtain ⟨_, _, hclose, h⟩ := perform_bind_eq_ok h
    cases h
    have hrecords := close_record_records hclose
    exact ⟨_, rfl, hrecords⟩
  · cases h

/-- Carrying out an execution records the version with which its record is closed if that answers the call. -/
theorem carry_out_records {r : Rule} (h : e.perform (carryOut v now r x) = (e', .ok (.ended (.ok id)))) :
    ∃ y, v.launched? now e.world r x (Condition.allHold r.conditions x.seen) = some y ∧ e.Records y e' := by
  rw [carryOut] at h
  obtain ⟨_, _, hnote, h⟩ := perform_bind_eq_ok h
  cases hnote
  rcases hconditions : Condition.allHold r.conditions x.seen with f | _ | _ <;> rw [hconditions] at h
  · dsimp only at h
    rw [crash] at h
    obtain ⟨_, _, _, h⟩ := perform_bind_eq_ok h
    obtain ⟨_, _, _, h⟩ := perform_bind_eq_ok h
    obtain ⟨_, _, _, h⟩ := perform_bind_eq_ok h
    cases h
  · obtain ⟨_, _, hclose, h⟩ := perform_bind_eq_ok h
    cases h
    have hrecords := close_record_records hclose
    exact ⟨_, rfl, hrecords⟩
  · have hrecords := run_phase_records h
    exact hrecords

/-- Going on with a run records the version with which its record is closed if that answers its call. -/
theorem go_on_records {executionId : String} {lane : Nat}
    (h : e.perform (goOn v now executionId lane) = (e', .ok (some id))) :
    ∃ y, e.closed? v now (.wake executionId lane) = some y ∧ e.Records y e' := by
  rw [goOn] at h
  obtain ⟨_, _, hget, h⟩ := perform_bind_eq_ok h
  cases hget
  rw [closed?]
  dsimp only at h ⊢
  cases hrun : e.run? executionId with
  | none =>
      rw [hrun] at h
      cases h
  | some run =>
      rw [hrun] at h
      obtain ⟨_, _, hget, h⟩ := perform_bind_eq_ok h
      cases hget
      dsimp only [Option.bind_some] at h ⊢
      rw [Environment.returned?]
      rcases hresume : v.resumeActions now run.rule lane run.phase ⟨e.world, run.execution, []⟩ with ⟨c, _ | p⟩ <;>
        rw [hresume] at h <;> obtain ⟨_, _, hmodify, h⟩ := perform_bind_eq_ok h <;> cases hmodify <;>
        obtain ⟨_, _, hnote, h⟩ := perform_bind_eq_ok h <;> cases hnote
      · rcases hwatch : run.watch with timed | _ | _ <;> rw [hwatch] at h
        · obtain ⟨_, _, hdrop, h⟩ := perform_bind_eq_ok h
          cases hdrop
          obtain ⟨_, _, hclose, h⟩ := perform_bind_eq_ok h
          cases h
          have hrecords := close_record_records hclose
          exact ⟨_, rfl, hrecords⟩
        · obtain ⟨_, _, _, h⟩ := perform_bind_eq_ok h
          obtain ⟨_, _, _, h⟩ := perform_bind_eq_ok h
          cases h
        · obtain ⟨_, _, _, h⟩ := perform_bind_eq_ok h
          cases h
      · obtain ⟨_, _, _, h⟩ := perform_bind_eq_ok h
        obtain ⟨_, _, _, h⟩ := perform_bind_eq_ok h
        cases h

/-- Running out of time records the version with which the record is closed if that answers the call. -/
theorem time_out_records {executionId : String} (h : e.perform (timeOut now executionId) = (e', .ok (some id))) :
    ∃ y, e.closed? v now (.expire executionId) = some y ∧ e.Records y e' := by
  rw [timeOut] at h
  obtain ⟨_, _, hget, h⟩ := perform_bind_eq_ok h
  cases hget
  rw [closed?]
  dsimp only at h ⊢
  cases hrun : e.run? executionId with
  | none =>
      rw [hrun] at h
      cases h
  | some run =>
      rw [hrun] at h
      dsimp only [Option.bind_some] at h ⊢
      rcases hwatch : run.watch with (_ | _) | _ | _ <;> rw [hwatch] at h
      · cases h
      · obtain ⟨_, _, hput, h⟩ := perform_bind_eq_ok h
        cases hput
        obtain ⟨_, _, hclose, h⟩ := perform_bind_eq_ok h
        cases h
        have hrecords := close_record_records hclose
        exact ⟨_, rfl, hrecords⟩
      · cases h
      · cases h

variable {ruleId : String} {data : Fields} {context : ExecutionContext} {triggeredBy : Option String} {r : Rule}

/-- What an opened record is, and what opening it leaves. -/
theorem open_record_opened (h : e.perform (openRecord now ruleId data context triggeredBy) = (e', .ok (r, x))) :
    e.activeRule ruleId = .ok r ∧ x = .opened r e.nextExecution now data context triggeredBy ∧
      e'.rules = e.rules ∧ e'.world = e.world := by
  rw [open_record_eq] at h
  split at h
  next => cases h
  next q hq =>
    dsimp only at h
    split at h
    next => cases h
    next => split at h <;> cases h
    next =>
      split at h
      next => cases h
      next =>
        cases h
        exact ⟨hq, rfl, rfl, rfl⟩

/-- A call that is answered at once with an identifier records the version with which the record is closed. -/
theorem execute_records (h : (e.execute v now ruleId data context triggeredBy).2 = .ended (.ok id)) :
    ∃ y, (Act.execute ruleId data context triggeredBy).closing? v now e = some y ∧
      e.Records y (e.execute v now ruleId data context triggeredBy).1 := by
  rcases hbegin : e.perform (begin v now ruleId data context triggeredBy) with ⟨e', f | l⟩ <;>
    rw [execute, hbegin] at h ⊢
  · cases h
  · dsimp only at h ⊢
    subst h
    rw [begin] at hbegin
    obtain ⟨opened, ⟨r, x⟩, hopen, hcarry⟩ := perform_bind_eq_ok hbegin
    obtain ⟨hr, rfl, hrules, hworld⟩ := open_record_opened hopen
    obtain ⟨y, hy, hrecords⟩ := carry_out_records hcarry
    rw [hworld] at hy
    rw [Records, hrules] at hrecords
    refine ⟨y, ?_, hrecords⟩
    rw [Act.closing?, hr]
    exact hy

/-- The ring of an alarm that answers a call with an identifier records the version with which the record is closed. -/
theorem ring_records {t : Timer} {executionId : String} (h : (e.ring v now t).2 = some (executionId, .ok id)) :
    ∃ y, e.closed? v now t = some y ∧ e.Records y (e.ring v now t).1 := by
  cases t with
  | wake executionId lane =>
      rw [ring] at h ⊢
      rcases hgo : e.perform (goOn v now executionId lane) with ⟨e', f | _ | id'⟩ <;> rw [hgo] at h
      · cases h
      · cases h
      · exact go_on_records hgo
  | expire executionId =>
      rw [ring] at h ⊢
      rcases hout : e.perform (timeOut now executionId) with ⟨e', f | _ | id'⟩ <;> rw [hout] at h
      · cases h
      · cases h
      · exact time_out_records hout

/-- The version with which the record of a trial is closed at once is one of the trial. -/
theorem launched_trial {world : σ} {conditions : Except NumberFault Bool} {y : Execution}
    (h : v.launched? now world r x conditions = some y) : y.trial = x.trial := by
  rcases conditions with f | _ | _
  · cases h
    exact (Execution.precedes_move_to _ now _ rfl).trial_eq
  · cases h
    exact (Execution.precedes_move_to { x with result := some Execution.skipped } now _ rfl).trial_eq
  · have htrial := v.run_actions_trial now r ⟨world, x, []⟩
    rw [Environment.launched?] at h
    rcases hrun : v.runActions now r ⟨world, x, []⟩ with ⟨c, _ | p⟩ <;> rw [hrun] at h htrial
    · cases h
      exact (c.execution.precedes_close now).trial_eq.trans htrial
    · cases h

/-- The version with which the record of a run is closed is one of the trial of the run. -/
theorem closed_trial {t : Timer} {y : Execution} (h : e.closed? v now t = some y) :
    (e.run? t.executionId).map (·.execution.trial) = some y.trial := by
  cases t with
  | wake executionId lane =>
      obtain ⟨run, hrun, hreturned⟩ := Option.bind_eq_some_iff.mp h
      have htrial := v.resume_actions_trial now run.rule lane run.phase ⟨e.world, run.execution, []⟩
      rw [Environment.returned?] at hreturned
      rcases hresume : v.resumeActions now run.rule lane run.phase ⟨e.world, run.execution, []⟩ with ⟨c, _ | p⟩ <;>
        rw [hresume] at hreturned htrial
      · rcases hwatch : run.watch with timed | _ | _ <;> rw [hwatch] at hreturned
        · cases hreturned
          rw [Timer.executionId, hrun, (c.execution.precedes_close now).trial_eq]
          exact congrArg some htrial.symm
        · cases hreturned
        · cases hreturned
      · cases hreturned
  | expire executionId =>
      obtain ⟨run, hrun, hexpired⟩ := Option.bind_eq_some_iff.mp h
      split at hexpired
      · cases hexpired
        rw [Timer.executionId, hrun]
        exact congrArg some
          ((Execution.precedes_close _ now).trial_eq.trans (Execution.precedes_move_to _ now _ rfl).trial_eq).symm
      · cases hexpired

/-- A call that is answered with an identifier has the version of its trial recorded with which the record is
closed. -/
theorem answered_records {act : Act} {u : Trial} (h : act.answered? v now e = some u) :
    ∃ y, act.closing? v now e = some y ∧ y.trial = u ∧ e.Records y (act.apply v now e) := by
  cases act with
  | execute ruleId data context triggeredBy =>
      rw [Act.answered?, Act.answer] at h
      rcases hl : (e.execute v now ruleId data context triggeredBy).2 with (f | id) | id <;> rw [hl] at h
      · cases h
      · obtain ⟨y, hy, hrecords⟩ := execute_records hl
        refine ⟨y, hy, ?_, hrecords⟩
        obtain ⟨r, hr, hlaunched⟩ := Option.bind_eq_some_iff.mp hy
        change (e.activeRule ruleId).toOption.map _ = some u at h
        rw [hr] at h
        exact (launched_trial hlaunched).trans (Option.some.inj h)
      · cases h
  | ring t =>
      rw [Act.answered?, Act.answer] at h
      rcases hl : (e.ring v now t).2 with _ | ⟨executionId, f | id⟩ <;> rw [hl] at h
      · cases h
      · cases h
      · obtain ⟨y, hy, hrecords⟩ := ring_records hl
        refine ⟨y, hy, ?_, hrecords⟩
        exact Option.some.inj ((closed_trial hy).symm.trans h)
  | _ => cases h

/-! ### What acts record -/

/-- The version that an act records in a rule: the one with which it closes a record, if it answers the call. -/
def recorded? (v : Environment σ) (now : Moment) (e : Engine σ) (act : Act) : Option Execution :=
  if (act.answered? v now e).isSome then act.closing? v now e else none

/-- The versions that acts record in rules, in their order. -/
def recordings (v : Environment σ) : Engine σ → List (Moment × Act) → List Execution
  | _, [] => []
  | e, (now, act) :: acts => (e.recorded? v now act).toList ++ recordings v (act.apply v now e) acts

/-- What acts record is what they answer. -/
theorem recordings_trials (v : Environment σ) (e : Engine σ) (acts : List (Moment × Act)) :
    (e.recordings v acts).map Execution.trial = e.answered v acts := by
  induction acts generalizing e with
  | nil => rfl
  | cons act acts ih =>
      obtain ⟨now, act⟩ := act
      rw [recordings, answered, List.map_append, ih, recorded?]
      congr 1
      cases h : act.answered? v now e with
      | none => rfl
      | some u =>
          obtain ⟨y, hy, rfl, _⟩ := answered_records h
          rw [Option.isSome_some, if_pos rfl, hy]
          rfl

end Engine

end Rulebook
