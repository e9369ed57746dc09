import Rulebook.Proofs.Engine.Change

/-!
# What the engine holds stays sound

Every act keeps the core of an engine sound (`Engine.act_sound`), so the core is sound after any acts
on a new engine (`Engine.IsNew.sound`, `Engine.after_sound`).
-/

namespace Rulebook

namespace Execution

variable {r : Rule} {id : String} {now : Moment} {data : Fields} {context : ExecutionContext}
  {triggeredBy : Option String}

/-- An execution that has started is stamped. -/
theorem opened_stamped : (opened r id now data context triggeredBy).Stamped :=
  ⟨rfl, rfl, by simp [opened, Engine.pending]⟩

/-- An execution that is refused is stamped. -/
theorem refused_stamped (reason : RateLimit) :
    (refused r id now data context triggeredBy reason).Stamped :=
  Stamped.move_to ⟨rfl, rfl, by simp [Engine.pending]⟩ now _ rfl

/-- An execution that is refused keeps its identifier. -/
theorem refused_id (reason : RateLimit) :
    (refused r id now data context triggeredBy reason).id = id :=
  (precedes_move_to _ now _ rfl).id_eq

/-- An execution whose time has run out is stamped. -/
theorem Stamped.expired {x : Execution} (hx : x.Stamped) (r : Rule) (now : Moment) :
    (x.expired r now).Stamped :=
  x.expired_eq r now ▸ hx.move_to now _ rfl

/-- An execution whose time has run out keeps its steps. -/
theorem expired_steps (x : Execution) (r : Rule) (now : Moment) :
    (x.expired r now).steps = x.steps :=
  x.expired_eq r now ▸ move_to_steps x now _ rfl

/-- An execution whose time has run out gets no result by that. -/
theorem expired_result (x : Execution) (r : Rule) (now : Moment) :
    (x.expired r now).result = x.result :=
  x.expired_eq r now ▸ move_to_result x now _ rfl

/-- The time of an execution that goes on runs out only if it is stopped by it. -/
theorem expired_cases (x : Execution) (r : Rule) (now : Moment) :
    x.expired r now = x ∨ (x.expired r now).isStopped = true := by
  rw [expired_eq]
  obtain h | ⟨_, d, _, h⟩ := move_to_cases x now _ (rfl : ExecutionStatus.isTerminal .timeout = true)
  · exact .inl (congrArg Prod.fst h)
  · exact .inr (congrArg (·.1.isStopped) h)

end Execution

/-- A run stays sound when its execution is ended from outside. -/
theorem Run.Sound.later {run : Run} {id : String} {tries : List TryEvent} {y : Execution}
    (h : run.Sound id tries) (hlater : run.execution.Precedes y) (hstamped : y.Stamped)
    (hsteps : y.steps = run.execution.steps) (hresult : y.result = run.execution.result)
    (hends : y = run.execution ∨ y.isStopped = true) (watch : Watch) :
    ({ run with execution := y, watch } : Run).Sound id tries where
  id := hlater.id_eq.trans h.id
  fits := h.fits.of_steps hsteps
  underway := hends.elim (fun heq => heq ▸ h.underway) .inr
  stamped := hstamped
  tells := h.tells.of_precedes hlater hsteps
  unfinished := hresult.trans h.unfinished

namespace Standing

variable {U : Rule → Prop} {C : Run → Nat → Execution} {p : ExecutionStore} {now : Moment}
  {id : String} {act : Act} {s s' : Standing} {Q R : Execution → Prop} {x : Execution}

/-- An execution that is replaced was written, whether the store could keep the replacement or not. -/
theorem WrittenFor.save (h : s.WrittenFor p Q) (hx : Q x) : (s.save p x).WrittenFor p Q := by
  intro n hn
  obtain ⟨m, hm, hget⟩ := Option.map_eq_some_iff.mp hn
  cases hentry : p.entryOf x with
  | error f =>
      rw [hentry] at hget
      obtain rfl : m = n := hget
      exact h m hm
  | ok k =>
      rw [hentry] at hget
      obtain rfl : k = n := hget
      exact ⟨x, hentry, hx⟩

/-- What was written was written for less. -/
theorem WrittenFor.mono (h : s.WrittenFor p Q) (hQ : ∀ y, Q y → R y) : s.WrittenFor p R := by
  intro n hn
  obtain ⟨y, hy, hQy⟩ := h n hn
  exact ⟨y, hy, hQ y hQy⟩

/-- What is said of a run holds where there is none. -/
theorem of_no_run {P : Run → Prop} (run : Run) (h : none = some run) : P run := nomatch h

/-- What is said of every run there is holds if it holds of the one there is. -/
theorem of_one_run {P : Run → Prop} {run : Run} (h : P run) (run' : Run) (hrun : some run = some run') :
    P run' := by
  rwa [← Option.some.inj hrun]

/-- There is an entry after replacing an execution if there was one before. -/
theorem save_entry_eq_none : (s.save p x).entry = none ↔ s.entry = none := Option.map_eq_none_iff

/-- There is an entry for every run. -/
theorem Sound.entry_ne_none (hs : s.Sound p id) {run : Run} (hrun : s.run = some run) :
    s.entry ≠ none := by
  intro hentry
  rw [hs.blank hentry] at hrun
  cases hrun

/-- Nothing held is sound. -/
theorem sound_blank : Standing.blank.Sound p id where
  blank _ := rfl
  run _ h := by cases h
  written _ h := by cases h
  called h := by cases h

/-- A standing without a run is sound if its entry was made for the execution. -/
theorem Sound.of_written (hentry : s.entry ≠ none) (hrun : s.run = none)
    (hflight : s.cancellable = false) (h : s.WrittenFor p fun y => y.id = id ∧ y.Stamped) :
    s.Sound p id where
  blank hnone := absurd hnone hentry
  run run h := by rw [hrun] at h; cases h
  written := h.mono fun y hy => ⟨hy.1, hy.2, fun run h => by rw [hrun] at h; cases h⟩
  called h := by rw [hflight] at h; cases h

/-- A standing with a sound run is sound if its entry was made for an earlier version. -/
theorem Sound.of_run {run : Run} (hentry : s.entry ≠ none) (hrun : s.run = some run)
    (hsound : run.Sound id s.tries)
    (h : s.WrittenFor p fun y => y.id = id ∧ y.Stamped ∧ y.Precedes run.execution ∧ y.result = none)
    (hcalled : s.cancellable = true → ∃ timed, run.watch = .caller timed) : s.Sound p id where
  blank hnone := absurd hnone hentry
  run run' h := by
    rw [hrun, Option.some.injEq] at h
    exact h ▸ hsound
  written := h.mono fun y hy => ⟨hy.1, hy.2.1, fun run' h => by
    rw [hrun, Option.some.injEq] at h
    exact h ▸ hy.2.2⟩
  called h := by
    obtain ⟨timed, hwatch⟩ := hcalled h
    exact ⟨run, timed, hrun, hwatch⟩

/-- The entry of a sound standing was made for the execution. -/
theorem Sound.written_id (hs : s.Sound p id) : s.WrittenFor p fun y => y.id = id ∧ y.Stamped :=
  hs.written.mono fun _ hy => ⟨hy.1, hy.2.1⟩

/-- The entry of a sound standing was made for what precedes the versions that its run leads to. -/
theorem Sound.written_before (hs : s.Sound p id) {run : Run} (hrun : s.run = some run) {y : Execution}
    (hy : run.execution.Precedes y) :
    s.WrittenFor p fun z => z.id = id ∧ z.Stamped ∧ z.Precedes y ∧ z.result = none :=
  hs.written.mono fun _ hz => ⟨hz.1, hz.2.1, (hz.2.2 run hrun).1.trans hy, (hz.2.2 run hrun).2⟩

/-- What can be cancelled is waited for by the caller of its run. -/
theorem Sound.called_run (hs : s.Sound p id) {run : Run} (hrun : s.run = some run)
    (h : s.cancellable = true) : ∃ timed, run.watch = .caller timed := by
  obtain ⟨run', timed, hrun', hwatch⟩ := hs.called h
  rw [hrun, Option.some.injEq] at hrun'
  exact ⟨timed, hrun' ▸ hwatch⟩

/-- What is not waited for by the caller of its run cannot be cancelled. -/
theorem Sound.not_cancellable (hs : s.Sound p id) {run : Run} (hrun : s.run = some run)
    (hwatch : ∀ timed, run.watch ≠ .caller timed) : s.cancellable = false := by
  cases h : s.cancellable with
  | false => rfl
  | true =>
      obtain ⟨timed, hcaller⟩ := hs.called_run hrun h
      exact absurd hcaller (hwatch timed)

/-- An execution that has been launched has a sound standing. -/
theorem Launched.sound {r : Rule} {n : StoreEntry} {conditions : Except NumberFault Bool}
    (hs : Launched p now r x n conditions s) (hn : p.entryOf x = .ok n) (hid : x.id = id)
    (hrunning : x.status = .running) (hsteps : x.steps = []) (hresult : x.result = none)
    (hx : x.Stamped) : s.Sound p id := by
  have hopen : x.isTerminal = false := by rw [Execution.isTerminal, hrunning]; rfl
  have hclosed : ∀ (z : Execution) (l : List TryEvent), x.Precedes z → z.Stamped →
      (save p z ⟨some n, none, false, l⟩).Sound p id := by
    intro z l hz hstamped
    have hwritten : (⟨some n, none, false, l⟩ : Standing).WrittenFor p
        fun y => y.id = id ∧ y.Stamped :=
      fun m hm => ⟨x, Option.some.inj hm ▸ hn, hid, hx⟩
    exact .of_written (Option.some_ne_none _) rfl rfl (hwritten.save ⟨hz.id_eq.trans hid, hstamped⟩)
  cases hs with
  | crashed f => exact hclosed _ [] (x.precedes_crashed now f) (hx.move_to now _ rfl)
  | unmet =>
      have hskipped : ({ x with result := some Execution.skipped } : Execution).Stamped :=
        ⟨hx.completed_at, hx.duration, hx.nonneg⟩
      exact hclosed _ [] (Execution.precedes_unmet now hopen) (hskipped.move_to now _ rfl)
  | finished hmoves hover =>
      exact hclosed _ _ (hmoves.precedes.trans (Execution.precedes_close _ now))
        ((hmoves.stamped hx).close now)
  | waits hmoves hfits hy =>
      have htells : x.Tells r.retries [] := .of_nil hsteps (by simp)
      refine .of_run (Option.some_ne_none _) rfl
        ⟨hmoves.precedes.id_eq.trans hid, hfits, hy, hmoves.stamped hx, hmoves.tells htells,
          hmoves.result_eq.trans hresult⟩
        (fun m hm => ?_) fun _ => ⟨_, rfl⟩
      exact ⟨x, Option.some.inj hm ▸ hn, hid, hx, hmoves.precedes, hresult⟩

/-- A standing stays sound when its execution cannot be cancelled any more. -/
theorem Sound.released (hs : s.Sound p id) : ({ s with cancellable := false } : Standing).Sound p id where
  blank hentry := by rw [hs.blank hentry]; rfl
  run := hs.run
  written := hs.written
  called := nofun

/-- A change keeps a standing sound. -/
theorem Change.sound (h : Change U C p now id act s s') (hs : s.Sound p id) : s'.Sound p id := by
  cases h with
  | stay => exact hs
  | @refused _ _ _ _ r reason =>
      cases hentry : p.entryOf (.refused r id now _ _ _ reason) with
      | error f => exact hs
      | ok n =>
          refine .of_written (Option.some_ne_none _) rfl rfl fun m hm => ?_
          obtain rfl := Option.some.inj hm
          exact ⟨_, hentry, Execution.refused_id reason, Execution.refused_stamped reason⟩
  | launched _ hx hn hlaunched =>
      exact hlaunched.sound hn (hx ▸ rfl) (hx ▸ rfl) (hx ▸ rfl) (hx ▸ rfl)
        (hx ▸ Execution.opened_stamped)
  | waits hrun _ hmoves hfits hy =>
      have hold := hs.run _ hrun
      have hcalled := hs.called_run hrun
      exact .of_run (hs.entry_ne_none hrun) rfl
        ⟨hmoves.precedes.id_eq.trans hold.id, hfits, hy, hmoves.stamped hold.stamped,
          hmoves.tells hold.tells, hmoves.result_eq.trans hold.unfinished⟩
        (hs.written_before hrun hmoves.precedes) hcalled
  | finished hrun hwatch _ hmoves hover =>
      have hold := hs.run _ hrun
      have hlater := hmoves.precedes.trans (Execution.precedes_close _ now)
      exact .of_written (save_entry_eq_none.not.mpr (hs.entry_ne_none hrun)) rfl rfl
        (hs.written_id.save ⟨hlater.id_eq.trans hold.id, (hmoves.stamped hold.stamped).close now⟩)
  | finishedLate hrun hwatch _ hmoves hover =>
      have hold := hs.run _ hrun
      exact .of_written (save_entry_eq_none.not.mpr (hs.entry_ne_none hrun)) rfl
        (hs.not_cancellable hrun (by simp [hwatch]))
        (hs.written_id.save ⟨hmoves.precedes.id_eq.trans hold.id, hmoves.stamped hold.stamped⟩)
  | finishedUnseen hrun hwatch _ hmoves hover =>
      exact .of_written (hs.entry_ne_none hrun) rfl (hs.not_cancellable hrun (by simp [hwatch]))
        hs.written_id
  | @expired _ run hrun hwatch =>
      have hold := hs.run _ hrun
      have hlater := Execution.precedes_expired run.execution run.rule now
      have hstamped := hold.stamped.expired run.rule now
      have hresult := Execution.expired_result run.execution run.rule now
      exact .of_run (save_entry_eq_none.not.mpr (hs.entry_ne_none hrun)) rfl
        (hold.later hlater hstamped (Execution.expired_steps _ _ _) hresult (Execution.expired_cases _ _ _) _)
        ((hs.written_before hrun hlater).save
          ⟨hlater.id_eq.trans hold.id, hstamped, .refl _, hresult.trans hold.unfinished⟩)
        fun h => absurd h Bool.false_ne_true
  | @cancelled _ run _ z moved hrun hcancellable hmove =>
      have hold := hs.run _ hrun
      have hcalled := hs.called_run hrun
      have hmoved := Execution.moves_to hmove rfl
      have hstamped := hold.stamped.move_to now (some "Execution cancelled")
        (rfl : ExecutionStatus.isTerminal .cancelled = true)
      have hresult := Execution.move_to_result run.execution now (some "Execution cancelled")
        (rfl : ExecutionStatus.isTerminal .cancelled = true)
      rw [hmove] at hstamped hresult
      have hends : z = run.execution ∨ z.isStopped = true :=
        hmoved.ends.imp_right fun h => by rw [Execution.isStopped, h]; rfl
      have hwritten := hs.written_before hrun hmoved.later
      have hsound := hold.later hmoved.later hstamped hmoved.steps hresult hends run.watch
      -- an execution that has ended is not cancelled, and nothing is written
      cases moved with
      | false => exact .of_run (hs.entry_ne_none hrun) rfl hsound hwritten hcalled
      | true =>
          exact .of_run (save_entry_eq_none.not.mpr (hs.entry_ne_none hrun)) rfl hsound
            (hwritten.save ⟨hmoved.later.id_eq.trans hold.id, hstamped, .refl _,
              hresult.trans hold.unfinished⟩) hcalled
  | @left _ run hrun hwatch =>
      have hold := hs.run _ hrun
      exact .of_run (hs.entry_ne_none hrun) rfl
        ⟨hold.id, hold.fits, hold.underway, hold.stamped, hold.tells, hold.unfinished⟩
        (hs.written_before hrun (.refl _)) fun h => absurd h Bool.false_ne_true
  | brokenOff hrun hwatch =>
      exact .of_written (hs.entry_ne_none hrun) rfl rfl hs.written_id
  | released => exact hs.released
  | restarted => exact hs.released

/-- Where nothing was held, nothing is held after, unless a rule was executed. -/
theorem Change.of_blank (h : Change U C p now id act s s') (hs : s = .blank)
    (hact : ∀ ruleId data context triggeredBy, act ≠ .execute ruleId data context triggeredBy) :
    s' = .blank := by
  subst hs
  cases h with
  | refused => exact absurd rfl (hact _ _ _ _)
  | launched => exact absurd rfl (hact _ _ _ _)
  | stay => rfl
  | released => rfl
  | restarted => rfl
  | waits hrun => cases hrun
  | finished hrun => cases hrun
  | finishedLate hrun => cases hrun
  | finishedUnseen hrun => cases hrun
  | expired hrun => cases hrun
  | cancelled hrun => cases hrun
  | left hrun => cases hrun
  | brokenOff hrun => cases hrun

end Standing

namespace Core

variable {σ : Type} (k : Core σ) (v : Environment σ) (now : Moment)

/-- How entries are made, and how many identifiers are taken. -/
def ledger : (Execution → Outcome StoreEntry) × Nat := (k.executions.entryOf, k.executionIds)

/-- Replacing an execution takes no identifier. -/
theorem save_ledger (x : Execution) : (k.save x).ledger = k.ledger :=
  congrArg (·, k.executionIds) (ExecutionStore.entry_of_saved k.executions x)

/-- Closing a record takes no identifier. -/
theorem close_ledger (x : Execution) : (k.close x).ledger = k.ledger := k.save_ledger x

/-- Opening a record takes one identifier. -/
theorem opened_ledger (x : Execution) :
    (k.opened x).ledger = (k.executions.entryOf, k.executionIds + 1) :=
  congrArg (·, k.executionIds + 1) (ExecutionStore.entry_of_created k.executions x)

/-- Refusing an execution takes one identifier. -/
theorem turned_down_ledger (x : Execution) :
    (k.turnedDown x).ledger = (k.executions.entryOf, k.executionIds + 1) :=
  congrArg (·, k.executionIds + 1) (ExecutionStore.entry_of_created k.executions x)

/-- Carrying out an execution takes no identifier. -/
theorem launch_ledger (r : Rule) (x : Execution) (conditions : Except NumberFault Bool) :
    (k.launch v now r x conditions).ledger = k.ledger := by
  rcases conditions with f | _ | _
  · exact k.close_ledger _
  · exact k.close_ledger _
  · rw [launch]
    rcases v.runActions now r ⟨k.world, x, []⟩ with ⟨c, _ | p⟩
    · exact close_ledger _ _
    · rfl

/-- Going on with a run takes no identifier. -/
theorem go_on_ledger (id : String) (lane : Nat) : (k.goOn v now id lane).ledger = k.ledger := by
  rw [goOn]
  cases k.run? id with
  | none => rfl
  | some run =>
      dsimp only
      rcases v.resumeActions now run.rule lane run.phase ⟨k.world, run.execution, []⟩ with ⟨c, _ | p⟩
      · rcases run.watch with timed | _ | _
        · exact close_ledger _ _
        · exact save_ledger _ _
        · rfl
      · rfl

/-- Running out of time takes no identifier. -/
theorem time_out_ledger (id : String) : (k.timeOut now id).ledger = k.ledger := by
  rw [timeOut]
  cases k.run? id with
  | none => rfl
  | some run =>
      dsimp only
      split
      next => exact close_ledger _ _
      next => rfl

/-- Cancelling takes no identifier. -/
theorem cancel_ledger (id : String) (tenantId : Option String) :
    (k.cancel now id tenantId).ledger = k.ledger := by
  rw [cancel]
  cases k.run? id with
  | none => rfl
  | some run =>
      cases k.inFlight.contains id with
      | false => rfl
      | true =>
          dsimp only
          split
          next =>
            rcases run.execution.moveTo .cancelled now (some "Execution cancelled") with ⟨y, _ | _⟩
            · rfl
            · exact save_ledger _ _
          next => rfl

/-- The going away of a caller takes no identifier. -/
theorem abandon_ledger (id : String) : (k.abandon id).ledger = k.ledger := by
  rw [abandon]
  rcases (k.run? id).map Run.watch with _ | (_ | _) | _ | _ <;> rfl

end Core

namespace Engine

variable {σ : Type} {v : Environment σ} {p : ExecutionStore} {now : Moment}
  {e : Engine (Traced σ)} {id : String}

/-- Acts other than executions take no identifier. -/
theorem act_ledger (act : Act)
    (hact : ∀ ruleId data context triggeredBy, act ≠ .execute ruleId data context triggeredBy) :
    (act.apply v.traced now e).core.ledger = e.core.ledger := by
  have hleaves : (act.apply v.traced now e).core = e.core →
      (act.apply v.traced now e).core.ledger = e.core.ledger := congrArg Core.ledger
  cases act with
  | createRule d => exact hleaves (leaves_create_rule v.traced now d e)
  | updateRule ruleId d tenantId => exact hleaves (leaves_update_rule v.traced now ruleId d tenantId e)
  | deactivateRule ruleId tenantId => exact hleaves (leaves_deactivate_rule now ruleId tenantId e)
  | setUp => exact hleaves (leaves_set_up v.traced now e)
  | execute ruleId data context triggeredBy =>
      exact absurd rfl (hact ruleId data context triggeredBy)
  | ring t =>
      rw [Act.apply, ring_core]
      cases t with
      | wake executionId lane => exact Core.go_on_ledger _ _ _ _ _
      | expire executionId => exact Core.time_out_ledger _ _ _
  | cancel executionId tenantId =>
      rw [Act.apply, cancel_core]
      exact Core.cancel_ledger _ _ _ _
  | abandon executionId =>
      rw [Act.apply, abandon_core]
      exact Core.abandon_ledger _ _
  | poll r =>
      rw [Act.apply, host]
      cases v.traced.source <;> rfl
  | _ => rfl

/-- Executing a rule does nothing to the core or takes one identifier, and it changes nothing about
executions of other numbers. -/
theorem execute_takes (ruleId : String) (data : Fields) (context : ExecutionContext)
    (triggeredBy : Option String) :
    let k := (e.execute v.traced now ruleId data context triggeredBy).1.core
    (k = e.core ∨ k.ledger = (e.executions.entryOf, e.executionIds + 1)) ∧
      ∀ id, id ≠ identifier "exec" (e.executionIds + 1) → k.standing id = e.core.standing id := by
  dsimp only
  obtain ⟨_, h⟩ | h | ⟨r, reason, _, _, h⟩ | ⟨r, x, t, _, _, hx, _, h⟩ :=
    e.execute_core v.traced now ruleId data context triggeredBy <;> rw [h]
  · exact ⟨.inl rfl, fun _ _ => rfl⟩
  · exact ⟨.inr rfl, fun _ _ => rfl⟩
  · refine ⟨.inr (Core.turned_down_ledger _ _), fun id hne => ?_⟩
    exact Core.turned_down_standing_of_ne _ (by rwa [Execution.refused_id])
  · have hid : x.id = identifier "exec" (e.executionIds + 1) := by rw [hx]; rfl
    have hsteps : x.steps = [] := by rw [hx]; rfl
    have hrunning : x.status = .running := by rw [hx]; rfl
    refine ⟨.inr ((Core.launch_ledger _ _ _ _ _ _).trans (Core.opened_ledger _ _)), fun id hne => ?_⟩
    rw [← hid] at hne
    rw [Core.launch_standing_of_ne hne hsteps hrunning, Core.opened_standing_of_ne _ hne]

/-- An act takes at most one identifier. -/
theorem act_takes (act : Act) :
    (act.apply v.traced now e).core.ledger = e.core.ledger ∨
      (act.apply v.traced now e).core.ledger = (e.executions.entryOf, e.executionIds + 1) := by
  cases act with
  | execute ruleId data context triggeredBy =>
      exact (execute_takes ruleId data context triggeredBy).1.imp_left (congrArg Core.ledger)
  | _ => exact .inl (act_ledger _ nofun)

/-- Acts give back no identifier. -/
theorem act_ids_le (act : Act) : e.executionIds ≤ (act.apply v.traced now e).executionIds := by
  obtain h | h := @act_takes _ v now e act
  · exact (congrArg Prod.snd h).ge
  · exact (Nat.le_succ _).trans (congrArg Prod.snd h).ge

/-- An act makes nothing held about an execution unless it takes its number. -/
theorem act_of_blank (hk : e.core.Sound p) (act : Act) (hblank : e.core.standing id = .blank)
    (hid : id ≠ identifier "exec" (e.executionIds + 1)) :
    (act.apply v.traced now e).core.standing id = .blank := by
  cases act with
  | execute ruleId data context triggeredBy =>
      exact ((execute_takes ruleId data context triggeredBy).2 id hid).trans hblank
  | _ => exact (act_change hk _ id).of_blank hblank nofun

/-- An act keeps the core sound. -/
theorem act_sound (hk : e.core.Sound p) (act : Act) : (act.apply v.traced now e).core.Sound p := by
  have hchange := @act_change _ v _ now _ hk act
  have htakes := @act_takes _ v now e act
  have hids : e.core.executionIds ≤ (act.apply v.traced now e).core.executionIds :=
    act_ids_le act
  refine ⟨?_, fun id => (hchange id).sound (hk.standing id), fun id hheld => ?_⟩
  · obtain h | h := htakes <;> exact (congrArg Prod.fst h).trans hk.kind
  · by_cases hblank : e.core.standing id = .blank
    · by_cases hid : id = identifier "exec" (e.executionIds + 1)
      · refine ⟨e.executionIds + 1, ?_, hid⟩
        cases act with
        | execute ruleId data context triggeredBy =>
            obtain h | h := (@execute_takes _ v now e ruleId data context triggeredBy).1
            · exact absurd ((congrArg (Core.standing · id) h).trans hblank) hheld
            · exact (congrArg Prod.snd h).ge
        | _ => exact absurd ((hchange id).of_blank hblank nofun) hheld
      · exact absurd (act_of_blank hk act hblank hid) hheld
    · obtain ⟨n, hn, hname⟩ := hk.numbered id hblank
      exact ⟨n, hn.trans hids, hname⟩

/-- Where nothing is held about an execution whose number is taken, nothing is held after acts. -/
theorem after_of_blank (hk : e.core.Sound p) {n : Nat} (hn : n ≤ e.executionIds)
    (hblank : e.core.standing (identifier "exec" n) = .blank) (acts : List (Moment × Act)) :
    (e.after v.traced acts).core.standing (identifier "exec" n) = .blank := by
  induction acts generalizing e with
  | nil => exact hblank
  | cons act acts ih =>
      have hfresh : identifier "exec" n ≠ identifier "exec" (e.executionIds + 1) := by
        intro heq
        have hnumber := identifier_injective "exec" heq
        omega
      have hids := @act_ids_le _ v act.1 e act.2
      exact ih (act_sound hk act.2) (hn.trans hids) (act_of_blank hk act.2 hblank hfresh)

/-- Acts keep the core sound. -/
theorem after_sound (hk : e.core.Sound p) (acts : List (Moment × Act)) :
    (e.after v.traced acts).core.Sound p := by
  induction acts generalizing e with
  | nil => exact hk
  | cons act acts ih => exact ih (act_sound hk act.2)

/-- An engine that has no executions yet, and whose environment has seen no tries. -/
structure IsNew (e : Engine (Traced σ)) : Prop where
  executions : e.executions.IsEmpty
  inFlight : e.inFlight = []
  runs : e.runs = []
  tries : e.world.tries = []

/-- An engine that starts with an empty store is new. -/
theorem start_is_new (rules : RuleStore) {p : ExecutionStore} (hempty : p.IsEmpty) (world : σ) :
    (start rules p ⟨world, []⟩ : Engine (Traced σ)).IsNew :=
  ⟨hempty, rfl, rfl, rfl⟩

/-- Nothing is held about any execution in a new engine. -/
theorem IsNew.standing_eq (he : e.IsNew) (id : String) : e.core.standing id = .blank := by
  rw [Core.standing, Core.run?, core]
  dsimp only
  rw [he.executions.entry_at_eq_none id, he.inFlight, he.runs, he.tries]
  rfl

/-- The core of a new engine is sound. -/
theorem IsNew.sound (he : e.IsNew) : e.core.Sound e.executions := by
  refine ⟨rfl, fun id => ?_, fun id hheld => absurd (he.standing_eq id) hheld⟩
  rw [he.standing_eq]
  exact Standing.sound_blank

end Engine

end Rulebook
