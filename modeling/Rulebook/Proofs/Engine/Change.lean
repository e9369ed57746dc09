import Rulebook.Proofs.Engine.Act
import Rulebook.Proofs.Engine.Standing
import Rulebook.Proofs.Identifier
import Rulebook.Proofs.Run.Phase

/-!
# What can become of an execution

Whatever is done to an engine, the standing of an execution changes only in the ways that
`Standing.Change` lists: its record is opened, its run goes on, ends, runs out of time, is cancelled or
left. `Core.change` shows it for everything that can be done, as long as the core is sound
(`Core.Sound`), which it stays.
-/

namespace Rulebook

namespace Execution

/-- An execution whose time has run out becomes a later version. -/
theorem precedes_expired (x : Execution) (r : Rule) (now : Moment) :
    x.Precedes (x.expired r now) :=
  (precedes_move_to x now _ rfl).trans (precedes_close _ now)

/-- An execution whose time has run out is only ended by that. -/
theorem expired_eq (x : Execution) (r : Rule) (now : Moment) :
    x.expired r now = (x.moveTo .timeout now (some
      ("Execution timed out after " ++ Decimal.intText r.settings.timeoutSeconds ++ "s"))).1 := by
  have htimeout : ExecutionStatus.isTerminal .timeout = true := rfl
  have hcompleted : ExecutionStatus.isTerminal .completed = true := rfl
  cases h : x.isTerminal with
  | true => rw [expired, move_to_of_terminal h, close, move_to_of_terminal h]
  | false =>
      -- where the readings cannot be subtracted the second end fails like the first
      cases hspan : now.since (x.startedAt.getD now) with
      | error f => rw [expired, move_to_of_fault hspan htimeout, close, move_to_of_fault hspan hcompleted]
      | ok micros => rw [expired, move_to_of_span h hspan htimeout, close, move_to_of_terminal rfl]

/-- Nothing of the payloads of a version without a result stays when a later one is written over it. -/
theorem Precedes.yields_to {x y : Execution} (h : y.Precedes x) (hresult : y.result = none) : y.YieldsTo x :=
  ⟨congrArg (·.2.2.2.2.2.1) h.origin.symm, congrArg (·.2.2.2.2.2.2) h.origin.symm, .inl hresult⟩

/-- An execution that cannot be carried out becomes a later version. -/
theorem precedes_crashed (x : Execution) (now : Moment) (f : NumberFault) :
    x.Precedes (x.crashed now f) :=
  precedes_move_to x now _ rfl

/-- An execution whose conditions do not hold becomes a later version, unless it has ended. -/
theorem precedes_unmet {x : Execution} (now : Moment) (hx : x.isTerminal = false) :
    x.Precedes (x.unmet now) := by
  have hopen : x.Precedes { x with result := some skipped } :=
    ⟨rfl, rfl, List.prefix_refl _, fun _ _ h _ => h, fun h => absurd (hx ▸ h) (by decide)⟩
  exact hopen.trans (precedes_move_to _ now none rfl)

end Execution

/-- How often an action of the rule may be tried again. -/
def Rule.retries (r : Rule) : Nat := r.settings.retryAttempts.toNat

/-- The execution that going on with a lane of a run leaves. -/
def Run.resumed {σ : Type} (v : Environment σ) (now : Moment) (world : σ) (run : Run) (lane : Nat) :
    Execution :=
  (v.resumeActions now run.rule lane run.phase ⟨world, run.execution, []⟩).1.execution

/-- A run holds what is needed to go on with its execution. -/
structure Run.Sound (id : String) (tries : List TryEvent) (run : Run) : Prop where
  id : run.execution.id = id
  fits : run.phase.Fits run.rule.settings.runInParallel run.rule.enabledActions run.execution
  underway : run.execution.IsUnderway
  stamped : run.execution.Stamped
  tells : run.execution.Tells run.rule.retries tries
  unfinished : run.execution.result = none

namespace Standing

/-- The standing of an execution that was opened and went as far as it goes without waiting; its
conditions hold or not, or cannot be told. -/
inductive Launched (p : ExecutionStore) (now : Moment) (r : Rule) (x : Execution) (n : StoreEntry) :
    Except NumberFault Bool → Standing → Prop where
  | crashed (f : NumberFault) :
      Launched p now r x n (.error f) (save p (x.crashed now f) ⟨some n, none, false, []⟩)
  | unmet : Launched p now r x n (.ok false) (save p (x.unmet now) ⟨some n, none, false, []⟩)
  | finished {l : List TryEvent} {y : Execution} (hmoves : Moves now r.retries r.enabledActions x l y)
      (hover : y.Over now r.settings.runInParallel r.enabledActions) :
      Launched p now r x n (.ok true) (save p (y.close now) ⟨some n, none, false, l⟩)
  | waits {l : List TryEvent} {y : Execution} {phase : Phase}
      (hmoves : Moves now r.retries r.enabledActions x l y)
      (hfits : phase.Fits r.settings.runInParallel r.enabledActions y) (hy : y.IsUnderway) :
      Launched p now r x n (.ok true)
        ⟨some n, some ⟨r, y, phase, .caller (Engine.isTimed r)⟩, true, l⟩

/-- What an act can do to the standing of an execution; rules in use satisfy `U`, and going on with a
lane of a run leaves the execution that `C` says. -/
inductive Change (U : Rule → Prop) (C : Run → Nat → Execution) (p : ExecutionStore) (now : Moment)
    (id : String) :
    Act → Standing → Standing → Prop where
  /-- Nothing. -/
  | stay {act : Act} (s : Standing) (hact : act ≠ .abandon id) : Change U C p now id act s s
  /-- The execution is refused. -/
  | refused {ruleId : String} {data : Fields} {context : ExecutionContext}
      {triggeredBy : Option String} {r : Rule} {reason : RateLimit} (hr : U r) :
      Change U C p now id (.execute ruleId data context triggeredBy) .blank
        ⟨(p.entryOf (.refused r id now data context triggeredBy reason)).toOption, none, false, []⟩
  /-- The execution is opened and carried out. -/
  | launched {ruleId : String} {data : Fields} {context : ExecutionContext}
      {triggeredBy : Option String} {r : Rule} {x : Execution} {n : StoreEntry} {s : Standing}
      (hr : U r) (hx : x = .opened r id now data context triggeredBy) (hn : p.entryOf x = .ok n)
      (hs : Launched p now r x n (Condition.allHold r.conditions x.seen) s) :
      Change U C p now id (.execute ruleId data context triggeredBy) .blank s
  /-- The run goes on and waits again. -/
  | waits {s : Standing} {run : Run} {lane : Nat} {l : List TryEvent} {y : Execution} {phase : Phase}
      (hrun : s.run = some run) (hy : y = C run lane)
      (hmoves : Moves now run.rule.retries run.rule.enabledActions run.execution l y)
      (hfits : phase.Fits run.rule.settings.runInParallel run.rule.enabledActions y)
      (hunderway : y.IsUnderway) :
      Change U C p now id (.ring (.wake id lane)) s
        { s with run := some { run with execution := y, phase }, tries := s.tries ++ l }
  /-- The run ends for its caller. -/
  | finished {s : Standing} {run : Run} {lane : Nat} {l : List TryEvent} {y : Execution}
      {timed : Bool} (hrun : s.run = some run) (hwatch : run.watch = .caller timed)
      (hy : y = C run lane) (hmoves : Moves now run.rule.retries run.rule.enabledActions run.execution l y)
      (hover : y.Over now run.rule.settings.runInParallel run.rule.enabledActions) :
      Change U C p now id (.ring (.wake id lane)) s
        { s.save p (y.close now) with run := none, cancellable := false, tries := s.tries ++ l }
  /-- The run ends after its time has run out. -/
  | finishedLate {s : Standing} {run : Run} {lane : Nat} {l : List TryEvent} {y : Execution}
      (hrun : s.run = some run) (hwatch : run.watch = .late) (hy : y = C run lane)
      (hmoves : Moves now run.rule.retries run.rule.enabledActions run.execution l y)
      (hover : y.Over now run.rule.settings.runInParallel run.rule.enabledActions) :
      Change U C p now id (.ring (.wake id lane)) s
        { s.save p y with run := none, tries := s.tries ++ l }
  /-- The run ends after its caller has gone away. -/
  | finishedUnseen {s : Standing} {run : Run} {lane : Nat} {l : List TryEvent} {y : Execution}
      (hrun : s.run = some run) (hwatch : run.watch = .nobody) (hy : y = C run lane)
      (hmoves : Moves now run.rule.retries run.rule.enabledActions run.execution l y)
      (hover : y.Over now run.rule.settings.runInParallel run.rule.enabledActions) :
      Change U C p now id (.ring (.wake id lane)) s { s with run := none, tries := s.tries ++ l }
  /-- The time of the run runs out. -/
  | expired {s : Standing} {run : Run} (hrun : s.run = some run)
      (hwatch : run.watch = .caller true) :
      Change U C p now id (.ring (.expire id)) s
        { s.save p (run.execution.expired run.rule now) with
          run := some { run with execution := run.execution.expired run.rule now, watch := .late }
          cancellable := false }
  /-- The run is cancelled. -/
  | cancelled {s : Standing} {run : Run} {tenantId : Option String} {y : Execution} {moved : Bool}
      (hrun : s.run = some run) (hcancellable : s.cancellable = true)
      (hmove : run.execution.moveTo .cancelled now (some "Execution cancelled") = (y, moved)) :
      Change U C p now id (.cancel id tenantId) s
        { (if moved then s.save p y else s) with run := some { run with execution := y } }
  /-- The caller of a timed run goes away. -/
  | left {s : Standing} {run : Run} (hrun : s.run = some run) (hwatch : run.watch = .caller true) :
      Change U C p now id (.abandon id) s
        { s with run := some { run with watch := .nobody }, cancellable := false }
  /-- The caller of a run goes away, which is broken off. -/
  | brokenOff {s : Standing} {run : Run} (hrun : s.run = some run)
      (hwatch : run.watch = .caller false) :
      Change U C p now id (.abandon id) s { s with run := none, cancellable := false }
  /-- Its caller goes away, but does not wait for it. -/
  | released (s : Standing) (hwatch : ∀ run timed, s.run = some run → run.watch ≠ .caller timed) :
      Change U C p now id (.abandon id) s { s with cancellable := false }
  /-- The engine restarts. -/
  | restarted (s : Standing) : Change U C p now id .restart s { s with cancellable := false }

/-- What the engine holds about an execution fits together: there is nothing without an entry, the
entry was made for an earlier version of the execution of the run, which had no result, and what can be
cancelled is waited for by its caller. -/
structure Sound (p : ExecutionStore) (id : String) (s : Standing) : Prop where
  blank : s.entry = none → s = .blank
  run : ∀ run, s.run = some run → run.Sound id s.tries
  written : s.WrittenFor p fun y => y.id = id ∧ y.Stamped ∧
    ∀ run, s.run = some run → y.Precedes run.execution ∧ y.result = none
  called : s.cancellable = true → ∃ run timed, s.run = some run ∧ run.watch = .caller timed

variable {U : Rule → Prop} {C : Run → Nat → Execution} {p : ExecutionStore} {now : Moment}
  {id : String} {act : Act} {s s' : Standing}

/-- Nothing of what was written stays when a version that the run leads to is written over it. -/
theorem Sound.yields_to (hs : s.Sound p id) {run : Run} (hrun : s.run = some run) {x : Execution}
    (hx : run.execution.Precedes x) : s.WrittenFor p (·.YieldsTo x) := by
  intro n hn
  obtain ⟨y, hy, _, _, hbefore⟩ := hs.written n hn
  obtain ⟨hlater, hresult⟩ := hbefore run hrun
  exact ⟨y, hy, (hlater.trans hx).yields_to hresult⟩

/-- What stays the same has not changed. -/
theorem Change.of_eq (hact : act ≠ .abandon id) (h : s' = s) : Change U C p now id act s s' := by
  rw [h]
  exact .stay s hact

end Standing

/-- The core of an engine fits together, and its executions are numbered. -/
structure Core.Sound {σ : Type} (p : ExecutionStore) (k : Core (Traced σ)) : Prop where
  kind : k.executions.entryOf = p.entryOf
  standing : ∀ id, (k.standing id).Sound p id
  numbered : ∀ id, k.standing id ≠ .blank → ∃ n, n ≤ k.executionIds ∧ id = identifier "exec" n

namespace Core

variable {σ : Type} {v : Environment σ} {U : Rule → Prop} {C : Run → Nat → Execution}
  {p : ExecutionStore} {now : Moment} {k : Core (Traced σ)} {id other : String}

/-- The execution of a run that is found has the identifier that was looked for. -/
theorem Sound.run_id (hk : k.Sound p) {run : Run} (hrun : k.run? id = some run) :
    run.Sound id (TryEvent.of id k.world.tries) :=
  (hk.standing id).run run hrun

/-- What going on with a run can do. -/
theorem go_on_change (hk : k.Sound p) (lane : Nat) :
    Standing.Change U (Run.resumed v.traced now k.world) p now other (.ring (.wake id lane))
      (k.standing other) ((k.goOn v.traced now id lane).standing other) := by
  rw [goOn]
  cases hrun : k.run? id with
  | none => exact .of_eq (by rintro ⟨⟩) rfl
  | some run =>
      have hsound := hk.run_id hrun
      obtain ⟨l, htries, hmoves, hfits⟩ := v.resume_actions_fits now run.rule lane run.phase
        ⟨k.world, run.execution, []⟩ hsound.fits hsound.underway
        fun s hs => hsound.tells.attempts_le hs
      rcases hresume : v.traced.resumeActions now run.rule lane run.phase
        ⟨k.world, run.execution, []⟩ with ⟨c, e⟩
      rw [hresume] at htries hmoves hfits
      dsimp only at htries hmoves hfits
      have hresumed : c.execution = run.resumed v.traced now k.world lane := by
        rw [Run.resumed, hresume]
      have hid : c.execution.id = id := hmoves.precedes.id_eq.trans hsound.id
      have hl : ∀ t ∈ l, t.step.executionId = id := fun t ht => (hmoves.step_id ht).trans hsound.id
      dsimp only
      rw [hresume]
      -- its own standing ends as its caller watches it; all that is written bears its identifier
      by_cases hother : other = id
      · subst hother
        have htried := tries_standing_self k htries hl
        cases e with
        | waits phase =>
            have hput := put_run_standing_self { k with world := c.world }
              (r := { run with execution := c.execution, phase }) hrun hid
            dsimp only
            rw [hput, htried]
            exact .waits hrun hresumed hmoves hfits.1 hfits.2
        | done =>
            rcases hwatch : run.watch with timed | _ | _
            · have hlater := hmoves.precedes.trans (Execution.precedes_close _ now)
              have hclose := close_standing_self ({ k with world := c.world }.dropRun other) hk.kind
                ((hk.standing other).yields_to hrun hlater) (hlater.id_eq.trans hsound.id)
              dsimp only
              rw [hclose, drop_run_standing_self, htried]
              exact .finished hrun hwatch hresumed hmoves hfits
            · have hsave := save_standing_self ({ k with world := c.world }.dropRun other) hk.kind
                ((hk.standing other).yields_to hrun hmoves.precedes) hid
              dsimp only
              rw [hsave, drop_run_standing_self, htried]
              exact .finishedLate hrun hwatch hresumed hmoves hfits
            · dsimp only
              rw [drop_run_standing_self, htried]
              exact .finishedUnseen hrun hwatch hresumed hmoves hfits
      · refine .of_eq (by rintro ⟨⟩) ?_
        have htried := tries_standing_of_ne k htries hl hother
        cases e with
        | waits phase =>
            dsimp only
            have hput := put_run_standing_of_ne { k with world := c.world }
              (r := { run with execution := c.execution, phase }) (show other ≠ _ from hid ▸ hother)
            rw [hput, htried]
        | done =>
            rcases run.watch with timed | _ | _
            · have hclosed : (c.execution.close now).id = id :=
                (Execution.precedes_close _ now).id_eq.trans hid
              dsimp only
              rw [close_standing_of_ne _ (by rwa [hclosed]), drop_run_standing_of_ne _ hother, htried]
            · dsimp only
              rw [save_standing_of_ne _ (by rwa [hid]), drop_run_standing_of_ne _ hother, htried]
            · dsimp only
              rw [drop_run_standing_of_ne _ hother, htried]

/-- What the end of the time of a run can do. -/
theorem time_out_change (hk : k.Sound p) :
    Standing.Change U C p now other (.ring (.expire id)) (k.standing other)
      ((k.timeOut now id).standing other) := by
  rw [timeOut]
  cases hrun : k.run? id with
  | none => exact .of_eq (by rintro ⟨⟩) rfl
  | some run =>
      have hlater := Execution.precedes_expired run.execution run.rule now
      have hid : (run.execution.expired run.rule now).id = id := hlater.id_eq.trans (hk.run_id hrun).id
      dsimp only
      split
      next hwatch =>
        by_cases hother : other = id
        · subst hother
          have hput := put_run_standing_self k
            (r := { run with execution := run.execution.expired run.rule now, watch := .late }) hrun hid
          have hclose := close_standing_self (k.putRun
            { run with execution := run.execution.expired run.rule now, watch := .late }) hk.kind
            ((hk.standing other).yields_to hrun hlater) hid
          rw [hclose, hput]
          exact .expired hrun hwatch
        · refine .of_eq (by rintro ⟨⟩) ?_
          rw [close_standing_of_ne _ (by rwa [hid]), put_run_standing_of_ne _ (by rwa [hid])]
      next => exact .of_eq (by rintro ⟨⟩) rfl

/-- What cancelling can do. -/
theorem cancel_change (hk : k.Sound p) (tenantId : Option String) :
    Standing.Change U C p now other (.cancel id tenantId) (k.standing other)
      ((k.cancel now id tenantId).standing other) := by
  rw [cancel]
  cases hrun : k.run? id with
  | none => exact .of_eq (by rintro ⟨⟩) rfl
  | some run =>
      cases hcancellable : k.inFlight.contains id with
      | false => exact .of_eq (by rintro ⟨⟩) rfl
      | true =>
          dsimp only
          split
          next =>
            rcases hmove : run.execution.moveTo .cancelled now (some "Execution cancelled")
              with ⟨y, moved⟩
            have hlater := (Execution.moves_to hmove rfl).later
            have hid := hlater.id_eq.trans (hk.run_id hrun).id
            dsimp only
            by_cases hother : other = id
            · subst hother
              have hput := put_run_standing_self k (r := { run with execution := y }) hrun hid
              have hsave := save_standing_self (k.putRun { run with execution := y }) hk.kind
                ((hk.standing other).yields_to hrun hlater) hid
              -- only a cancellation that is accepted is written
              cases moved with
              | false =>
                  have hchange : Standing.Change U C p now other (.cancel other tenantId)
                      (k.standing other) _ :=
                    .cancelled hrun hcancellable hmove
                  simpa [hput] using hchange
              | true =>
                  have hchange : Standing.Change U C p now other (.cancel other tenantId)
                      (k.standing other) _ :=
                    .cancelled hrun hcancellable hmove
                  rw [hput] at hsave
                  exact hsave ▸ hchange
            · have hput := put_run_standing_of_ne k (r := { run with execution := y })
                (show other ≠ _ from hid ▸ hother)
              have hsave := save_standing_of_ne (k.putRun { run with execution := y })
                (show other ≠ _ from hid ▸ hother)
              refine .of_eq (by rintro ⟨⟩) ?_
              cases moved with
              | false => simpa using hput
              | true => simpa using hsave.trans hput
          next => exact .of_eq (by rintro ⟨⟩) rfl

/-- What the going away of a caller can do. -/
theorem abandon_change (k : Core (Traced σ)) :
    Standing.Change U C p now other (.abandon id) (k.standing other) ((k.abandon id).standing other) := by
  rw [abandon]
  by_cases hother : other = id
  · subst hother
    have hreleased : (∀ timed, (k.run? other).map Run.watch ≠ some (.caller timed)) →
        Standing.Change U C p now other (.abandon other) (k.standing other)
          { k.standing other with cancellable := false } := by
      refine fun hnot => .released _ fun run timed hrun hwatch => hnot timed ?_
      have hrun : k.run? other = some run := hrun
      rw [hrun, ← hwatch]
      rfl
    cases hrun : k.run? other with
    | none =>
        dsimp only [Option.map]
        rw [release_standing_self]
        exact hreleased (by simp [hrun])
    | some run =>
        -- a run without a time limit ends with its caller, one with a limit goes on for nobody
        rcases hwatch : run.watch with (_ | _) | _ | _ <;> dsimp only [Option.map] <;> rw [hwatch]
        · dsimp only
          rw [drop_run_standing_self, release_standing_self]
          exact .brokenOff hrun hwatch
        · have hsame : (k.release other).run? other = some run := hrun
          dsimp only
          rw [unwatch_standing_self, hsame, release_standing_self]
          exact .left hrun hwatch
        · dsimp only
          rw [release_standing_self]
          exact hreleased (by simp [hrun, hwatch])
        · dsimp only
          rw [release_standing_self]
          exact hreleased (by simp [hrun, hwatch])
  · refine .of_eq (fun h => hother (Act.abandon.inj h).symm) ?_
    rcases (k.run? id).map Run.watch with _ | (_ | _) | _ | _ <;> dsimp only
    · rw [release_standing_of_ne _ hother]
    · rw [drop_run_standing_of_ne _ hother, release_standing_of_ne _ hother]
    · rw [unwatch_standing_of_ne _ hother, release_standing_of_ne _ hother]
    · rw [release_standing_of_ne _ hother]
    · rw [release_standing_of_ne _ hother]

variable {r : Rule} {x : Execution} {n : StoreEntry}

/-- What carrying out an execution makes of its standing. -/
theorem launch_standing_self (hkind : k.executions.entryOf = p.entryOf)
    (hs : k.standing x.id = ⟨some n, none, true, []⟩) (hn : p.entryOf x = .ok n) (hsteps : x.steps = [])
    (hrunning : x.status = .running) (hresult : x.result = none) (conditions : Except NumberFault Bool) :
    Standing.Launched p now r x n conditions
      ((k.launch v.traced now r x conditions).standing x.id) := by
  have hopen : x.isTerminal = false := by rw [Execution.isTerminal, hrunning]; rfl
  have hyields : ∀ y, x.Precedes y → (k.standing x.id).WrittenFor p (·.YieldsTo y) := by
    intro y hy m hm
    rw [hs] at hm
    exact ⟨x, Option.some.inj hm ▸ hn, hy.yields_to hresult⟩
  rcases conditions with f | _ | _
  · have hlater := x.precedes_crashed now f
    have hclose := close_standing_self k hkind (hyields _ hlater) hlater.id_eq
    rw [launch, hclose, hs]
    exact .crashed f
  · have hlater := Execution.precedes_unmet now hopen
    have hclose := close_standing_self k hkind (hyields _ hlater) hlater.id_eq
    rw [launch, hclose, hs]
    exact .unmet
  · obtain ⟨l, htries, hmoves, hfits⟩ := v.run_actions_fits now r ⟨k.world, x, []⟩ hsteps hrunning
    rcases hrun : v.traced.runActions now r ⟨k.world, x, []⟩ with ⟨c, e⟩
    rw [hrun] at htries hmoves hfits
    dsimp only at htries hmoves hfits
    have htried := tries_standing_self k htries fun t ht => hmoves.step_id ht
    rw [launch, hrun]
    cases e with
    | waits phase =>
        have hnone : k.run? x.id = none := congrArg Standing.run hs
        have hadd := add_run_standing_self { k with world := c.world }
          (r := ⟨r, c.execution, phase, .caller (Engine.isTimed r)⟩) hnone hmoves.precedes.id_eq
        dsimp only
        rw [hadd, htried, hs]
        exact .waits hmoves hfits.1 hfits.2
    | done =>
        have hlater := hmoves.precedes.trans (c.execution.precedes_close now)
        have hclose := close_standing_self { k with world := c.world } hkind (hyields _ hlater) hlater.id_eq
        dsimp only
        rw [hclose, htried, hs]
        exact .finished hmoves hfits

/-- What opening and carrying out an execution that the store can keep makes of its standing. -/
theorem opened_launch_self {t : ExecutionStore} (hkind : k.executions.entryOf = p.entryOf)
    (hblank : k.standing x.id = .blank) (hcreate : k.executions.create x = .ok t)
    (hsteps : x.steps = []) (hrunning : x.status = .running) (hresult : x.result = none)
    (conditions : Except NumberFault Bool) :
    ∃ n, p.entryOf x = .ok n ∧ Standing.Launched p now r x n conditions
      (((k.opened x).launch v.traced now r x conditions).standing x.id) := by
  obtain ⟨n, hn⟩ := ExecutionStore.entry_of_create_eq_ok hcreate
  rw [hkind] at hn
  have hopened : (k.opened x).standing x.id = ⟨some n, none, true, []⟩ := by
    rw [opened_standing_self _ hblank, hkind, hn]
    rfl
  have hstore : (k.opened x).executions.entryOf = p.entryOf :=
    (ExecutionStore.entry_of_created _ _).trans hkind
  exact ⟨n, hn, launch_standing_self hstore hopened hn hsteps hrunning hresult conditions⟩

/-- Carrying out an execution changes nothing about others. -/
theorem launch_standing_of_ne (hne : other ≠ x.id) (hsteps : x.steps = [])
    (hrunning : x.status = .running) (conditions : Except NumberFault Bool) :
    (k.launch v.traced now r x conditions).standing other = k.standing other := by
  have hopen : x.isTerminal = false := by rw [Execution.isTerminal, hrunning]; rfl
  rcases conditions with f | _ | _
  · have hid := (x.precedes_crashed now f).id_eq
    rw [launch, close_standing_of_ne _ (by rwa [hid])]
  · have hid := (Execution.precedes_unmet now hopen).id_eq
    rw [launch, close_standing_of_ne _ (by rwa [hid])]
  · obtain ⟨l, htries, hmoves, hfits⟩ := v.run_actions_fits now r ⟨k.world, x, []⟩ hsteps hrunning
    rcases hrun : v.traced.runActions now r ⟨k.world, x, []⟩ with ⟨c, e⟩
    rw [hrun] at htries hmoves hfits
    dsimp only at htries hmoves hfits
    have htried := tries_standing_of_ne k htries (fun t ht => hmoves.step_id ht) hne
    rw [launch, hrun]
    cases e with
    | waits phase =>
        have hid := hmoves.precedes.id_eq
        have hadd := add_run_standing_of_ne { k with world := c.world }
          (r := ⟨r, c.execution, phase, .caller (Engine.isTimed r)⟩) (show other ≠ _ from hid ▸ hne)
        dsimp only
        rw [hadd, htried]
    | done =>
        have hid := ((c.execution.precedes_close now).id_eq.trans hmoves.precedes.id_eq)
        have hclose := close_standing_of_ne { k with world := c.world }
          (show other ≠ _ from hid ▸ hne)
        dsimp only
        rw [hclose, htried]

end Core

namespace Engine

variable {σ : Type} {v : Environment σ} {p : ExecutionStore} {now : Moment}
  {e : Engine (Traced σ)} {id : String}

/-- Nothing is held about an execution with a number that is not taken. -/
theorem standing_of_fresh (hk : e.core.Sound p) :
    e.core.standing (identifier "exec" (e.executionIds + 1)) = .blank := by
  by_contra hne
  obtain ⟨n, hn, heq⟩ := hk.numbered _ hne
  have hnumber := identifier_injective "exec" heq
  have hle : n ≤ e.executionIds := hn
  omega

/-- What executing a rule can do. -/
theorem execute_change (hk : e.core.Sound p) (ruleId : String) (data : Fields)
    (context : ExecutionContext) (triggeredBy : Option String) (id : String) :
    Standing.Change e.UsesRule (Run.resumed v.traced now e.world) p now id
      (.execute ruleId data context triggeredBy) (e.core.standing id)
      ((e.execute v.traced now ruleId data context triggeredBy).1.core.standing id) := by
  have hfresh := standing_of_fresh hk
  obtain ⟨_, h⟩ | h | ⟨r, reason, hr, _, h⟩ | ⟨r, x, t, hr, _, hx, hcreate, h⟩ :=
    e.execute_core v.traced now ruleId data context triggeredBy <;> rw [h]
  · exact .of_eq nofun rfl
  · exact .of_eq nofun rfl
  · have hid : (Execution.refused r (identifier "exec" (e.executionIds + 1)) now data context
        triggeredBy reason).id = identifier "exec" (e.executionIds + 1) :=
      (Execution.precedes_move_to _ now _ rfl).id_eq
    by_cases hother : id = identifier "exec" (e.executionIds + 1)
    · rw [← hid] at hfresh
      have hdown := Core.turned_down_standing_self e.core hfresh
      rw [hid, hk.kind] at hdown
      rw [hid] at hfresh
      rw [hother, hdown, hfresh]
      exact .refused ⟨ruleId, hr⟩
    · exact .of_eq nofun (Core.turned_down_standing_of_ne _ (by rwa [hid]))
  · have hid : x.id = identifier "exec" (e.executionIds + 1) := by rw [hx]; rfl
    have hsteps : x.steps = [] := by rw [hx]; rfl
    have hrunning : x.status = .running := by rw [hx]; rfl
    by_cases hother : id = x.id
    · rw [← hid] at hfresh
      obtain ⟨n, hn, hlaunched⟩ := Core.opened_launch_self hk.kind hfresh
        hcreate hsteps hrunning (by rw [hx]; rfl) (Condition.allHold r.conditions x.seen)
      rw [hother, hfresh]
      exact .launched ⟨ruleId, hr⟩ (hid ▸ hx) hn hlaunched
    · refine .of_eq nofun ?_
      rw [Core.launch_standing_of_ne hother hsteps hrunning,
        Core.opened_standing_of_ne _ hother]

/-- What any act can do. -/
theorem act_change (hk : e.core.Sound p) (act : Act) (id : String) :
    Standing.Change e.UsesRule (Run.resumed v.traced now e.world) p now id act (e.core.standing id)
      ((act.apply v.traced now e).core.standing id) := by
  have hleaves : act ≠ .abandon id → (act.apply v.traced now e).core = e.core →
      Standing.Change e.UsesRule (Run.resumed v.traced now e.world) p now id act (e.core.standing id)
        ((act.apply v.traced now e).core.standing id) :=
    fun hact h => .of_eq hact (congrArg (Core.standing · id) h)
  -- what only touches rules, triggers and alarms leaves the core as it is
  cases act with
  | createRule d => exact hleaves nofun (leaves_create_rule v.traced now d e)
  | updateRule ruleId d tenantId => exact hleaves nofun (leaves_update_rule v.traced now ruleId d tenantId e)
  | deactivateRule ruleId tenantId => exact hleaves nofun (leaves_deactivate_rule now ruleId tenantId e)
  | setUp => exact hleaves nofun (leaves_set_up v.traced now e)
  | execute ruleId data context triggeredBy => exact execute_change hk ruleId data context triggeredBy id
  | ring t =>
      rw [Act.apply, ring_core]
      cases t with
      | wake executionId lane => exact Core.go_on_change hk lane
      | expire executionId => exact Core.time_out_change hk
  | cancel executionId tenantId =>
      rw [Act.apply, cancel_core]
      exact Core.cancel_change hk tenantId
  | abandon executionId =>
      rw [Act.apply, abandon_core]
      exact Core.abandon_change _
  | restart => exact .restarted _
  | schedule s => exact hleaves nofun rfl
  | note notes => exact hleaves nofun rfl
  | poll r =>
      refine .of_eq nofun ?_
      rw [Act.apply, host]
      cases hsource : v.traced.source with
      | none => rfl
      | some reading =>
          -- a source is read without a try
          have htries := Environment.traced_source_tries hsource e.world r
          exact congrArg (Standing.mk _ _ _ ∘ TryEvent.of id) htries
  | setAlarms => exact hleaves nofun rfl

end Engine

end Rulebook
