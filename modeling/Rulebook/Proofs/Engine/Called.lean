import Rulebook.Proofs.Engine.Answer
import Rulebook.Proofs.Engine.Change

/-!
# Calls that are under way

Whether the caller of an execution waits for it after an act is told by the versions with which records
are closed: it does after the execution was carried out if the record was not closed then
(`Core.launch_called_iff`), and the ring of an alarm ends that exactly if it closes the record
(`Engine.closed_iff`).
-/

namespace Rulebook

variable {σ : Type} {v : Environment σ} {p : ExecutionStore} {now : Moment} {x : Execution} {r : Rule}

/-- The caller of an execution waits for its run. -/
def Core.IsCalled {σ : Type} (k : Core σ) (id : String) : Prop :=
  ∃ run timed, k.run? id = some run ∧ run.watch = .caller timed

/-- Nobody waits for an execution without a run. -/
theorem Core.not_called {k : Core σ} {id : String} (h : k.run? id = none) : ¬k.IsCalled id := by
  rintro ⟨run, _, hrun, _⟩
  cases h.symm.trans hrun

/-- Whether the caller waits is told by the run that the execution has. -/
theorem Core.called_iff {k : Core σ} {id : String} {run : Run} (h : k.run? id = some run) :
    k.IsCalled id ↔ ∃ timed, run.watch = .caller timed := by
  constructor
  · rintro ⟨run', timed, hrun, hwatch⟩
    obtain rfl := Option.some.inj (h.symm.trans hrun)
    exact ⟨timed, hwatch⟩
  · rintro ⟨timed, hwatch⟩
    exact ⟨run, timed, h, hwatch⟩

/-- After an execution was carried out its caller waits exactly if the record was not closed. -/
theorem Core.launch_called_iff {k : Core (Traced σ)} (hfresh : k.run? x.id = none)
    (hsteps : x.steps = []) (hrunning : x.status = .running) (conditions : Except NumberFault Bool) :
    (k.launch v.traced now r x conditions).IsCalled x.id ↔
      v.traced.launched? now k.world r x conditions = none := by
  rcases conditions with f | _ | _
  · exact iff_of_false (not_called hfresh) nofun
  · exact iff_of_false (not_called hfresh) nofun
  · obtain ⟨l, _, hmoves, _⟩ := v.run_actions_fits now r ⟨k.world, x, []⟩ hsteps hrunning
    unfold launch Environment.launched?
    dsimp only
    rcases hrun : v.traced.runActions now r ⟨k.world, x, []⟩ with ⟨c, _ | phase⟩ <;>
      rw [hrun] at hmoves
    · exact iff_of_false (not_called hfresh) nofun
    · exact iff_of_true ⟨_, _, Keyed.find_add_self _ hmoves.precedes.id_eq hfresh, rfl⟩ rfl

namespace Engine

variable {e : Engine (Traced σ)}

/-- The caller of an execution waits for it exactly if it does so in the core. -/
theorem is_called_iff {σ : Type} {e : Engine σ} {id : String} :
    e.IsCalled id (fun _ => True) ↔ e.core.IsCalled id := by
  constructor
  · rintro ⟨run, timed, hrun, hwatch, _⟩
    exact ⟨run, timed, hrun, hwatch⟩
  · rintro ⟨run, timed, hrun, hwatch⟩
    exact ⟨run, timed, hrun, hwatch, trivial⟩

/-- A reply closes the record of a run for its caller exactly if it ends that the caller waits. -/
theorem wake_closed_iff (hk : e.core.Sound p) (id : String) (lane : Nat) :
    e.closed? v.traced now (.wake id lane) ≠ none ↔
      e.core.IsCalled id ∧ ¬(e.core.goOn v.traced now id lane).IsCalled id := by
  have hsame : e.core.run? id = e.run? id := rfl
  dsimp only [closed?]
  unfold Core.goOn
  cases hrun : e.run? id with
  | none =>
      rw [hrun] at hsame
      exact iff_of_false (not_not_intro rfl) fun h => Core.not_called hsame h.1
  | some run =>
      rw [hrun] at hsame
      have hsound := hk.run_id hrun
      obtain ⟨l, _, hmoves, _⟩ := v.resume_actions_fits now run.rule lane run.phase
        ⟨e.world, run.execution, []⟩ hsound.fits hsound.underway
        fun s hs => hsound.tells.attempts_le hs
      have hworld : e.core.world = e.world := rfl
      rw [Core.called_iff hsame, hsame, hworld]
      dsimp only [Option.bind_some]
      unfold Environment.returned?
      rcases hresume : v.traced.resumeActions now run.rule lane run.phase
        ⟨e.world, run.execution, []⟩ with ⟨c, _ | phase⟩ <;> rw [hresume] at hmoves
      -- the actions are done: the run is dropped, and closed if its caller still waits
      · rcases hwatch : run.watch with timed | _ | _
        · have hdropped : (e.core.dropRun id).run? id = none :=
            Keyed.find_drop_self (fun r : Run => r.execution.id) e.core.runs
          exact iff_of_true (Option.some_ne_none _) ⟨⟨timed, rfl⟩, Core.not_called hdropped⟩
        · exact iff_of_false (not_not_intro rfl) (by rintro ⟨⟨_, ⟨⟩⟩, _⟩)
        · exact iff_of_false (not_not_intro rfl) (by rintro ⟨⟨_, ⟨⟩⟩, _⟩)
      -- an action waits: the run is kept with the same watch
      · refine iff_of_false (not_not_intro rfl) ?_
        rintro ⟨⟨timed, hwatch⟩, hended⟩
        have hid : c.execution.id = id := hmoves.precedes.id_eq.trans hsound.id
        have hput := Core.put_run_standing_self { e.core with world := c.world }
          (r := { run with execution := c.execution, phase }) hsame hid
        exact hended ⟨_, timed, congrArg Standing.run hput, hwatch⟩

/-- The end of the time of a run closes its record exactly if it ends that the caller waits. -/
theorem expire_closed_iff (hk : e.core.Sound p) (id : String) :
    e.closed? v.traced now (.expire id) ≠ none ↔
      e.core.IsCalled id ∧ ¬(e.core.timeOut now id).IsCalled id := by
  have hsame : e.core.run? id = e.run? id := rfl
  dsimp only [closed?]
  unfold Core.timeOut
  cases hrun : e.run? id with
  | none =>
      rw [hrun] at hsame
      exact iff_of_false (not_not_intro rfl) fun h => Core.not_called hsame h.1
  | some run =>
      rw [hrun] at hsame
      rw [Core.called_iff hsame, hsame]
      dsimp only [Option.bind_some]
      by_cases hwatch : run.watch = .caller true
      · rw [if_pos hwatch, if_pos hwatch]
        refine iff_of_true (Option.some_ne_none _) ⟨⟨true, hwatch⟩, ?_⟩
        have hid : (run.execution.expired run.rule now).id = id :=
          (Execution.precedes_expired _ _ now).id_eq.trans (hk.run_id hrun).id
        have hput := Core.put_run_standing_self e.core
          (r := { run with execution := run.execution.expired run.rule now, watch := .late }) hsame hid
        rintro ⟨run', timed, hrun', hcaller⟩
        have hlate := (congrArg Standing.run hput).symm.trans hrun'
        rw [← Option.some.inj hlate] at hcaller
        cases hcaller
      · rw [if_neg hwatch, if_neg hwatch]
        refine iff_of_false (not_not_intro rfl) ?_
        rintro ⟨hcalled, hended⟩
        exact hended ((Core.called_iff hsame).mpr hcalled)

/-- The ring of an alarm closes a record for a caller exactly if it ends that the caller waits. -/
theorem closed_iff (hk : e.core.Sound p) (t : Timer) :
    e.closed? v.traced now t ≠ none ↔ e.IsCalled t.executionId (fun _ => True) ∧
      ¬((Act.ring t).apply v.traced now e).IsCalled t.executionId fun _ => True := by
  rw [is_called_iff, is_called_iff, Act.apply, ring_core]
  cases t with
  | wake id lane => exact wake_closed_iff hk id lane
  | expire id => exact expire_closed_iff hk id

end Engine

end Rulebook
