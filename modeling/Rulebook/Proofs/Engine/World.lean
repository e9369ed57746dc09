import Rulebook.Proofs.Engine.Act
import Rulebook.Proofs.Run.World

/-!
# What acts do to the world

Acts change the state of the services only by beginning tries, by going on with tries and by reading
polled conditions, so what these preserve holds after acts if it holds before them
(`Engine.after_world`).
-/

namespace Rulebook

namespace Core

variable {σ : Type} {v : Environment σ} {P : σ → Prop} {k : Core σ}

/-- To carry out an execution preserves what the environment does. -/
theorem launch_world (h : v.Preserves P) (now : Moment) (r : Rule) (x : Execution)
    (conditions : Except NumberFault Bool) (hk : P k.world) :
    P (k.launch v now r x conditions).world := by
  rcases conditions with f | _ | _
  · exact hk
  · exact hk
  · have hrun := h.run_actions now r ⟨k.world, x, []⟩ hk
    rw [launch]
    rcases hactions : v.runActions now r ⟨k.world, x, []⟩ with ⟨c, _ | p⟩ <;>
      rw [hactions] at hrun <;> exact hrun

/-- To go on with a run preserves what the environment does. -/
theorem go_on_world (h : v.Preserves P) (now : Moment) (id : String) (lane : Nat) (hk : P k.world) :
    P (k.goOn v now id lane).world := by
  rw [goOn]
  cases k.run? id with
  | none => exact hk
  | some run =>
      have hresume := h.resume_actions now run.rule lane run.phase ⟨k.world, run.execution, []⟩ hk
      dsimp only
      rcases hactions : v.resumeActions now run.rule lane run.phase ⟨k.world, run.execution, []⟩
        with ⟨c, _ | p⟩ <;> rw [hactions] at hresume
      · rcases run.watch with timed | _ | _ <;> exact hresume
      · exact hresume

/-- The end of the time of a run changes nothing of the world. -/
theorem time_out_world (now : Moment) (id : String) : (k.timeOut now id).world = k.world := by
  rw [timeOut]
  cases k.run? id with
  | none => rfl
  | some run =>
      dsimp only
      split <;> rfl

/-- To cancel an execution changes nothing of the world. -/
theorem cancel_world (now : Moment) (id : String) (tenantId : Option String) :
    (k.cancel now id tenantId).world = k.world := by
  rw [cancel]
  cases k.run? id with
  | none => rfl
  | some run =>
      cases k.inFlight.contains id with
      | false => rfl
      | true =>
          dsimp only
          split
          · rcases run.execution.moveTo .cancelled now (some "Execution cancelled") with ⟨y, _ | _⟩ <;>
              rfl
          · rfl

/-- The going away of a caller changes nothing of the world. -/
theorem abandon_world (id : String) : (k.abandon id).world = k.world := by
  rw [abandon]
  rcases (k.run? id).map Run.watch with _ | (_ | _) | _ | _ <;> rfl

end Core

namespace Engine

variable {σ : Type} {v : Environment σ} {P : σ → Prop} {now : Moment} {e : Engine σ}

/-- An act preserves what the environment does. -/
theorem act_world (h : v.Preserves P) (act : Act) (he : P e.world) :
    P (act.apply v now e).world := by
  have hleaves : (act.apply v now e).core = e.core → P (act.apply v now e).world := by
    intro hcore
    have hworld : (act.apply v now e).world = e.world := congrArg Core.world hcore
    rwa [hworld]
  cases act with
  | createRule d => exact hleaves (leaves_create_rule v now d e)
  | updateRule ruleId d tenantId => exact hleaves (leaves_update_rule v now ruleId d tenantId e)
  | deactivateRule ruleId tenantId => exact hleaves (leaves_deactivate_rule now ruleId tenantId e)
  | setUp => exact hleaves (leaves_set_up v now e)
  | execute ruleId data context triggeredBy =>
      change P (e.execute v now ruleId data context triggeredBy).1.core.world
      obtain ⟨_, h'⟩ | h' | ⟨_, _, _, _, h'⟩ | ⟨_, _, _, _, _, _, _, h'⟩ :=
        e.execute_core v now ruleId data context triggeredBy <;> rw [h']
      · exact he
      · exact he
      · exact he
      · exact Core.launch_world h now _ _ _ he
  | ring t =>
      change P (e.ring v now t).1.core.world
      rw [ring_core]
      cases t with
      | wake executionId lane => exact Core.go_on_world h now _ _ he
      | expire executionId => exact (Core.time_out_world now executionId).symm ▸ he
  | cancel executionId tenantId =>
      change P (e.perform (cancel now executionId tenantId)).1.core.world
      rw [cancel_core, Core.cancel_world]
      exact he
  | abandon executionId =>
      change P (e.abandon executionId).core.world
      rw [abandon_core, Core.abandon_world]
      exact he
  | poll r =>
      rw [Act.apply, host]
      cases hsource : v.source with
      | none => exact he
      | some reading => exact h.reads reading hsource e.world r he
  | _ => exact he

/-- Acts preserve what the environment does. -/
theorem after_world (h : v.Preserves P) (acts : List (Moment × Act)) (he : P e.world) :
    P (e.after v acts).world := by
  induction acts generalizing e with
  | nil => exact he
  | cons act acts ih => exact ih (act_world h act.2 he)

/-- After acts on an engine that has seen no tries, those are refused that nothing handles. -/
theorem after_refused {v : Environment σ} {e : Engine (Traced σ)} (he : e.world.tries = [])
    (acts : List (Moment × Act)) (id : String) :
    TryEvent.Refused v (TryEvent.of id (e.after v.traced acts).world.tries) := by
  have hnew : TryEvent.Refused v e.world.tries := by
    rw [he]
    exact fun _ _ _ => Nat.le_refl _
  exact (after_world v.preserves_refused acts hnew).of id

end Engine

end Rulebook
