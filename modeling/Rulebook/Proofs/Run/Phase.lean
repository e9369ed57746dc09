import Rulebook.Proofs.Run.Step
import Mathlib.Data.List.Forall2

/-!
# Phases of a run

The steps of an execution stand for the actions of its rule in order. `Phase.Fits` says how they do
while actions wait: one after another, all steps but the last have passed and the last one runs; side
by side, each lane shows how far its step is. `Execution.Over` says how they do when the actions are
done: all have passed, or the execution failed because of the first that must not fail and did, or
it was stopped before. Running actions (`Environment.run_actions_fits`) and going on with them
(`Environment.resume_actions_fits`) leads from one to the other by moves.
-/

namespace Rulebook

namespace ExecutionStep

/-- The step of an action that waits. -/
def RunsFor (s : ExecutionStep) (a : Action) : Prop := s.title = a.title ∧ s.status = .running

/-- The step of an action that is done well or not. -/
def Ends (s : ExecutionStep) (a : Action) (succeeded : Bool) : Prop :=
  s.title = a.title ∧ s.status = if succeeded then .completed else .failed

/-- The step of an action that is done and lets the execution go on. -/
def Passes (s : ExecutionStep) (a : Action) : Prop :=
  ∃ succeeded, s.Ends a succeeded ∧ a.isFatal succeeded = false

/-- The step of an action that must not fail and did. -/
def Fails (s : ExecutionStep) (a : Action) : Prop :=
  ∃ succeeded, s.Ends a succeeded ∧ a.isFatal succeeded = true

end ExecutionStep

/-- A lane shows how far the step of an action is. -/
def Lane.Shows (n : Nat) (a : Action) (s : ExecutionStep) : Lane → Prop
  | .waits o => o.action = a ∧ o.step = n ∧ s.RunsFor a
  | .done b succeeded => b = a ∧ s.Ends a succeeded

/-- Lanes show how far the steps of actions are; the first of the steps has the given place. -/
inductive LanesFit : Nat → List Action → List ExecutionStep → List Lane → Prop where
  | nil (n : Nat) : LanesFit n [] [] []
  | cons {n : Nat} {a : Action} {A : List Action} {s : ExecutionStep} {S : List ExecutionStep}
      {lane : Lane} {l : List Lane} :
      lane.Shows n a s → LanesFit (n + 1) A S l → LanesFit n (a :: A) (s :: S) (lane :: l)

/-- The status of an execution whose actions run: under way, unless it was stopped. -/
def Execution.IsUnderway (x : Execution) : Prop := x.status = .running ∨ x.isStopped = true

/-- The steps stand for actions that wait. -/
def Phase.Fits (parallel : Bool) (A : List Action) (x : Execution) : Phase → Prop
  | .sequence o rest => parallel = false ∧ ∃ before done s, A = before ++ o.action :: rest ∧
      x.steps = done ++ [s] ∧ o.step = done.length ∧
      List.Forall₂ ExecutionStep.Passes done before ∧ s.RunsFor o.action
  | .lanes l => parallel = true ∧ LanesFit 0 A x.steps l

/-- The steps stand for actions that are done. -/
inductive Execution.Over (now : Moment) (parallel : Bool) (A : List Action) : Execution → Prop where
  /-- All have passed. -/
  | passed {x : Execution} (hpass : List.Forall₂ ExecutionStep.Passes x.steps A)
      (hx : x.IsUnderway) : Over now parallel A x
  /-- The execution was stopped before all had their turn. -/
  | stopped {x : Execution} {before rest : List Action} (hsequence : parallel = false)
      (hA : A = before ++ rest) (hpass : List.Forall₂ ExecutionStep.Passes x.steps before)
      (hx : x.isStopped = true) : Over now parallel A x
  /-- The execution fails because of the first action that must not fail and did. -/
  | failed {x : Execution} {before after : List Action} {a : Action} {done more : List ExecutionStep}
      {s : ExecutionStep} (hA : A = before ++ a :: after) (hsteps : x.steps = done ++ s :: more)
      (hpass : List.Forall₂ ExecutionStep.Passes done before) (hfail : s.Fails a)
      (hmore : if parallel then List.Forall₂ (fun s a => ∃ succeeded, s.Ends a succeeded) more after
        else more = [])
      (hx : x.IsUnderway) : Over now parallel A (x.failFor a now)

/-- The steps stand for actions, whether they wait or are done. -/
def PhaseEnd.Fits (now : Moment) (parallel : Bool) (A : List Action) (x : Execution) :
    PhaseEnd → Prop
  | .done => x.Over now parallel A
  | .waits p => p.Fits parallel A x ∧ x.IsUnderway

/-- An execution whose actions run has ended only if it was stopped. -/
theorem Execution.IsUnderway.ends_outside {x : Execution} (h : x.IsUnderway) : x.EndsOutside := by
  intro hx
  obtain hrunning | hstopped := h
  · rw [isTerminal, hrunning] at hx
    cases hx
  · exact hstopped

/-- An execution under way has ended exactly if it was stopped. -/
theorem Execution.IsUnderway.is_terminal_eq {x : Execution} (h : x.IsUnderway) :
    x.isTerminal = x.isStopped := by
  cases hstopped : x.isStopped with
  | true => exact is_terminal_of_stopped hstopped
  | false =>
      cases hterminal : x.isTerminal with
      | false => rfl
      | true => exact absurd (h.ends_outside hterminal) (by simp [hstopped])

namespace ExecutionStep

variable {s : ExecutionStep} {a : Action}

/-- The step of an action that is done has ended. -/
theorem Ends.is_ended {succeeded : Bool} (h : s.Ends a succeeded) : s.isEnded = true := by
  cases succeeded <;> simp [isEnded, h.2]

/-- Steps that stand for actions that are done have ended. -/
theorem ended_of_forall {P : ExecutionStep → Action → Prop}
    (hP : ∀ s a, P s a → ∃ succeeded, s.Ends a succeeded) {S : List ExecutionStep} {A : List Action}
    (h : List.Forall₂ P S A) : ∀ s ∈ S, s.isEnded = true := by
  induction h with
  | nil => exact fun s hs => by cases hs
  | cons hhead _ ih =>
      obtain ⟨_, hends⟩ := hP _ _ hhead
      exact List.forall_mem_cons.mpr ⟨hends.is_ended, ih⟩

/-- Steps that pass have ended. -/
theorem ended_of_passes {S : List ExecutionStep} {A : List Action}
    (h : List.Forall₂ Passes S A) : ∀ s ∈ S, s.isEnded = true :=
  ended_of_forall (fun _ _ ⟨succeeded, hends, _⟩ => ⟨succeeded, hends⟩) h

end ExecutionStep

/-- When the actions are done all steps have ended. -/
theorem Execution.Over.all_ended {now : Moment} {parallel : Bool} {A : List Action} {x : Execution}
    (h : x.Over now parallel A) : ∀ s ∈ x.steps, s.isEnded = true := by
  cases h with
  | passed hpass => exact ExecutionStep.ended_of_passes hpass
  | stopped _ _ hpass => exact ExecutionStep.ended_of_passes hpass
  | failed _ hsteps hpass hfail hmore =>
      obtain ⟨_, hends, _⟩ := hfail
      rw [fail_for_steps, hsteps]
      refine List.forall_mem_append.mpr ⟨ExecutionStep.ended_of_passes hpass,
        List.forall_mem_cons.mpr ⟨hends.is_ended, ?_⟩⟩
      cases parallel with
      | true => exact ExecutionStep.ended_of_forall (fun _ _ h => h) hmore
      | false =>
          rw [show _ = [] from hmore]
          exact fun s hs => by cases hs

/-- Steps that are kept stand for the same actions. -/
theorem Phase.Fits.of_steps {p : Phase} {parallel : Bool} {A : List Action} {x y : Execution}
    (h : p.Fits parallel A x) (hsteps : y.steps = x.steps) : p.Fits parallel A y := by
  cases p <;> simpa only [Fits, hsteps] using h

variable {now : Moment} {retries : Nat} {x : Execution} {a : Action} {s : ExecutionStep} {n : Nat}

/-- The action after the first ones is in the place that their number gives. -/
theorem get_of_split {A before after : List Action} (hA : A = before ++ a :: after)
    (hn : n = before.length) : A[n]? = some a := by
  rw [hA, hn, List.getElem?_append_right le_rfl, Nat.sub_self, List.getElem?_cons_zero]

namespace LanesFit

variable {A : List Action} {S : List ExecutionStep} {l : List Lane} {i : Nat}

/-- The step that a lane waits for runs for its action, in its place. -/
theorem get_waits (h : LanesFit n A S l) {o : OpenStep} (ho : l[i]? = some (.waits o)) :
    o.step = n + i ∧ A[i]? = some o.action ∧ ∃ s, S[i]? = some s ∧ s.RunsFor o.action := by
  induction h generalizing i with
  | nil => cases ho
  | cons hshows _ ih =>
      cases i with
      | zero =>
          rw [List.getElem?_cons_zero, Option.some.injEq] at ho
          subst ho
          obtain ⟨rfl, hplace, hruns⟩ := hshows
          exact ⟨hplace, List.getElem?_cons_zero, _, List.getElem?_cons_zero, hruns⟩
      | succ i =>
          rw [List.getElem?_cons_succ] at ho
          obtain ⟨hplace, ha, s, hs, hruns⟩ := ih ho
          exact ⟨by omega, ha, s, hs, hruns⟩

/-- A lane can be replaced together with the step of its action. -/
theorem set (h : LanesFit n A S l) {o : OpenStep} (ho : l[i]? = some (.waits o)) {lane : Lane}
    (hlane : lane.Shows (n + i) o.action s) : LanesFit n A (S.set i s) (l.set i lane) := by
  induction h generalizing i with
  | nil => exact .nil _
  | cons hshows hrest ih =>
      cases i with
      | zero =>
          rw [List.getElem?_cons_zero, Option.some.injEq] at ho
          subst ho
          obtain ⟨rfl, _, _⟩ := hshows
          exact .cons hlane hrest
      | succ i =>
          rw [List.getElem?_cons_succ] at ho
          exact .cons hshows (ih ho (by rwa [Nat.add_assoc, Nat.add_comm 1 i]))

/-- Lanes that are all done show the steps of actions that are done. -/
theorem ends (h : LanesFit n A S l) (hdone : l.any (·.isOpen) = false) :
    List.Forall₂ (fun s a => ∃ succeeded, s.Ends a succeeded) S A := by
  induction h with
  | nil => exact .nil
  | @cons _ _ _ _ _ lane _ hshows _ ih =>
      rw [List.any_cons, Bool.or_eq_false_iff] at hdone
      cases lane with
      | waits o => cases hdone.1
      | done b succeeded => exact .cons ⟨succeeded, hshows.2⟩ (ih hdone.2)

/-- All actions have passed if no lane shows one that must not fail and did. -/
theorem passes (h : LanesFit n A S l) (hdone : l.any (·.isOpen) = false)
    (hfatal : l.findSome? (·.fatal?) = none) : List.Forall₂ ExecutionStep.Passes S A := by
  induction h with
  | nil => exact .nil
  | @cons _ _ _ _ _ lane _ hshows _ ih =>
      rw [List.any_cons, Bool.or_eq_false_iff] at hdone
      rw [List.findSome?_eq_none_iff, List.forall_mem_cons] at hfatal
      cases lane with
      | waits o => cases hdone.1
      | done b succeeded =>
          obtain ⟨rfl, hends⟩ := hshows
          have hpass : b.isFatal succeeded = false := by
            have hnone := hfatal.1
            simpa [Lane.fatal?] using hnone
          exact .cons ⟨succeeded, hends, hpass⟩ (ih hdone.2 (List.findSome?_eq_none_iff.mpr hfatal.2))

/-- The first lane that shows an action that must not fail and did splits the steps. -/
theorem fails (h : LanesFit n A S l) (hdone : l.any (·.isOpen) = false)
    (hfatal : l.findSome? (·.fatal?) = some a) :
    ∃ before after done s more, A = before ++ a :: after ∧ S = done ++ s :: more ∧
      List.Forall₂ ExecutionStep.Passes done before ∧ s.Fails a ∧
      List.Forall₂ (fun s a => ∃ succeeded, s.Ends a succeeded) more after := by
  induction h with
  | nil => cases hfatal
  | @cons _ b A s S lane l hshows hrest ih =>
      rw [List.any_cons, Bool.or_eq_false_iff] at hdone
      cases lane with
      | waits o => cases hdone.1
      | done c succeeded =>
          obtain ⟨rfl, hends⟩ := hshows
          rw [List.findSome?_cons] at hfatal
          cases hb : c.isFatal succeeded with
          | true =>
              obtain rfl : c = a := by simpa [Lane.fatal?, hb] using hfatal
              exact ⟨[], A, [], s, S, rfl, rfl, .nil, ⟨succeeded, hends, hb⟩, hrest.ends hdone.2⟩
          | false =>
              have hlater : l.findSome? (·.fatal?) = some a := by
                simpa [Lane.fatal?, hb] using hfatal
              obtain ⟨before, after, done, t, more, rfl, rfl, hpass, hfail, hmore⟩ :=
                ih hdone.2 hlater
              exact ⟨c :: before, after, s :: done, t, more, rfl, rfl,
                .cons ⟨succeeded, hends, hb⟩ hpass, hfail, hmore⟩

end LanesFit

/-- Actions lead from one course to where they wait or are done: the tries that are made are recorded,
the execution moves, and its steps stand for the actions. -/
def Course.LeadsTo {σ : Type} (now : Moment) (retries : Nat) (parallel : Bool) (A : List Action)
    (c : Course (Traced σ)) (r : Course (Traced σ) × PhaseEnd) : Prop :=
  ∃ l, r.1.world.tries = c.world.tries ++ l ∧ Moves now retries A c.execution l r.1.execution ∧
    r.2.Fits now parallel A r.1.execution

namespace Course.LeadsTo

variable {σ : Type} {parallel : Bool} {A : List Action} {c c' : Course (Traced σ)}
  {r : Course (Traced σ) × PhaseEnd}

/-- Where nothing is done, the steps stand for the actions as they did. -/
theorem refl {e : PhaseEnd} (h : e.Fits now parallel A c.execution) :
    c.LeadsTo now retries parallel A (c, e) :=
  ⟨[], (List.append_nil _).symm, .refl _, h⟩

/-- What moves and tries lead to, actions that go on from there lead to. -/
theorem trans {l : List TryEvent} (htries : c'.world.tries = c.world.tries ++ l)
    (hmoves : Moves now retries A c.execution l c'.execution) (h : c'.LeadsTo now retries parallel A r) :
    c.LeadsTo now retries parallel A r := by
  obtain ⟨k, htries', hmoves', hfits⟩ := h
  refine ⟨l ++ k, ?_, hmoves.trans hmoves', hfits⟩
  rw [htries', htries, List.append_assoc]

/-- An execution that fails because of an action moves without a try. -/
theorem fail (h : (c.execution.failFor a now).Over now parallel A) :
    c.LeadsTo now retries parallel A (c.failFor a now, .done) :=
  ⟨[], (List.append_nil _).symm, (Move.fail _ a).moves, h⟩

end Course.LeadsTo

namespace Environment

variable (now retries) {σ : Type} (v : Environment σ)

/-- Running actions after others that have passed leads to steps that stand for all of them. -/
theorem run_sequence_fits {A before rest : List Action} (c : Course (Traced σ))
    (hA : A = before ++ rest) (hpass : List.Forall₂ ExecutionStep.Passes c.execution.steps before)
    (hx : c.execution.IsUnderway) :
    c.LeadsTo now retries false A (v.traced.runSequence now retries rest c) := by
  -- the actions already passed grow by the one that passes next
  induction rest generalizing c before with
  | nil =>
      rw [List.append_nil] at hA
      exact .refl (.passed (hA ▸ hpass) hx)
  | cons a rest ih =>
      rw [runSequence]
      split
      next hterminal => exact .refl (.stopped rfl hA hpass (hx.ends_outside hterminal))
      next hopen =>
        obtain ⟨l, t, htries, hmoves, hadded, htitle, hleaves⟩ :=
          v.begin_step_tried now retries a c (get_of_split hA hpass.length_eq)
            (Bool.eq_false_iff.mpr hopen)
        rcases hbegin : v.traced.beginStep now retries a c with ⟨c', e⟩
        rw [hbegin] at htries hmoves hadded hleaves
        dsimp only at htries hmoves hadded hleaves ⊢
        have hx' : c'.execution.IsUnderway := by rwa [hadded]
        have hsteps : c'.execution.steps = c.execution.steps ++ [t] := by rw [hadded]
        refine .trans htries hmoves ?_
        cases e with
        | waits o =>
            obtain ⟨rfl, hplace, hrunning⟩ := hleaves
            exact .refl ⟨⟨rfl, _, _, t, hA, hsteps, hplace, hpass, htitle, hrunning⟩, hx'⟩
        | done succeeded =>
            have hends : t.Ends a succeeded := ⟨htitle, hleaves⟩
            dsimp only
            split
            next hfatal => exact .fail (.failed hA hsteps hpass ⟨_, hends, hfatal⟩ rfl hx')
            next hfatal =>
              have hpasses : t.Passes a := ⟨_, hends, Bool.eq_false_iff.mpr hfatal⟩
              exact ih c' (hA.trans (List.append_cons _ _ _))
                (hsteps ▸ List.rel_append hpass (.cons hpasses .nil)) hx'

/-- Starting actions side by side adds the steps that their lanes show. -/
theorem start_lanes_fits {B before : List Action} (A : List Action) (c : Course (Traced σ))
    (hB : B = before ++ A) (hplace : c.execution.steps.length = before.length)
    (hopen : c.execution.isTerminal = false) :
    ∃ l S, (v.traced.startLanes now retries A c).1.world.tries = c.world.tries ++ l ∧
      Moves now retries B c.execution l (v.traced.startLanes now retries A c).1.execution ∧
      (v.traced.startLanes now retries A c).1.execution =
        { c.execution with steps := c.execution.steps ++ S } ∧
      LanesFit c.execution.steps.length A S (v.traced.startLanes now retries A c).2 := by
  -- the actions already started grow by the one that starts, and with them the place of the next step
  induction A generalizing c before with
  | nil =>
      exact ⟨[], [], (List.append_nil _).symm, .refl _, by rw [List.append_nil]; rfl, .nil _⟩
  | cons a A ih =>
      obtain ⟨l, t, htries, hmoves, hadded, htitle, hleaves⟩ :=
        v.begin_step_tried now retries a c (get_of_split hB hplace) hopen
      rcases hbegin : v.traced.beginStep now retries a c with ⟨c', e⟩
      rw [hbegin] at htries hmoves hadded hleaves
      dsimp only at htries hmoves hadded hleaves
      obtain ⟨k, S, htries', hmoves', hadded', hfits⟩ := ih c' (hB.trans (List.append_cons _ _ _))
        (by rw [hadded, List.length_append, List.length_append, hplace]; rfl) (by rwa [hadded])
      rcases hstart : v.traced.startLanes now retries A c' with ⟨c'', lanes⟩
      rw [hstart] at htries' hmoves' hadded' hfits
      dsimp only at htries' hmoves' hadded' hfits
      rw [hadded] at hadded' hfits
      have hsteps : c''.execution = { c.execution with steps := c.execution.steps ++ t :: S } := by
        rw [hadded', List.append_assoc, List.singleton_append]
      rw [List.length_append] at hfits
      have htries'' : c''.world.tries = c.world.tries ++ (l ++ k) := by
        rw [htries', htries, List.append_assoc]
      rw [startLanes, hbegin]
      dsimp only
      rw [hstart]
      cases e with
      | waits o =>
          obtain ⟨rfl, hstep, hrunning⟩ := hleaves
          exact ⟨l ++ k, t :: S, htries'', hmoves.trans hmoves', hsteps,
            .cons ⟨rfl, hstep, htitle, hrunning⟩ hfits⟩
      | done succeeded =>
          exact ⟨l ++ k, t :: S, htries'', hmoves.trans hmoves', hsteps,
            .cons ⟨rfl, htitle, hleaves⟩ hfits⟩

/-- Actions that run side by side wait until all are done; then all have passed or the execution fails
because of the first that must not fail and did. -/
theorem close_lanes_fits {A : List Action} {l : List Lane} (c : Course (Traced σ))
    (hfits : LanesFit 0 A c.execution.steps l) (hx : c.execution.IsUnderway) :
    c.LeadsTo now retries true A (closeLanes now l c) := by
  rw [closeLanes]
  split
  next hopen => exact .refl ⟨⟨rfl, hfits⟩, hx⟩
  next hdone =>
    have hdone := Bool.eq_false_iff.mpr hdone
    cases hfatal : l.findSome? (·.fatal?) with
    | none => exact .refl (.passed (hfits.passes hdone hfatal) hx)
    | some a =>
        obtain ⟨before, after, done, s, more, hA, hsteps, hpass, hfail, hmore⟩ :=
          hfits.fails hdone hfatal
        exact .fail (.failed hA hsteps hpass hfail hmore hx)

/-- Running the actions of a rule leads from an execution without steps to steps that stand for the
actions. -/
theorem run_actions_fits (r : Rule) (c : Course (Traced σ)) (hsteps : c.execution.steps = [])
    (hrunning : c.execution.status = .running) :
    c.LeadsTo now r.settings.retryAttempts.toNat r.settings.runInParallel r.enabledActions
      (v.traced.runActions now r c) := by
  rw [runActions]
  dsimp only
  split
  next hparallel =>
    rw [hparallel]
    have hopen : c.execution.isTerminal = false := by rw [Execution.isTerminal, hrunning]; rfl
    obtain ⟨l, S, htries, hmoves, hadded, hfits⟩ :=
      v.start_lanes_fits now r.settings.retryAttempts.toNat r.enabledActions c (List.nil_append _).symm
        (hsteps ▸ rfl) hopen
    rcases hstart : v.traced.startLanes now r.settings.retryAttempts.toNat r.enabledActions c
      with ⟨c', lanes⟩
    rw [hstart] at htries hmoves hadded hfits
    dsimp only at htries hmoves hadded hfits ⊢
    rw [hsteps, List.nil_append] at hadded
    have hfits' : LanesFit 0 r.enabledActions c'.execution.steps lanes := by
      rw [hadded]
      rwa [hsteps] at hfits
    have hx : c'.execution.IsUnderway := .inl (by rw [hadded]; exact hrunning)
    exact .trans htries hmoves
      (close_lanes_fits now r.settings.retryAttempts.toNat c' hfits' hx)
  next hsequence =>
    rw [Bool.eq_false_iff.mpr hsequence]
    exact v.run_sequence_fits now _ c (List.nil_append _).symm (hsteps ▸ .nil) (.inl hrunning)

/-- When a reply comes to actions that run one after another, the rest are run if the action that waits
is done and has passed. -/
theorem resume_sequence_fits (r : Rule) (lane : Nat) {o : OpenStep} {rest : List Action}
    (c : Course (Traced σ))
    (hfits : (Phase.sequence o rest).Fits r.settings.runInParallel r.enabledActions c.execution)
    (hx : c.execution.IsUnderway)
    (hattempts : ∀ s ∈ c.execution.steps, s.attempts ≤ r.settings.retryAttempts.toNat + 1) :
    c.LeadsTo now r.settings.retryAttempts.toNat r.settings.runInParallel r.enabledActions
      (v.traced.resumeActions now r lane (.sequence o rest) c) := by
  rw [resumeActions]
  obtain ⟨hsequence, before, done, s, hA, hsteps, hplace, hpass, htitle, hrunning⟩ := hfits
  have hs : c.execution.steps[o.step]? = some s := by
    rw [hsteps, hplace]
    exact List.getElem?_concat_length
  obtain ⟨l, t, htries, htried, hleaves⟩ := v.resume_step_tried now
    r.settings.retryAttempts.toNat o c (get_of_split hA (hplace.trans hpass.length_eq)) hs hrunning
    (hattempts s (List.mem_of_getElem? hs)) hx.ends_outside
  rcases hresume : v.traced.resumeStep now r.settings.retryAttempts.toNat o c with ⟨c', e⟩
  rw [hresume] at htries htried hleaves
  dsimp only at htries htried hleaves ⊢
  rw [hsequence]
  have hx' : c'.execution.IsUnderway := by rwa [htried.others]
  have hsteps' : c'.execution.steps = done ++ [t] := by
    rw [htried.others, hsteps, hplace]
    simp
  have htitle' : t.title = o.action.title := htried.title.trans htitle
  refine .trans htries htried.moves ?_
  cases e with
  | waits o' =>
      obtain ⟨haction, hplace', hrunning'⟩ := hleaves
      refine .refl ⟨⟨rfl, before, done, t, ?_, hsteps', ?_, hpass, ?_⟩, hx'⟩
      · rw [haction, hA]
      · rw [hplace', hplace]
      · exact ⟨haction ▸ htitle', hrunning'⟩
  | done succeeded =>
      have hends : t.Ends o.action succeeded := ⟨htitle', hleaves⟩
      dsimp only
      split
      next hfatal => exact .fail (.failed hA hsteps' hpass ⟨_, hends, hfatal⟩ rfl hx')
      next hfatal =>
        have hpasses : t.Passes o.action := ⟨_, hends, Bool.eq_false_iff.mpr hfatal⟩
        exact v.run_sequence_fits now _ c' (hA.trans (List.append_cons _ _ _))
          (hsteps' ▸ List.rel_append hpass (.cons hpasses .nil)) hx'

/-- When a reply comes to actions that run side by side, only the lane that waits for it goes on. -/
theorem resume_lanes_fits (r : Rule) (lane : Nat) {l : List Lane} (c : Course (Traced σ))
    (hfits : (Phase.lanes l).Fits r.settings.runInParallel r.enabledActions c.execution)
    (hx : c.execution.IsUnderway)
    (hattempts : ∀ s ∈ c.execution.steps, s.attempts ≤ r.settings.retryAttempts.toNat + 1) :
    c.LeadsTo now r.settings.retryAttempts.toNat r.settings.runInParallel r.enabledActions
      (v.traced.resumeActions now r lane (.lanes l) c) := by
  have hstay : c.LeadsTo now r.settings.retryAttempts.toNat r.settings.runInParallel r.enabledActions
      (c, .waits (.lanes l)) := .refl ⟨hfits, hx⟩
  obtain ⟨hparallel, hfits⟩ := hfits
  cases hlane : l[lane]? with
  | none => simpa only [resumeActions, hlane] using hstay
  | some entry =>
      cases entry with
      | done b succeeded => simpa only [resumeActions, hlane] using hstay
      | waits o =>
          obtain ⟨hplace, ha, s, hs, htitle, hrunning⟩ := hfits.get_waits hlane
          rw [Nat.zero_add] at hplace
          subst hplace
          obtain ⟨k, t, htries, htried, hleaves⟩ := v.resume_step_tried now
            r.settings.retryAttempts.toNat o c ha hs hrunning (hattempts s (List.mem_of_getElem? hs))
            hx.ends_outside
          rcases hresume : v.traced.resumeStep now r.settings.retryAttempts.toNat o c with ⟨c', e⟩
          rw [hresume] at htries htried hleaves
          dsimp only at htries htried hleaves
          simp only [resumeActions, hlane]
          rw [hresume, hparallel]
          have hx' : c'.execution.IsUnderway := by rwa [htried.others]
          have hsteps : c'.execution.steps = c.execution.steps.set o.step t := by
            rw [htried.others]
          have htitle' : t.title = o.action.title := htried.title.trans htitle
          refine .trans htries htried.moves ?_
          cases e with
          | waits o' =>
              obtain ⟨haction, hplace, hrunning'⟩ := hleaves
              have hshows : (Lane.waits o').Shows (0 + o.step) o.action t :=
                ⟨haction, by rw [hplace, Nat.zero_add], htitle', hrunning'⟩
              exact .refl ⟨⟨rfl, hsteps ▸ hfits.set hlane hshows⟩, hx'⟩
          | done succeeded =>
              have hshows : (Lane.done o.action succeeded).Shows (0 + o.step) o.action t :=
                ⟨rfl, htitle', hleaves⟩
              exact close_lanes_fits now r.settings.retryAttempts.toNat c'
                (hsteps ▸ hfits.set hlane hshows) hx'

/-- Going on with the actions of a rule keeps the steps standing for the actions. -/
theorem resume_actions_fits (r : Rule) (lane : Nat) (p : Phase) (c : Course (Traced σ))
    (hfits : p.Fits r.settings.runInParallel r.enabledActions c.execution)
    (hx : c.execution.IsUnderway)
    (hattempts : ∀ s ∈ c.execution.steps, s.attempts ≤ r.settings.retryAttempts.toNat + 1) :
    c.LeadsTo now r.settings.retryAttempts.toNat r.settings.runInParallel r.enabledActions
      (v.traced.resumeActions now r lane p c) := by
  cases p with
  | sequence o rest => exact v.resume_sequence_fits now r lane c hfits hx hattempts
  | lanes l => exact v.resume_lanes_fits now r lane c hfits hx hattempts

end Environment

end Rulebook
