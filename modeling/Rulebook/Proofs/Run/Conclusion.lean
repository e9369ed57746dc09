import Rulebook.Proofs.Run.Phase

/-!
# What actions make of an execution

The steps of an execution follow the actions of its rule (`StepsFollow`): one after another they stand
for the first of them, and all but the last have passed; side by side they stand for all. An execution
that has ended (`Execution.Concluded`) was completed after all actions passed, failed because of the
first action that must not fail and did, or was stopped.
-/

namespace Rulebook

/-- Steps stand for actions in order; of steps one after another all but the last have passed. -/
structure StepsFollow (parallel : Bool) (A : List Action) (S : List ExecutionStep) : Prop where
  titles : if parallel then S.map (·.title) = A.map (·.title)
    else S.map (·.title) <+: A.map (·.title)
  passed : parallel = false → ∀ (n : Nat) s a, S[n]? = some s → A[n]? = some a → n + 1 < S.length →
    s.Passes a

/-- How an execution that has ended came to its end. -/
inductive Execution.Concluded (parallel : Bool) (A : List Action) (x : Execution) : Prop where
  /-- All actions passed. -/
  | completed (hstatus : x.status = .completed)
      (hpass : List.Forall₂ ExecutionStep.Passes x.steps A) : Concluded parallel A x
  /-- The first action that must not fail and did is named; one after another no step follows. -/
  | failed {before after : List Action} {a : Action} {done more : List ExecutionStep}
      {s : ExecutionStep} (hstatus : x.status = .failed)
      (herror : x.error = some ("Action failed: " ++ a.displayName)) (hA : A = before ++ a :: after)
      (hsteps : x.steps = done ++ s :: more)
      (hpass : List.Forall₂ ExecutionStep.Passes done before) (hfail : s.Fails a)
      (hmore : if parallel then List.Forall₂ (fun s a => ∃ succeeded, s.Ends a succeeded) more after
        else more = []) : Concluded parallel A x
  /-- It was stopped. -/
  | stopped (hstatus : x.isStopped = true) : Concluded parallel A x

variable {now : Moment} {parallel : Bool} {A before rest : List Action} {a : Action}
  {S done : List ExecutionStep} {s : ExecutionStep} {x : Execution}

namespace ExecutionStep

/-- The step of an action that passes has the title of the action. -/
theorem Passes.title_eq (h : s.Passes a) : s.title = a.title := by
  obtain ⟨_, hends, _⟩ := h
  exact hends.1

/-- Steps that stand for actions have their titles. -/
theorem titles_of_forall {P : ExecutionStep → Action → Prop} (hP : ∀ s a, P s a → s.title = a.title)
    (h : List.Forall₂ P S A) : S.map (·.title) = A.map (·.title) := by
  induction h with
  | nil => rfl
  | cons hhead _ ih => rw [List.map_cons, List.map_cons, hP _ _ hhead, ih]

/-- Steps that pass have the titles of the actions. -/
theorem titles_of_passes (h : List.Forall₂ Passes S A) : S.map (·.title) = A.map (·.title) :=
  titles_of_forall (fun _ _ => Passes.title_eq) h

/-- Of steps that pass, each passes for the action in its place. -/
theorem passes_at (h : List.Forall₂ Passes S A) {n : Nat} (hs : S[n]? = some s) (ha : A[n]? = some a) :
    s.Passes a := by
  induction h generalizing n with
  | nil => cases hs
  | cons hhead _ ih =>
      cases n with
      | zero =>
          rw [List.getElem?_cons_zero, Option.some.injEq] at hs ha
          exact hs ▸ ha ▸ hhead
      | succ n =>
          rw [List.getElem?_cons_succ] at hs ha
          exact ih hs ha

end ExecutionStep

namespace StepsFollow

/-- Steps that pass follow the actions. -/
theorem of_passes (parallel : Bool) (h : List.Forall₂ ExecutionStep.Passes S A) :
    StepsFollow parallel A S where
  titles := by
    have htitles := ExecutionStep.titles_of_passes h
    cases parallel with
    | true => exact htitles
    | false => exact htitles ▸ List.prefix_refl _
  passed _ n s a hs ha _ := ExecutionStep.passes_at h hs ha

/-- Steps that pass follow the actions when more actions come after. -/
theorem of_passes_before (hA : A = before ++ rest)
    (h : List.Forall₂ ExecutionStep.Passes S before) : StepsFollow false A S where
  titles := by
    rw [hA, List.map_append, ← ExecutionStep.titles_of_passes h]
    exact List.prefix_append _ _
  passed _ n s a hs ha _ := by
    have hn : n < before.length := h.length_eq ▸ (List.getElem?_eq_some_iff.mp hs).1
    rw [hA, List.getElem?_append_left hn] at ha
    exact ExecutionStep.passes_at h hs ha

/-- Steps of which all but the last pass follow the actions. -/
theorem of_last (hA : A = before ++ a :: rest) (hS : S = done ++ [s])
    (h : List.Forall₂ ExecutionStep.Passes done before) (hs : s.title = a.title) :
    StepsFollow false A S where
  titles := by
    rw [hA, hS, List.map_append, List.map_append, ← ExecutionStep.titles_of_passes h, List.map_cons,
      List.map_cons, hs]
    exact (List.prefix_append_right_inj _).mpr (List.prefix_append [_] _)
  passed _ n t b ht hb hn := by
    have hlast : n < done.length := by
      rw [hS, List.length_append, List.length_singleton] at hn
      omega
    rw [hS, List.getElem?_append_left hlast] at ht
    rw [hA, List.getElem?_append_left (h.length_eq ▸ hlast)] at hb
    exact ExecutionStep.passes_at h ht hb

end StepsFollow

/-- The titles that lanes show are those of the actions. -/
theorem LanesFit.titles_eq {n : Nat} {l : List Lane} (h : LanesFit n A S l) :
    S.map (·.title) = A.map (·.title) := by
  induction h with
  | nil => rfl
  | @cons _ a _ s _ lane _ hshows _ ih =>
      have htitle : s.title = a.title := by
        cases lane with
        | waits o => exact hshows.2.2.1
        | done b succeeded => exact hshows.2.1
      rw [List.map_cons, List.map_cons, htitle, ih]

/-- The steps of actions that wait follow the actions. -/
theorem Phase.Fits.steps_follow {p : Phase} (h : p.Fits parallel A x) :
    StepsFollow parallel A x.steps := by
  cases p with
  | sequence o rest =>
      obtain ⟨rfl, before, done, s, hA, hsteps, _, hpass, htitle, _⟩ := h
      exact .of_last hA hsteps hpass htitle
  | lanes l =>
      obtain ⟨rfl, hfits⟩ := h
      exact ⟨hfits.titles_eq, nofun⟩

namespace Execution.Over

/-- The steps of actions that are done follow the actions. -/
theorem steps_follow (h : x.Over now parallel A) : StepsFollow parallel A x.steps := by
  cases h with
  | passed hpass => exact .of_passes parallel hpass
  | stopped hsequence hA hpass => exact hsequence ▸ .of_passes_before hA hpass
  | @failed x before after a done more s hA hsteps hpass hfail hmore =>
      obtain ⟨_, hends, _⟩ := hfail
      rw [fail_for_steps]
      cases parallel with
      | true =>
          refine ⟨?_, nofun⟩
          have htitles := ExecutionStep.titles_of_forall (fun _ _ ⟨_, h⟩ => h.1) hmore
          simp only [if_true]
          rw [hA, hsteps, List.map_append, List.map_append, ExecutionStep.titles_of_passes hpass,
            List.map_cons, List.map_cons, hends.1, htitles]
      | false =>
          rw [show more = [] from hmore] at hsteps
          exact .of_last hA hsteps hpass hends.1

/-- When the actions are done, an execution that has ended was stopped or has failed because of them. -/
theorem concluded (h : x.Over now parallel A) (hx : x.isTerminal = true) : x.Concluded parallel A := by
  cases h with
  | passed _ hunder => exact .stopped (hunder.ends_outside hx)
  | stopped _ _ _ hstopped => exact .stopped hstopped
  | @failed x _ _ a _ _ _ hA hsteps hpass hfail hmore hunder =>
      obtain h | ⟨hopen, d, _, h⟩ := move_to_cases x now (some ("Action failed: " ++ a.displayName))
        (rfl : ExecutionStatus.isTerminal .failed = true)
      · rw [failFor, h] at hx ⊢
        exact .stopped (hunder.ends_outside hx)
      · rw [failFor, h]
        exact .failed rfl rfl hA hsteps hpass hfail hmore

/-- When the actions are done, an execution that is closed and has ended then has come to its end. -/
theorem close_concluded (h : x.Over now parallel A) (hclosed : (x.close now).isTerminal = true) :
    (x.close now).Concluded parallel A := by
  have hcompleted : ExecutionStatus.isTerminal .completed = true := rfl
  cases hx : x.isTerminal with
  | true =>
      have hsame : x.close now = x := by rw [close, move_to_of_terminal hx]
      rw [hsame]
      exact h.concluded hx
  | false =>
      cases hspan : now.since (x.startedAt.getD now) with
      | error f =>
          have hsame : x.close now = x := by rw [close, move_to_of_fault hspan hcompleted]
          rw [hsame, hx] at hclosed
          cases hclosed
      | ok micros =>
          rw [close, move_to_of_span hx hspan hcompleted]
          cases h with
          | passed hpass => exact .completed rfl hpass
          | stopped _ _ _ hstopped =>
              rw [is_terminal_of_stopped hstopped] at hx
              cases hx
          | @failed y _ _ a =>
              -- a reading at which the execution can be closed has let it fail
              have hfailed : ExecutionStatus.isTerminal .failed = true := rfl
              have hstart : (y.failFor a now).startedAt = y.startedAt :=
                (precedes_move_to y now _ hfailed).startedAt
              rw [hstart] at hspan
              cases hy : y.isTerminal with
              | true =>
                  rw [failFor, move_to_of_terminal hy, hy] at hx
                  cases hx
              | false =>
                  rw [failFor, move_to_of_span hy hspan hfailed] at hx
                  cases hx

end Execution.Over

end Rulebook
