import Rulebook.Proofs.Run.Record

/-!
# Steps of a run

Trying the action of a step changes that step only, by moves that tell the tries
(`Environment.settle_tried`). So does starting a step (`Environment.begin_step_tried`) and going on
with one that waits (`Environment.resume_step_tried`). The step keeps its title and runs exactly
while the action waits.
-/

namespace Rulebook

/-- The step of an action that waits runs; the step of an action that is done has ended well or not. -/
def StepEnd.Leaves (a : Action) (n : Nat) (s : ExecutionStep) : StepEnd → Prop
  | .waits o => o.action = a ∧ o.step = n ∧ s.status = .running
  | .done succeeded => s.status = if succeeded then .completed else .failed

/-- What the step of an action is. -/
def Action.title (a : Action) : String × StepKind × String := (a.id, .action, a.displayName)

/-- Tries of the action of a step turn an execution into another: what happened is seen in the traces,
and only that step is changed. -/
structure Tried (now : Moment) (retries : Nat) (A : List Action) (n : Nat) (s : ExecutionStep) (x : Execution)
    (l : List TryEvent) (y : Execution) (t : ExecutionStep) : Prop where
  moves : Moves now retries A x l y
  others : y = { x with steps := x.steps.set n t }
  title : t.title = s.title

/-- An execution that has ended while its actions run was stopped. -/
def Execution.EndsOutside (x : Execution) : Prop := x.isTerminal = true → x.isStopped = true

/-- A place that holds something is not changed by putting the same there. -/
theorem set_of_get_eq {α : Type} {l : List α} {n : Nat} {a : α} (h : l[n]? = some a) :
    l.set n a = l := by
  obtain ⟨hn, rfl⟩ := List.getElem?_eq_some_iff.mp h
  exact List.set_getElem_self hn

namespace Execution

variable {x : Execution} {n : Nat} {s : ExecutionStep}

/-- To change a step is to put the changed step in its place. -/
theorem change_step_eq (change : ExecutionStep → ExecutionStep) (hs : x.steps[n]? = some s) :
    x.changeStep n change = { x with steps := x.steps.set n (change s) } := by
  rw [changeStep, List.modify_eq_set_getElem?, hs]
  rfl

end Execution

variable {now : Moment} {retries : Nat} {A : List Action} {n : Nat} {s t u : ExecutionStep} {x y z : Execution}
  {l k : List TryEvent}

/-- Nothing was tried. -/
theorem Tried.refl (hs : x.steps[n]? = some s) : Tried now retries A n s x [] x s :=
  ⟨.refl x, by rw [set_of_get_eq hs], rfl⟩

/-- Tries of a step can follow tries of the same step. -/
theorem Tried.trans (h : Tried now retries A n s x l y t) (h' : Tried now retries A n t y k z u) :
    Tried now retries A n s x (l ++ k) z u :=
  ⟨h.moves.trans h'.moves, by rw [h'.others, h.others, List.set_set], h'.title.trans h.title⟩

/-- What happens to the step is found in its place. -/
theorem Tried.get_eq (h : Tried now retries A n s x l y t) (hs : x.steps[n]? = some s) :
    y.steps[n]? = some t := by
  rw [h.others]
  exact List.getElem?_set_self (List.getElem?_eq_some_iff.mp hs).1

/-- A move that changes one step is a try of that step. -/
theorem Move.tried {change : ExecutionStep → ExecutionStep}
    (h : Move now retries A x l (x.changeStep n change)) (hs : x.steps[n]? = some s)
    (htitle : (change s).title = s.title) :
    Tried now retries A n s x l (x.changeStep n change) (change s) :=
  ⟨h.moves, Execution.change_step_eq change hs, htitle⟩

namespace Environment

variable (now retries) {σ : Type} (v : Environment σ) (a : Action)

/-- After an attempt the step is tried until it ends or the action waits. -/
theorem settle_tried (ha : A[n]? = some a) (left : Nat) (attempt : Attempt) (c : Course (Traced σ))
    (hs : c.execution.steps[n]? = some s) (hrunning : s.status = .running)
    (hleft : s.attempts + left = retries + 1) (hends : c.execution.EndsOutside) :
    ∃ l t, (v.traced.settle now a n left attempt c).1.world.tries = c.world.tries ++ l ∧
      Tried now retries A n s c.execution (attempt.endings ⟨c.execution.id, n⟩ ++ l)
        (v.traced.settle now a n left attempt c).1.execution t ∧
      (v.traced.settle now a n left attempt c).2.Leaves a n t := by
  fun_induction Environment.settle v.traced now a n left attempt c generalizing s with
  | case1 left w c => exact ⟨[], s, (List.append_nil _).symm, .refl hs, rfl, rfl, hrunning⟩
  | case2 left value c =>
      exact ⟨[], _, (List.append_nil _).symm, (Move.complete value hs hrunning).tried hs rfl, rfl⟩
  | case3 f c =>
      have hend : f.isRetryable = true →
          (retries : Int) + 1 ≤ s.attempts ∨ c.execution.isStopped = true :=
        fun _ => .inl (by omega)
      exact ⟨[], _, (List.append_nil _).symm, (Move.giveUp hs hrunning hend).tried hs rfl, rfl⟩
  | case4 left f c hagain c' world attempt hbegin =>
      rename_i ih
      simp only [Bool.and_eq_true, Bool.not_eq_true'] at hagain
      have hmove : Move now retries A c.execution _ _ := .retry ha hagain.2 hs hrunning hagain.1 (by omega)
      have htried := hmove.tried hs rfl
      obtain ⟨l, t, htries, hthen, hleaves⟩ := ih (htried.get_eq hs) hrunning
        (by simp only; omega) hends
      refine ⟨.begun ⟨c.execution.id, n⟩ a :: (attempt.endings ⟨c.execution.id, n⟩ ++ l), t, ?_,
        htried.trans hthen, hleaves⟩
      have hworld := traced_begin_tries hbegin
      rw [htries]
      simp [Course.countAttempt, hworld, c']
  | case5 left f c hlast =>
      have hend : f.isRetryable = true →
          (retries : Int) + 1 ≤ s.attempts ∨ c.execution.isStopped = true := by
        intro hf
        refine .inr (hends ?_)
        simpa [hf] using hlast
      exact ⟨[], _, (List.append_nil _).symm, (Move.giveUp hs hrunning hend).tried hs rfl, rfl⟩

/-- A step that starts is added to the steps, and its action is tried. -/
theorem begin_step_tried (c : Course (Traced σ)) (ha : A[c.execution.steps.length]? = some a)
    (hopen : c.execution.isTerminal = false) :
    ∃ l t, (v.traced.beginStep now retries a c).1.world.tries = c.world.tries ++ l ∧
      Moves now retries A c.execution l (v.traced.beginStep now retries a c).1.execution ∧
      (v.traced.beginStep now retries a c).1.execution =
        { c.execution with steps := c.execution.steps ++ [t] } ∧
      t.title = a.title ∧
      (v.traced.beginStep now retries a c).2.Leaves a c.execution.steps.length t := by
  have hmove : Move now retries A c.execution _ _ := .start ha hopen
  have hget : (c.start a now).execution.steps[c.execution.steps.length]? = some (a.newStep now) :=
    List.getElem?_concat_length
  rcases hbegin : v.traced.begin ⟨c.execution.id, c.execution.steps.length⟩ a
    c.execution.triggerData c.execution.context c.world with ⟨world, attempt⟩
  have heq : v.traced.beginStep now retries a c =
      v.traced.settle now a c.execution.steps.length retries attempt { c.start a now with world } :=
    congrArg (fun p : Traced σ × Attempt => v.traced.settle now a c.execution.steps.length retries p.2
      { c.start a now with world := p.1 }) hbegin
  have hleft : (a.newStep now).attempts + retries = retries + 1 := Int.add_comm 1 retries
  obtain ⟨l, t, htries, htried, hleaves⟩ := v.settle_tried now retries a ha retries attempt
    { c.start a now with world } hget rfl hleft
    (fun h => absurd (hopen.symm.trans h) (by decide))
  rw [heq]
  refine ⟨_, t, ?_, hmove.moves.trans htried.moves, ?_, htried.title, hleaves⟩
  · rw [htries, traced_begin_tries hbegin]
    simp [Course.start, Execution.startStep]
  · rw [htried.others]
    simp [Course.start, Execution.startStep]

/-- A step that waits is tried on. -/
theorem resume_step_tried (o : OpenStep) (c : Course (Traced σ))
    (ha : A[o.step]? = some o.action) (hs : c.execution.steps[o.step]? = some s)
    (hrunning : s.status = .running) (hattempts : s.attempts ≤ retries + 1)
    (hends : c.execution.EndsOutside) :
    ∃ l t, (v.traced.resumeStep now retries o c).1.world.tries = c.world.tries ++ l ∧
      Tried now retries A o.step s c.execution l (v.traced.resumeStep now retries o c).1.execution t ∧
      (v.traced.resumeStep now retries o c).2.Leaves o.action o.step t := by
  rcases hresume : v.traced.resume ⟨c.execution.id, o.step⟩ o.waiting c.world with ⟨world, attempt⟩
  have heq : v.traced.resumeStep now retries o c = v.traced.settle now o.action o.step
      (retriesLeft retries c o.step) attempt { c with world } :=
    congrArg (fun p : Traced σ × Attempt => v.traced.settle now o.action o.step
      (retriesLeft retries c o.step) p.2 { c with world := p.1 }) hresume
  have hleft : s.attempts + retriesLeft retries c o.step = retries + 1 := by
    rw [retriesLeft, hs]
    dsimp only
    omega
  obtain ⟨l, t, htries, htried, hleaves⟩ := v.settle_tried now retries o.action ha
    (retriesLeft retries c o.step) attempt { c with world } hs hrunning hleft hends
  rw [heq]
  refine ⟨_, t, ?_, htried, hleaves⟩
  rw [htries, traced_resume_tries hresume, List.append_assoc]

end Environment

end Rulebook
