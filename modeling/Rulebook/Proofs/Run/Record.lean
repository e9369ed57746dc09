import Rulebook.Proofs.Run.Move

/-!
# The record of the steps

The steps of an execution are the record of the tries that were made. `Execution.Tells` says that the
record is true: a step counts as many attempts as tries of it began, never more than the retries
allow; all tries but the last failed in a way that lets the action be tried again; and the step ended
as its last try did. Moves keep the record true (`Moves.tells`).
-/

namespace Rulebook

/-- A step stands as the end of its last try leaves it; it runs while that one has not ended. -/
def ExecutionStep.EndedBy (s : ExecutionStep) : Option (Outcome Value) → Prop
  | none => s.status = .running
  | some (.ok v) => s.status = .completed ∧ s.output = v.fields? ∧ s.error = none
  | some (.error f) => s.status = .failed ∧ s.output = none ∧ s.error = some f.message

/-- The record of a step tells how many tries began and how tries ended: all but the last failed and
could be tried again, and the last one could not unless all retries are used up or the execution was
stopped. -/
structure ExecutionStep.Tells (retries : Nat) (stopped : Bool) (begun : Nat)
    (results : List (Outcome Value)) (failures : List Failure) (last : Option (Outcome Value))
    (s : ExecutionStep) : Prop where
  attempts : s.attempts = begun
  count : begun = failures.length + 1
  bounded : begun ≤ retries + 1
  endings : results = failures.map .error ++ last.toList
  retryable : ∀ f ∈ failures, f.isRetryable = true
  ended : s.EndedBy last
  patient : ∀ f, last = some (.error f) → f.isRetryable = true → begun = retries + 1 ∨ stopped = true

/-- The record of the steps tells what happened to the tries, and nothing happened to steps that are
not in the record. -/
structure Execution.Tells (retries : Nat) (l : List TryEvent) (x : Execution) : Prop where
  recorded : ∀ (n : Nat) (s : ExecutionStep), x.steps[n]? = some s → ∃ failures last,
    s.Tells retries x.isStopped (TryEvent.begunAt ⟨x.id, n⟩ l) (TryEvent.resultsAt ⟨x.id, n⟩ l)
      failures last
  unrecorded : ∀ n, x.steps.length ≤ n →
    TryEvent.begunAt ⟨x.id, n⟩ l = 0 ∧ TryEvent.resultsAt ⟨x.id, n⟩ l = []

variable {now : Moment} {retries : Nat} {A : List Action} {x y : Execution} {l k : List TryEvent}

namespace ExecutionStep

variable {stopped : Bool} {begun : Nat} {results : List (Outcome Value)} {failures : List Failure}
  {last : Option (Outcome Value)} {s : ExecutionStep}

/-- A step has ended when its last try has. -/
theorem EndedBy.is_ended (h : s.EndedBy last) : s.isEnded = last.isSome := by
  match last, h with
  | none, h => exact is_ended_of_running h
  | some (.ok v), ⟨h, _⟩ => simp [isEnded, h]
  | some (.error f), ⟨h, _⟩ => simp [isEnded, h]

/-- The last try of a step that runs has not ended. -/
theorem EndedBy.eq_none (h : s.EndedBy last) (hs : s.status = .running) : last = none := by
  rw [← Option.not_isSome_iff_eq_none, ← h.is_ended, is_ended_of_running hs]
  decide

/-- What is told remains told when the execution is stopped. -/
theorem Tells.mono (h : s.Tells retries stopped begun results failures last) {stopped' : Bool}
    (hstopped : stopped = true → stopped' = true) :
    s.Tells retries stopped' begun results failures last :=
  { h with patient := fun f hlast hf => (h.patient f hlast hf).imp_right hstopped }

/-- A step that starts tells of its first try. -/
theorem Tells.new (retries : Nat) (stopped : Bool) (a : Action) (now : Moment) :
    (a.newStep now).Tells retries stopped 1 [] [] none where
  attempts := rfl
  count := rfl
  bounded := Nat.le_add_left 1 retries
  endings := rfl
  retryable := by simp
  ended := rfl
  patient := by simp

/-- A step that is tried again tells of one more failure. -/
theorem Tells.retry (h : s.Tells retries stopped begun results failures last)
    (hrunning : s.status = .running) {f : Failure} (hf : f.isRetryable = true)
    (hleft : s.attempts ≤ retries) :
    ({ s with attempts := s.attempts + 1 } : ExecutionStep).Tells retries stopped (begun + 1)
      (results ++ [.error f]) (failures ++ [f]) none := by
  obtain rfl := h.ended.eq_none hrunning
  have hattempts := h.attempts
  refine ⟨by simp [hattempts], by simp [h.count], by omega, by simp [h.endings], ?_, hrunning,
    by simp⟩
  intro g hg
  obtain hg | hg := List.mem_append.mp hg
  · exact h.retryable g hg
  · rwa [List.mem_singleton.mp hg]

/-- A step that ends tells how its last try ended. -/
theorem Tells.end (h : s.Tells retries stopped begun results failures last) (r : Outcome Value)
    (hrunning : s.status = .running) {t : ExecutionStep}
    (hattempts : t.attempts = s.attempts) (hended : t.EndedBy (some r))
    (hpatient : ∀ f, r = .error f → f.isRetryable = true →
      (retries : Int) + 1 ≤ s.attempts ∨ stopped = true) :
    t.Tells retries stopped begun (results ++ [r]) failures (some r) := by
  obtain rfl := h.ended.eq_none hrunning
  refine ⟨hattempts.trans h.attempts, h.count, h.bounded, by simp [h.endings], h.retryable, hended,
    fun f hlast hf => ?_⟩
  obtain huse | hstop := hpatient f (Option.some.inj hlast) hf
  · have hcount := h.attempts
    have hbound := h.bounded
    exact .inl (by omega)
  · exact .inr hstop

end ExecutionStep

namespace Execution

variable {n : Nat} {s : ExecutionStep} {change : ExecutionStep → ExecutionStep}

/-- An execution without steps tells that nothing happened to it. -/
theorem Tells.of_nil (hx : x.steps = []) (h : ∀ t ∈ l, t.step.executionId ≠ x.id) :
    x.Tells retries l := by
  have hne : ∀ n, ∀ t ∈ l, t.step ≠ ⟨x.id, n⟩ := fun n t ht heq => h t ht (by rw [heq])
  exact ⟨by simp [hx], fun n _ =>
    ⟨TryEvent.begun_at_of_forall (hne n), TryEvent.results_at_of_forall (hne n)⟩⟩

/-- No step counts more attempts than the retries allow. -/
theorem Tells.attempts_le (h : x.Tells retries l) (hs : s ∈ x.steps) : s.attempts ≤ retries + 1 := by
  obtain ⟨n, hn⟩ := List.mem_iff_getElem?.mp hs
  obtain ⟨failures, last, htold⟩ := h.recorded n s hn
  have hattempts := htold.attempts
  have hbounded := htold.bounded
  omega

/-- No step counts fewer than no attempts. -/
theorem Tells.attempts_nonneg (h : x.Tells retries l) (hs : s ∈ x.steps) : 0 ≤ s.attempts := by
  obtain ⟨n, hn⟩ := List.mem_iff_getElem?.mp hs
  obtain ⟨failures, last, htold⟩ := h.recorded n s hn
  have hattempts := htold.attempts
  omega

/-- A later version with the same steps keeps the record true. -/
theorem Tells.of_precedes (h : x.Tells retries l) (hlater : x.Precedes y)
    (hsteps : y.steps = x.steps) : y.Tells retries l := by
  refine ⟨fun n s hs => ?_, fun n hn => ?_⟩
  · obtain ⟨failures, last, htold⟩ := h.recorded n s (hsteps ▸ hs)
    exact ⟨failures, last, hlater.id_eq ▸ htold.mono hlater.is_stopped⟩
  · rw [hlater.id_eq]
    exact h.unrecorded n (hsteps ▸ hn)

/-- The record stays true if a step tells what else happened to it. -/
theorem Tells.change_step (h : x.Tells retries l) (more : Nat) (results : List (Outcome Value))
    (hs : x.steps[n]? = some s) (hk : ∀ t ∈ k, t.step = ⟨x.id, n⟩)
    (hmore : TryEvent.begunAt ⟨x.id, n⟩ k = more) (hresults : TryEvent.resultsAt ⟨x.id, n⟩ k = results)
    (hnew : ∀ begun before failures last,
      s.Tells retries x.isStopped begun before failures last →
      ∃ failures last,
        (change s).Tells retries x.isStopped (begun + more) (before ++ results) failures last) :
    (x.changeStep n change).Tells retries (l ++ k) := by
  subst hmore hresults
  have hother : ∀ i, n ≠ i → ∀ t ∈ k, t.step ≠ ⟨x.id, i⟩ := by
    intro i hi t ht heq
    rw [hk t ht, StepRef.mk.injEq] at heq
    exact hi heq.2
  have hid : (x.changeStep n change).id = x.id := rfl
  refine ⟨fun i t ht => ?_, fun i hi => ?_⟩ <;>
    rw [hid, TryEvent.begun_at_append, TryEvent.results_at_append]
  · by_cases hni : n = i
    · subst hni
      obtain ⟨failures, last, htold⟩ := h.recorded n s hs
      rw [changeStep, List.getElem?_modify_eq, hs] at ht
      obtain rfl := Option.some.inj ht
      exact hnew _ _ failures last htold
    · rw [changeStep, List.getElem?_modify_ne _ _ hni] at ht
      rw [TryEvent.begun_at_of_forall (hother i hni), TryEvent.results_at_of_forall (hother i hni),
        List.append_nil]
      exact h.recorded i t ht
  · have hlen : x.steps.length ≤ i := by simpa [changeStep] using hi
    have hni : n ≠ i := by
      have := (List.getElem?_eq_some_iff.mp hs).1
      omega
    rw [TryEvent.begun_at_of_forall (hother i hni), TryEvent.results_at_of_forall (hother i hni),
      List.append_nil]
    exact h.unrecorded i hlen

/-- The record stays true when a step starts. -/
theorem Tells.start (h : x.Tells retries l) (a : Action) (now : Moment) :
    (x.startStep a now).Tells retries (l ++ [.begun ⟨x.id, x.steps.length⟩ a]) := by
  have hid : (x.startStep a now).id = x.id := rfl
  have hsteps : (x.startStep a now).steps = x.steps ++ [a.newStep now] := rfl
  have hother : ∀ i, i ≠ x.steps.length →
      ∀ t ∈ [TryEvent.begun ⟨x.id, x.steps.length⟩ a], t.step ≠ ⟨x.id, i⟩ := by
    intro i hi t ht heq
    rw [List.mem_singleton.mp ht] at heq
    exact hi (StepRef.mk.inj heq).2.symm
  refine ⟨fun i t ht => ?_, fun i hi => ?_⟩ <;>
    rw [hid, TryEvent.begun_at_append, TryEvent.results_at_append]
  · obtain hi | rfl | hi := Nat.lt_trichotomy i x.steps.length
    · rw [hsteps, List.getElem?_append_left hi] at ht
      rw [TryEvent.begun_at_of_forall (hother i hi.ne), TryEvent.results_at_of_forall (hother i hi.ne),
        List.append_nil]
      exact h.recorded i t ht
    · rw [hsteps, List.getElem?_concat_length] at ht
      obtain rfl := Option.some.inj ht
      obtain ⟨hbegun, hresults⟩ := h.unrecorded _ le_rfl
      rw [hbegun, hresults]
      refine ⟨[], none, ?_⟩
      simpa using ExecutionStep.Tells.new retries _ a now
    · rw [hsteps, List.getElem?_eq_none (by simp; omega)] at ht
      cases ht
  · have hlen : x.steps.length < i := by simpa [hsteps, Nat.succ_le_iff] using hi
    rw [TryEvent.begun_at_of_forall (hother i hlen.ne'),
      TryEvent.results_at_of_forall (hother i hlen.ne'), List.append_nil]
    exact h.unrecorded i hlen.le

end Execution

/-- A move keeps the record true. -/
theorem Move.tells (h : Move now retries A x k y) (hx : x.Tells retries l) :
    y.Tells retries (l ++ k) := by
  cases h with
  | start _ hopen => exact hx.start _ now
  | @retry _ _ _ f _ hopen hs hrunning hf hleft =>
      exact hx.change_step 1 [.error f] hs (by simp [TryEvent.step]) (by simp) (by simp)
        fun _ _ _ _ htold => ⟨_, _, htold.retry hrunning hf hleft⟩
  | complete v hs hrunning =>
      exact hx.change_step 0 [.ok v] hs (by simp [TryEvent.step]) (by simp) (by simp)
        fun _ _ _ _ htold => ⟨_, _, htold.end (.ok v) hrunning rfl ⟨rfl, rfl, rfl⟩ (by simp)⟩
  | @giveUp _ _ f hs hrunning hend =>
      exact hx.change_step 0 [.error f] hs (by simp [TryEvent.step]) (by simp) (by simp)
        fun _ _ _ _ htold => ⟨_, _, htold.end (.error f) hrunning rfl ⟨rfl, rfl, rfl⟩
          fun _ hf => Except.error.inj hf ▸ hend⟩
  | fail a =>
      rw [List.append_nil]
      have hlater : x.Precedes (x.failFor a now) := Execution.precedes_move_to x now _ rfl
      exact hx.of_precedes hlater (Execution.fail_for_steps x a now)

/-- Moves keep the record true. -/
theorem Moves.tells (h : Moves now retries A x k y) (hx : x.Tells retries l) :
    y.Tells retries (l ++ k) := by
  induction h generalizing l with
  | refl => rwa [List.append_nil]
  | cons hmove _ ih =>
      rw [← List.append_assoc]
      exact ih (hmove.tells hx)

end Rulebook
