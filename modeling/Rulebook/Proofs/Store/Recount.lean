import Rulebook.Proofs.Run.Conclusion
import Rulebook.Proofs.Run.World
import Rulebook.Proofs.Store.Kept

/-!
# What a read execution shows

Whether steps follow the actions of a rule and how an execution came to its end is seen in the outlines
of its steps, its status and its error, so what is read of an execution shows the same
(`Execution.KeptAs.concluded`).

A step of an execution that has ended recounts the tries of one action (`ExecutionStep.Recounts`): how
many there were, that all but the last failed in a way that lets the action be tried again, and, if the
step has ended, how the last one ended. This holds of what is read of the execution, although the
execution itself may still go on (`Execution.KeptAs.recounts`).
-/

namespace Rulebook

/-! ### Steps and ends -/

section Outlines

variable {A : List Action} {S T : List ExecutionStep} {s t : ExecutionStep} {a : Action}
  {parallel : Bool}

/-- Where lists show the same, what is in a place of one shows as what is there in the other. -/
theorem get_of_map_eq {α β : Type} {g : α → β} {l k : List α} (h : l.map g = k.map g) {n : Nat}
    {a : α} (ha : l[n]? = some a) : ∃ b, k[n]? = some b ∧ g b = g a := by
  have hn : (k.map g)[n]? = some (g a) := by rw [← h, List.getElem?_map, ha]; rfl
  rw [List.getElem?_map, Option.map_eq_some_iff] at hn
  exact hn

namespace ExecutionStep

/-- Steps of the same outline end the same. -/
theorem Ends.of_outline {succeeded : Bool} (h : s.Ends a succeeded) (hs : t.outline = s.outline) :
    t.Ends a succeeded := by
  obtain ⟨htitle, hrest⟩ := Prod.mk.inj hs
  exact ⟨htitle.trans h.1, (congrArg Prod.fst hrest).trans h.2⟩

/-- Steps of the same outline pass the same. -/
theorem Passes.of_outline (h : s.Passes a) (hs : t.outline = s.outline) : t.Passes a := by
  obtain ⟨succeeded, hends, hpass⟩ := h
  exact ⟨succeeded, hends.of_outline hs, hpass⟩

/-- Steps of the same outline fail the same. -/
theorem Fails.of_outline (h : s.Fails a) (hs : t.outline = s.outline) : t.Fails a := by
  obtain ⟨succeeded, hends, hfail⟩ := h
  exact ⟨succeeded, hends.of_outline hs, hfail⟩

/-- What can be told of steps and actions by outlines holds of steps of the same outlines. -/
theorem forall_of_outlines {P : ExecutionStep → Action → Prop}
    (hP : ∀ s t a, P s a → t.outline = s.outline → P t a) (h : List.Forall₂ P S A)
    (hT : T.map (·.outline) = S.map (·.outline)) : List.Forall₂ P T A := by
  induction h generalizing T with
  | nil =>
      obtain rfl := List.map_eq_nil_iff.mp hT
      exact .nil
  | cons hhead _ ih =>
      obtain ⟨t, T', rfl, ht, hT'⟩ := List.map_eq_cons_iff.mp hT
      exact .cons (hP _ _ _ hhead ht) (ih hT')

end ExecutionStep

/-- Steps of the same outlines follow the same actions. -/
theorem StepsFollow.of_outlines (h : StepsFollow parallel A S)
    (hT : T.map (·.outline) = S.map (·.outline)) : StepsFollow parallel A T where
  titles := by
    have htitles : T.map (·.title) = S.map (·.title) := by
      have hproj := congrArg (List.map Prod.fst) hT
      rwa [List.map_map, List.map_map] at hproj
    rw [htitles]
    exact h.titles
  passed hsequence n t a ht ha hn := by
    obtain ⟨s, hs, houtline⟩ := get_of_map_eq hT ht
    have hlength : T.length = S.length := by simpa using congrArg List.length hT
    exact (h.passed hsequence n s a hs ha (hlength ▸ hn)).of_outline houtline.symm

/-- What is read of an execution that came to its end came to it in the same way. -/
theorem Execution.KeptAs.concluded {y x : Execution} (hx : y.KeptAs x)
    (h : y.Concluded parallel A) : x.Concluded parallel A := by
  cases h with
  | completed hstatus hpass =>
      exact .completed (hx.status.trans hstatus)
        (ExecutionStep.forall_of_outlines (fun _ _ _ => .of_outline) hpass hx.outlines)
  | stopped hstopped =>
      refine .stopped ?_
      rwa [isStopped, hx.status]
  | failed hstatus herror hA hsteps hpass hfail hmore =>
      have houtlines := hx.outlines
      rw [hsteps, List.map_append, List.map_cons, List.map_eq_append_iff] at houtlines
      obtain ⟨done, rest, hread, hdone, hrest⟩ := houtlines
      obtain ⟨s, more, rfl, hs, hmore'⟩ := List.map_eq_cons_iff.mp hrest
      refine .failed (hx.status.trans hstatus) (hx.error.trans herror) hA hread
        (ExecutionStep.forall_of_outlines (fun _ _ _ => .of_outline) hpass hdone)
        (hfail.of_outline hs) ?_
      cases parallel with
      | true =>
          exact ExecutionStep.forall_of_outlines (fun _ _ _ h ho => h.imp fun _ h => h.of_outline ho) hmore
            hmore'
      | false =>
          rw [show _ = [] from hmore] at hmore'
          exact List.map_eq_nil_iff.mp hmore'

end Outlines

/-! ### Tries -/

namespace ExecutionStep

/-- What a step that has ended shows of the end of its last try. -/
def ShowsEnd (s : ExecutionStep) : Outcome Value → Prop
  | .ok _ => s.status = .completed ∧ s.error = none
  | .error f => s.status = .failed ∧ s.error = some f.message

/-- A step recounts the tries of an action for it: there were as many as it says, at most one more than
the retries, and all but the last failed with a failure of the action. An action that nothing handles is
tried once, and the step says so. -/
structure Recounts {σ : Type} (v : Environment σ) (retries : Nat) (a : Action) (step : StepRef)
    (l : List TryEvent) (s : ExecutionStep) : Prop where
  same : ∀ b, .begun step b ∈ l → b = a
  attempts : s.attempts = TryEvent.begunAt step l
  positive : 1 ≤ s.attempts
  bounded : s.attempts ≤ 1 + retries
  endings : ∃ (failures : List Failure) (last : Option (Outcome Value)),
    TryEvent.resultsAt step l = failures.map .error ++ last.toList ∧
    s.attempts = failures.length + 1 ∧ (∀ f ∈ failures, ∃ message cause, f = .action message cause) ∧
    (s.isEnded = true → ∃ result, last = some result ∧ s.ShowsEnd result)
  lacking : ∀ kind, v.Lacks a kind → s.attempts = 1 ∧ s.status = .failed ∧
    s.error = some ("Unknown action type: " ++ kind)

variable {retries begun : Nat} {stopped : Bool} {results : List (Outcome Value)}
  {failures : List Failure} {last : Option (Outcome Value)} {s t : ExecutionStep} {kind : String}

/-- A failure that lets an action be tried again is one of the action. -/
theorem action_of_retryable {f : Failure} (h : f.isRetryable = true) :
    ∃ message cause, f = .action message cause := by
  cases f with
  | action message cause => exact ⟨message, cause, rfl⟩
  | _ => cases h

/-- A refusal says that nothing handles the action. -/
theorem eq_of_refusal {r : Outcome Value} (h : TryEvent.isRefusal kind r = true) :
    r = .error (.unknownAction kind) := by
  unfold TryEvent.isRefusal at h
  split at h
  next k => rw [eq_of_beq h]
  next => cases h

/-- If all tries of a step were refused there was one. -/
theorem Tells.refused (h : s.Tells retries stopped begun results failures last)
    (hrefused : begun ≤ results.countP (TryEvent.isRefusal kind)) :
    begun = 1 ∧ last = some (.error (.unknownAction kind)) := by
  have hcount := h.count
  have hnone : (failures.map .error : List (Outcome Value)).countP (TryEvent.isRefusal kind) = 0 := by
    rw [List.countP_eq_zero]
    intro r hr hrefusal
    obtain ⟨f, hf, rfl⟩ := List.mem_map.mp hr
    obtain rfl := Except.error.inj (eq_of_refusal hrefusal)
    cases h.retryable _ hf
  rw [h.endings, List.countP_append, hnone, Nat.zero_add] at hrefused
  cases last with
  | none =>
      simp only [Option.toList_none, List.countP_nil] at hrefused
      omega
  | some r =>
      rw [Option.toList_some, List.countP_singleton] at hrefused
      split at hrefused
      next hrefusal => exact ⟨by omega, congrArg some (eq_of_refusal hrefusal)⟩
      next => omega

/-- A step that has ended shows the end of its last try. -/
theorem EndedBy.shows_end (h : s.EndedBy last) (hs : s.isEnded = true) :
    ∃ result, last = some result ∧ s.ShowsEnd result := by
  have hsome := h.is_ended
  rw [hs] at hsome
  obtain ⟨result, rfl⟩ := Option.isSome_iff_exists.mp hsome.symm
  refine ⟨result, rfl, ?_⟩
  cases result with
  | error f => exact ⟨h.1, h.2.2⟩
  | ok v => exact ⟨h.1, h.2.2⟩

/-- Steps of the same outline show the same end. -/
theorem ShowsEnd.of_outline {result : Outcome Value} (h : s.ShowsEnd result)
    (hs : t.outline = s.outline) : t.ShowsEnd result := by
  obtain ⟨_, hrest⟩ := Prod.mk.inj hs
  obtain ⟨hstatus, hrest⟩ := Prod.mk.inj hrest
  obtain ⟨herror, _⟩ := Prod.mk.inj hrest
  cases result with
  | error f => exact ⟨hstatus.trans h.1, herror.trans h.2⟩
  | ok v => exact ⟨hstatus.trans h.1, herror.trans h.2⟩

/-- A step that recounts what happened to its execution recounts what happened. -/
theorem Recounts.of_execution {σ : Type} {v : Environment σ} {a : Action} {step : StepRef}
    {l : List TryEvent} (h : s.Recounts v retries a step (TryEvent.of step.executionId l)) :
    s.Recounts v retries a step l where
  same b hb := h.same b (List.mem_filter.mpr ⟨hb, decide_eq_true rfl⟩)
  attempts := TryEvent.begun_at_of step l ▸ h.attempts
  positive := h.positive
  bounded := h.bounded
  endings := TryEvent.results_at_of step l ▸ h.endings
  lacking := h.lacking

end ExecutionStep

/-- Of tries that began for a step there is one. -/
theorem TryEvent.begun_of_pos {step : StepRef} {l : List TryEvent} (h : 0 < begunAt step l) :
    ∃ a, begun step a ∈ l := by
  obtain ⟨t, ht, hstep⟩ := List.mem_filterMap.mp (List.count_pos_iff.mp h)
  cases t with
  | begun s a =>
      obtain rfl := Option.some.inj hstep
      exact ⟨a, ht⟩
  | ended s r => cases hstep

namespace Execution

variable {σ : Type} {v : Environment σ} {retries n : Nat} {A : List Action} {k l : List TryEvent}
  {x y z : Execution} {t : ExecutionStep}

/-- What is read of a version that has ended recounts the tries, if that version and a later one tell of
the tries that there were then. -/
theorem KeptAs.recounts (hx : y.KeptAs x) (hlater : y.Precedes z) (hy : y.Tells retries k)
    (hz : z.Tells retries l) (hrefused : TryEvent.Refused v k)
    (hk : ∀ t ∈ k, t.TriesOf A) (hl : ∀ t ∈ l, t.TriesOf A) (hended : x.isTerminal = true)
    (ht : x.steps[n]? = some t) :
    ∃ a, A[n]? = some a ∧ t.Recounts v retries a ⟨x.id, n⟩ l := by
  have hid : z.id = x.id := hlater.id_eq.trans hx.id.symm
  have hsame : y.SameEnd z := by
    refine hlater.final ?_
    rw [isTerminal, ← hx.status]
    exact hended
  obtain ⟨s, hs, houtline⟩ := get_of_map_eq hx.outlines ht
  obtain ⟨u, hu, htally⟩ := get_of_map_eq hsame.tallies.symm hs
  obtain ⟨failures, last, htold⟩ := hz.recorded n u hu
  obtain ⟨_, _, hearlier⟩ := hy.recorded n s hs
  have hts : t.attempts = s.attempts := congrArg (·.2.2.2) houtline.symm
  have hattempts : t.attempts = TryEvent.begunAt ⟨x.id, n⟩ l := by
    rw [hts, ← hid, ← htold.attempts]
    exact (congrArg Prod.snd htally).symm
  rw [hid] at htold
  have hcount := htold.count
  have hbounded := htold.bounded
  have hpositive : 0 < TryEvent.begunAt ⟨x.id, n⟩ l := by omega
  obtain ⟨a, hbegun⟩ := TryEvent.begun_of_pos hpositive
  have ha : A[n]? = some a := hl _ hbegun
  refine ⟨a, ha, fun b hb => ?_, hattempts, by omega, by omega, ⟨failures, last, htold.endings,
    by omega, fun f hf => ExecutionStep.action_of_retryable (htold.retryable f hf), fun htended => ?_⟩,
    fun kind hlacks => ?_⟩
  · have hb' : A[n]? = some b := hl _ hb
    exact Option.some.inj (hb'.symm.trans ha)
  · -- a step that has ended stays as it is, although the execution may go on
    have hsended : s.isEnded = true := by
      rw [ExecutionStep.isEnded, show s.status = t.status from congrArg (·.2.1) houtline]
      exact htended
    have hus : u = s := Option.some.inj (hu.symm.trans (hlater.kept n s hs hsended))
    obtain ⟨result, hlast, hshows⟩ := htold.ended.shows_end (hus ▸ hsended)
    exact ⟨result, hlast, hshows.of_outline (hus ▸ houtline.symm)⟩
  · have hall : ∀ b, .begun ⟨y.id, n⟩ b ∈ k → v.Lacks b kind := by
      intro b hb
      have hb' : A[n]? = some b := hk _ hb
      obtain rfl := Option.some.inj (hb'.symm.trans ha)
      exact hlacks
    obtain ⟨hone, rfl⟩ := hearlier.refused (hrefused _ kind hall)
    have hstep := hearlier.attempts
    have hends : s.ShowsEnd (.error (.unknownAction kind)) := ⟨hearlier.ended.1, hearlier.ended.2.2⟩
    obtain ⟨hstatus, herror⟩ := hends.of_outline houtline.symm
    exact ⟨by omega, hstatus, herror⟩

end Execution

end Rulebook
