import Rulebook.Proofs.Run.Course
import Rulebook.Proofs.Run.Tries

/-!
# What running actions does to the world

Running actions changes the state of the services only by beginning tries and by going on with them, so
what these preserve holds when the actions wait or are done (`Environment.Preserves`). In particular, a
try of an action that nothing handles has always ended (`TryEvent.Refused`).
-/

namespace Rulebook

namespace Environment

variable {σ : Type} {v : Environment σ} {P : σ → Prop}

/-- Beginning tries, going on with tries and reading polled conditions preserve `P`. -/
structure Preserves (v : Environment σ) (P : σ → Prop) : Prop where
  begins : ∀ step a data context w, P w → P (v.begin step a data context w).1
  resumes : ∀ step waiting w, P w → P (v.resume step waiting w).1
  reads : ∀ reading, v.source = some reading → ∀ w r, P w → P (reading w r).1

namespace Preserves

/-- Running actions keeps it of the world. -/
theorem sustains (h : v.Preserves P) (now : Moment) : v.Sustains now fun c => P c.world where
  begins _ _ _ _ _ hc := h.begins _ _ _ _ _ hc
  resumes _ _ _ hc := h.resumes _ _ _ hc
  notes _ _ hc := hc
  starts _ _ hc := hc
  counts _ _ hc := hc
  finishes _ _ _ _ _ hc := hc
  fails _ _ hc := hc

/-- To run the actions of a rule preserves it. -/
theorem run_actions (h : v.Preserves P) (now : Moment) (r : Rule) (c : Course σ) (hc : P c.world) :
    P (v.runActions now r c).1.world :=
  (h.sustains now).run_actions r c hc

/-- To go on with the actions of a rule preserves it. -/
theorem resume_actions (h : v.Preserves P) (now : Moment) (r : Rule) (lane : Nat) (p : Phase)
    (c : Course σ) (hc : P c.world) : P (v.resumeActions now r lane p c).1.world :=
  (h.sustains now).resume_actions r lane p c hc

end Preserves

/-- Nothing handles an action: every try of it ends where it begins. -/
def Lacks (v : Environment σ) (a : Action) (kind : String) : Prop :=
  ∀ step data context w, (v.begin step a data context w).2 = .over (.error (.unknownAction kind))

end Environment

/-- Services lack the actions of the kinds that they do not handle. -/
theorem Services.lacks {σ : Type} {s : Services σ} {a : Action}
    (h : s.handles a.config.kind = false) :
    s.environment.Lacks a (Enumeration.name a.config.kind) := by
  intro step data context w
  change (s.attempt a.config data context w).2 = _
  rw [attempt, h]
  rfl

namespace TryEvent

variable {σ : Type} {v : Environment σ} {l : List TryEvent}

/-- A try ended because nothing handles an action of that kind. -/
def isRefusal (kind : String) : Outcome Value → Bool
  | .error (.unknownAction k) => k == kind
  | _ => false

/-- Where nothing handles the actions that are tried for a step, all its tries ended because of it. -/
def Refused (v : Environment σ) (l : List TryEvent) : Prop :=
  ∀ step kind, (∀ a, begun step a ∈ l → v.Lacks a kind) →
    begunAt step l ≤ (resultsAt step l).countP (isRefusal kind)

/-- Tries of one execution are refused as all are. -/
theorem Refused.of (h : Refused v l) (id : String) : Refused v (of id l) := by
  intro step kind hlacks
  by_cases hid : step.executionId = id
  · have hmem : ∀ a, begun step a ∈ l → begun step a ∈ TryEvent.of id l := fun a ha =>
      List.mem_filter.mpr ⟨ha, decide_eq_true hid⟩
    subst hid
    rw [begun_at_of, results_at_of]
    exact h step kind fun a ha => hlacks a (hmem a ha)
  · have hnone : ∀ t ∈ TryEvent.of id l, t.step ≠ step := by
      intro t ht heq
      exact hid (heq ▸ of_decide_eq_true (List.mem_filter.mp ht).2)
    rw [begun_at_of_forall hnone]
    exact Nat.zero_le _

end TryEvent

/-- Beginning tries and going on with them keeps those refused that nothing handles. -/
theorem Environment.preserves_refused {σ : Type} (v : Environment σ) :
    v.traced.Preserves fun w => TryEvent.Refused v w.tries where
  begins step a data context w hw := by
    intro s kind hlacks
    have htries : (v.traced.begin step a data context w).1.tries = w.tries ++
        .begun step a :: (v.traced.begin step a data context w).2.endings step := rfl
    rw [htries] at hlacks ⊢
    have hold := hw s kind fun b hb => hlacks b (List.mem_append_left _ hb)
    rw [TryEvent.begun_at_append, TryEvent.results_at_append, List.countP_append]
    by_cases hs : step = s
    · subst hs
      have hover : (v.traced.begin step a data context w).2 = .over (.error (.unknownAction kind)) :=
        hlacks a (by simp) step data context w.world
      rw [hover, Attempt.endings]
      simp only [TryEvent.begun_at_begun, TryEvent.begun_at_ended, TryEvent.begun_at_nil,
        TryEvent.results_at_begun, TryEvent.results_at_ended, TryEvent.results_at_nil,
        List.countP_cons, List.countP_nil, TryEvent.isRefusal, beq_self_eq_true, if_true]
      omega
    · have hnone : TryEvent.begunAt s
          (.begun step a :: (v.traced.begin step a data context w).2.endings step) = 0 := by
        refine TryEvent.begun_at_of_forall fun t ht heq => ?_
        obtain rfl | ht := List.mem_cons.mp ht
        · exact hs heq
        · exact hs ((Attempt.step_of_endings ht).symm.trans heq)
      omega
  resumes step waiting w hw := by
    intro s kind hlacks
    have htries : (v.traced.resume step waiting w).1.tries = w.tries ++
        (v.traced.resume step waiting w).2.endings step := rfl
    rw [htries] at hlacks ⊢
    have hold := hw s kind fun b hb => hlacks b (List.mem_append_left _ hb)
    rw [TryEvent.begun_at_append, TryEvent.results_at_append, List.countP_append]
    have hnone : TryEvent.begunAt s
        (Attempt.endings step (v.traced.resume step waiting w).2) = 0 := by
      cases (v.traced.resume step waiting w).2 <;> rfl
    omega
  reads reading hreading w r hw := by
    rw [traced_source_tries hreading]
    exact hw

end Rulebook
