import Rulebook.Engine.Run
import Rulebook.Proofs.Execution.Version

/-!
# What running actions keeps of a course

Running actions changes a course by a few moves: tries are begun or gone on with, notes are left, steps are
started, counted and ended, and the execution is failed. What each of these moves keeps of a course
(`Environment.Sustains`) holds when the actions wait or are done. So an execution keeps its identifier, its rule,
its tenant and what started it (`Environment.run_actions_origin`).
-/

namespace Rulebook.Environment

variable {σ : Type} {v : Environment σ} {now : Moment} {Q : Course σ → Prop}

/-- The moves by which running actions changes a course keep `Q`. -/
structure Sustains (v : Environment σ) (now : Moment) (Q : Course σ → Prop) : Prop where
  begins : ∀ c step a data context, Q c → Q { c with world := (v.begin step a data context c.world).1 }
  resumes : ∀ c step waiting, Q c → Q { c with world := (v.resume step waiting c.world).1 }
  notes : ∀ c notes, Q c → Q { c with notes }
  starts : ∀ c a, Q c → Q (c.start a now)
  counts : ∀ c n, Q c → Q (c.countAttempt n)
  finishes : ∀ c n status output error, Q c → Q (c.finish n now status output error)
  fails : ∀ c a, Q c → Q (c.failFor a now)

namespace Sustains

/-- To go on after an attempt keeps it. -/
theorem settle (h : v.Sustains now Q) (a : Action) (n left : Nat) (attempt : Attempt) (c : Course σ)
    (hc : Q c) : Q (v.settle now a n left attempt c).1 := by
  induction left generalizing attempt c with
  | zero =>
      rcases attempt with (f | r) | w
      · exact h.finishes _ _ _ _ _ hc
      · exact h.finishes _ _ _ _ _ hc
      · exact hc
  | succ left ih =>
      rcases attempt with (f | r) | w
      · rw [Environment.settle]
        split
        · exact ih _ _ (h.counts _ _ (h.begins _ _ _ _ _ (h.notes _ _ hc)))
        · exact h.finishes _ _ _ _ _ hc
      · exact h.finishes _ _ _ _ _ hc
      · exact hc

/-- To start a step keeps it. -/
theorem begin_step (h : v.Sustains now Q) (retries : Nat) (a : Action) (c : Course σ) (hc : Q c) :
    Q (v.beginStep now retries a c).1 :=
  h.settle a _ retries _ _ (h.begins _ _ _ _ _ (h.starts _ a hc))

/-- To go on with a step keeps it. -/
theorem resume_step (h : v.Sustains now Q) (retries : Nat) (o : OpenStep) (c : Course σ) (hc : Q c) :
    Q (v.resumeStep now retries o c).1 :=
  h.settle o.action o.step _ _ _ (h.resumes _ _ _ hc)

/-- To run actions one after another keeps it. -/
theorem run_sequence (h : v.Sustains now Q) (retries : Nat) (A : List Action) (c : Course σ) (hc : Q c) :
    Q (v.runSequence now retries A c).1 := by
  induction A generalizing c with
  | nil => exact hc
  | cons a A ih =>
      have hstep := h.begin_step retries a c hc
      rw [runSequence]
      split
      · exact hc
      · rcases hbegin : v.beginStep now retries a c with ⟨d, succeeded | o⟩ <;> rw [hbegin] at hstep
        · dsimp only
          split
          · exact h.fails d a hstep
          · exact ih d hstep
        · exact hstep

/-- To start actions side by side keeps it. -/
theorem start_lanes (h : v.Sustains now Q) (retries : Nat) (A : List Action) (c : Course σ) (hc : Q c) :
    Q (v.startLanes now retries A c).1 := by
  induction A generalizing c with
  | nil => exact hc
  | cons a A ih =>
      have hstep := ih _ (h.begin_step retries a c hc)
      rw [startLanes]
      rcases hbegin : v.beginStep now retries a c with ⟨d, succeeded | o⟩ <;> rw [hbegin] at hstep <;>
        exact hstep

/-- The end of actions that run side by side keeps it. -/
theorem close_lanes (h : v.Sustains now Q) (l : List Lane) (c : Course σ) (hc : Q c) :
    Q (closeLanes now l c).1 := by
  rw [closeLanes]
  split
  · exact hc
  · split
    next a _ => exact h.fails c a hc
    next => exact hc

/-- To run the actions of a rule keeps it. -/
theorem run_actions (h : v.Sustains now Q) (r : Rule) (c : Course σ) (hc : Q c) :
    Q (v.runActions now r c).1 := by
  rw [runActions]
  dsimp only
  split
  · exact h.close_lanes _ _ (h.start_lanes _ _ c hc)
  · exact h.run_sequence _ _ c hc

/-- To go on with the actions of a rule keeps it. -/
theorem resume_actions (h : v.Sustains now Q) (r : Rule) (lane : Nat) (p : Phase) (c : Course σ) (hc : Q c) :
    Q (v.resumeActions now r lane p c).1 := by
  cases p with
  | sequence o rest =>
      have hstep := h.resume_step r.settings.retryAttempts.toNat o c hc
      rw [resumeActions]
      rcases hresume : v.resumeStep now r.settings.retryAttempts.toNat o c with ⟨d, succeeded | w⟩ <;>
        rw [hresume] at hstep
      · dsimp only
        split
        · exact h.fails d o.action hstep
        · exact h.run_sequence _ _ d hstep
      · exact hstep
  | lanes l =>
      rw [resumeActions]
      split
      next o _ =>
        have hstep := h.resume_step r.settings.retryAttempts.toNat o c hc
        rcases hresume : v.resumeStep now r.settings.retryAttempts.toNat o c with ⟨d, succeeded | w⟩ <;>
          rw [hresume] at hstep
        · exact h.close_lanes _ d hstep
        · exact hstep
      next => exact hc

end Sustains

/-- Running actions keeps where the execution comes from. -/
theorem sustains_origin (v : Environment σ) (now : Moment) (x : Execution) :
    v.Sustains now fun c => c.execution.origin = x.origin where
  begins _ _ _ _ _ h := h
  resumes _ _ _ h := h
  notes _ _ h := h
  starts _ _ h := h
  counts _ _ h := h
  finishes _ _ _ _ _ h := h
  fails c _ h := (c.execution.precedes_move_to now _ rfl).origin.trans h

/-- An execution comes from where it came from after the actions of a rule were run. -/
theorem run_actions_origin (v : Environment σ) (now : Moment) (r : Rule) (c : Course σ) :
    (v.runActions now r c).1.execution.origin = c.execution.origin :=
  (v.sustains_origin now c.execution).run_actions r c rfl

/-- An execution comes from where it came from after the actions of a rule went on. -/
theorem resume_actions_origin (v : Environment σ) (now : Moment) (r : Rule) (lane : Nat) (p : Phase)
    (c : Course σ) : (v.resumeActions now r lane p c).1.execution.origin = c.execution.origin :=
  (v.sustains_origin now c.execution).resume_actions r lane p c rfl

end Rulebook.Environment
