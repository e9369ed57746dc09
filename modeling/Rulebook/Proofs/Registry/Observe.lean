import Rulebook.Registry.Dispatch

/-!
# Hosts that are observed

A host can be observed while it executes rules: what is seen of it is written down beside its state
(`Host.observed`), which changes nothing of what it does: dispatches get as far (`Cause.dispatch_observed`). In general
a host does what another one does if the state of the other one can be told from its own (`Host.Shows`), as far as rules
are executed (`Host.Shows.serve`).
-/

namespace Rulebook

variable {σ τ α : Type}

/-- What makes a dispatch. -/
inductive Cause where
  /-- An event. -/
  | event (eventType : String) (data : Fields) (context : ExecutionContext)
  /-- A call of a webhook. -/
  | webhook (webhookId : String) (data : Fields) (headers : List (String × String))
  /-- A look at the schedules. -/
  | tick

/-- How far the dispatch of a cause gets at once. -/
def Cause.dispatch (h : Host σ) (now : Moment) (s : σ) : Cause → σ × Outcome Progress
  | event eventType data context => h.event eventType data context s
  | webhook webhookId data headers =>
    let (s, p) := h.webhook webhookId data headers s
    (s, .ok p)
  | tick => h.tick now s

namespace Host

/-- The host that also writes down what is seen of it when an execution is started or a condition is polled. -/
def observed (h : Host σ) (start : σ → String → Occasion → List α) (poll : σ → Rule → List α) :
    Host (σ × List α) where
  registry s := h.registry s.1
  schedule s jobs := (h.schedule s.1 jobs, s.2)
  note s notes := (h.note s.1 notes, s.2)
  execute s ruleId o :=
    let (state, launch) := h.execute s.1 ruleId o
    ((state, s.2 ++ start s.1 ruleId o), launch)
  source := h.source.map fun reading s r =>
    let (state, x) := reading s.1 r
    ((state, s.2 ++ poll s.1 r), x)

/-- A host does with its state what another one does with the state that `show` tells. -/
structure Shows (h : Host τ) (shown : τ → σ) (h' : Host σ) : Prop where
  registry : ∀ s, h.registry s = h'.registry (shown s)
  note : ∀ s notes, h'.note (shown s) notes = shown (h.note s notes)
  execute : ∀ s ruleId o,
    h'.execute (shown s) ruleId o = (shown (h.execute s ruleId o).1, (h.execute s ruleId o).2)

variable {h : Host τ} {shown : τ → σ} {h' : Host σ}

/-- Rules are executed alike. -/
theorem Shows.serve (hshows : h.Shows shown h') (o : Occasion) (jobs : List Job) (rules : List Rule) (s : τ)
    (ids : List String) : h'.serve o jobs rules (shown s) ids =
      (shown (h.serve o jobs rules s ids).1, (h.serve o jobs rules s ids).2) := by
  induction rules generalizing s ids with
  | nil => rfl
  | cons r rules ih =>
      rw [Host.serve, Host.serve]
      cases r.isActive with
      | false => exact ih s ids
      | true =>
          rw [if_pos rfl, if_pos rfl, hshows.execute]
          rcases h.execute s r.id o with ⟨s', result | id⟩
          · dsimp only
            rw [hshows.note]
            exact ih _ _
          · rfl

/-- The rules that an event means are executed alike. -/
theorem Shows.event (hshows : h.Shows shown h') (eventType : String) (data : Fields) (context : ExecutionContext)
    (s : τ) : h'.event eventType data context (shown s) =
      (shown (h.event eventType data context s).1, (h.event eventType data context s).2) := by
  rw [Host.event, Host.event, ← hshows.registry]
  dsimp only
  rw [hshows.note]
  cases ((h.registry s).forEvent eventType data).outcome with
  | error f => rfl
  | ok rules =>
      dsimp only
      rw [dispatch, dispatch, hshows.serve]

/-- What is seen of a host does not matter to what it does. -/
theorem shows_of_observed (h : Host σ) (start : σ → String → Occasion → List α) (poll : σ → Rule → List α) :
    (h.observed start poll).Shows Prod.fst h :=
  ⟨fun _ => rfl, fun _ _ => rfl, fun _ _ _ => rfl⟩

/-- What the occasion of a due job is does not depend on that either. -/
theorem observed_occasion (h : Host σ) (start : σ → String → Occasion → List α) (poll : σ → Rule → List α) (j : Job)
    (r : Rule) (s : σ × List α) : h.occasion j r s.1 =
      (((h.observed start poll).occasion j r s).1.1, ((h.observed start poll).occasion j r s).2) := by
  rw [occasion, occasion]
  split
  next =>
    rw [Host.poll, Host.poll, observed]
    cases polling? r j.triggerId with
    | none => rfl
    | some p =>
        cases h.source with
        | none => rfl
        | some reading =>
            dsimp only [Option.map_some]
            rcases reading s.1 r with ⟨s', f | _ | data⟩ <;> rfl
  next => rfl

/-- Due jobs are fired alike. -/
theorem observed_fire (h : Host σ) (start : σ → String → Occasion → List α) (poll : σ → Rule → List α)
    (jobs : List Job) (s : σ × List α) (ids : List String) : h.fire jobs s.1 ids =
      (((h.observed start poll).fire jobs s ids).1.1, ((h.observed start poll).fire jobs s ids).2) := by
  induction jobs generalizing s ids with
  | nil => rfl
  | cons j jobs ih =>
      rw [fire, fire, show (h.observed start poll).registry s = h.registry s.1 from rfl]
      cases (h.registry s.1).rule? j.ruleId with
      | none => exact ih s ids
      | some r =>
          dsimp only
          rw [h.observed_occasion start poll]
          generalize (h.observed start poll).occasion j r s = polled
          obtain ⟨⟨s', seen⟩, o⟩ := polled
          dsimp only
          rcases o.outcome with f | _ | o'
          · exact ih ((h.observed start poll).note ((h.observed start poll).note (s', seen) o.notes) _) ids
          · exact ih ((h.observed start poll).note (s', seen) o.notes) ids
          · have hserve := (h.shows_of_observed start poll).serve o' jobs [r]
              ((h.observed start poll).note (s', seen) o.notes) ids
            rw [show ((h.observed start poll).note (s', seen) o.notes).1 = h.note s' o.notes from rfl] at hserve
            dsimp only
            rw [hserve]
            rcases (h.observed start poll).serve o' jobs [r] _ ids with ⟨s'', ids' | ⟨id, q, e⟩⟩
            · exact ih s'' ids'
            · rfl

end Host

/-- A dispatch of a host that is observed gets as far as one of the host. -/
theorem Cause.dispatch_observed (h : Host σ) (start : σ → String → Occasion → List α) (poll : σ → Rule → List α)
    (now : Moment) (s : σ × List α) (cause : Cause) : cause.dispatch h now s.1 =
      ((cause.dispatch (h.observed start poll) now s).1.1, (cause.dispatch (h.observed start poll) now s).2) := by
  cases cause with
  | event eventType data context => exact (h.shows_of_observed start poll).event eventType data context s
  | webhook webhookId data headers =>
      rw [dispatch, dispatch, Host.webhook, Host.webhook,
        show (h.observed start poll).registry s = h.registry s.1 from rfl]
      dsimp only
      rw [Host.dispatch, Host.dispatch, (h.shows_of_observed start poll).note,
        (h.shows_of_observed start poll).serve]
  | tick =>
      rw [dispatch, dispatch, Host.tick, Host.tick, show (h.observed start poll).registry s = h.registry s.1 from rfl]
      dsimp only
      cases ((h.registry s.1).scheduler.due now).due with
      | error f => rfl
      | ok jobs =>
          have hfire := h.observed_fire start poll jobs ((h.observed start poll).note
            ((h.observed start poll).schedule s ⟨((h.registry s.1).scheduler.due now).jobs⟩)
            ((h.registry s.1).scheduler.due now).notes) []
          exact congrArg (fun fired : σ × Progress => (fired.1, (.ok fired.2 : Outcome Progress))) hfire

end Rulebook
