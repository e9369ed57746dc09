import Rulebook.Engine.Execution
import Rulebook.Proofs.Store.Entry

/-!
# Computations of the engine

What a computation does to the engine, part by part (`Engine.perform_bind` and the others), and what
it leaves alone (`Engine.Leaves`). The part of the engine that executions live in is its core
(`Engine.core`); rules, the registry, notes and alarms are no part of it.
-/

namespace Rulebook

/-- The part of an engine that executions live in. -/
structure Core (σ : Type) where
  /-- The executions that are kept. -/
  executions : ExecutionStore
  /-- The executions that can be cancelled. -/
  inFlight : List String
  /-- The runs that wait. -/
  runs : List Run
  /-- How many identifiers of executions are taken. -/
  executionIds : Nat
  /-- The state of the services. -/
  world : σ

namespace Engine

variable {σ α β γ : Type}

/-- The part of the engine that executions live in. -/
def core (e : Engine σ) : Core σ := ⟨e.executions, e.inFlight, e.runs, e.executionIds, e.world⟩

section Perform

variable (e : Engine σ)

@[simp] theorem perform_pure (a : α) : e.perform (pure a : EngineM σ α) = (e, .ok a) := rfl

@[simp] theorem perform_get : e.perform (get : EngineM σ (Engine σ)) = (e, .ok e) := rfl

@[simp] theorem perform_modify (f : Engine σ → Engine σ) :
    e.perform (modify f : EngineM σ Unit) = (f e, .ok ()) := rfl

@[simp] theorem perform_lift (r : Outcome α) : e.perform (lift r : EngineM σ α) = (e, r) := rfl

@[simp] theorem perform_throw (f : Failure) :
    e.perform (throw f : EngineM σ α) = (e, .error f) := rfl

/-- A computation after another starts with what that one leaves, unless it fails. -/
theorem perform_bind (m : EngineM σ α) (f : α → EngineM σ β) :
    e.perform (m >>= f) = match e.perform m with
      | (e, .ok a) => e.perform (f a)
      | (e, .error g) => (e, .error g) := by
  simp only [perform, ExceptT.run_bind, StateT.run_bind]
  rcases (ExceptT.run m).run e with ⟨r, e'⟩
  cases r <;> rfl

/-- A computation that ends with what is made of the result of another one has that made of it. -/
theorem perform_bind_pure (m : EngineM σ α) (g : α → β) :
    (e.perform (m >>= fun a => pure (g a))).2 = (e.perform m).2.map g := by
  rw [perform_bind]
  rcases e.perform m with ⟨e', r⟩
  cases r <;> rfl

/-- A computation that ends with what is made of the result of another one leaves the engine that that one leaves. -/
theorem perform_bind_pure_fst (m : EngineM σ α) (g : α → β) :
    (e.perform (m >>= fun a => pure (g a))).1 = (e.perform m).1 := by
  rw [perform_bind]
  rcases e.perform m with ⟨e', r⟩
  cases r <;> rfl

/-- A computation before one that always gives the same comes out as it does on its own. -/
theorem perform_bind_const {m : EngineM σ α} {f : α → EngineM σ β} {b : β}
    (hf : ∀ a (e : Engine σ), (e.perform (f a)).2 = .ok b) :
    (e.perform (m >>= f)).2 = (e.perform m).2.map fun _ => b := by
  rw [perform_bind]
  rcases e.perform m with ⟨e', g | a⟩
  · rfl
  · exact hf a e'

variable {e}

/-- A computation after one that comes out well. -/
theorem perform_bind_ok {e' : Engine σ} {m : EngineM σ α} {a : α} (h : e.perform m = (e', .ok a))
    (f : α → EngineM σ β) : e.perform (m >>= f) = e'.perform (f a) := by
  rw [perform_bind, h]

/-- A computation that gives a result after another one comes after a result of that one. -/
theorem perform_bind_eq_ok {e' : Engine σ} {m : EngineM σ α} {f : α → EngineM σ β} {b : β}
    (h : e.perform (m >>= f) = (e', .ok b)) :
    ∃ between a, e.perform m = (between, .ok a) ∧ between.perform (f a) = (e', .ok b) := by
  rw [perform_bind] at h
  rcases hm : e.perform m with ⟨between, g | a⟩ <;> rw [hm] at h
  · cases h
  · exact ⟨between, a, rfl, h⟩

end Perform

/-- A computation leaves what is seen of the engine as it is. -/
def Leaves (see : Engine σ → γ) (m : EngineM σ α) : Prop := ∀ e, see (e.perform m).1 = see e

variable {see : Engine σ → γ}

/-- A computation that only answers leaves everything. -/
theorem leaves_pure (a : α) : Leaves see (pure a : EngineM σ α) := fun _ => rfl

/-- A look at the engine leaves everything. -/
theorem leaves_get : Leaves see (get : EngineM σ (Engine σ)) := fun _ => rfl

/-- A computation that only may fail leaves everything. -/
theorem leaves_lift (r : Outcome α) : Leaves see (lift r : EngineM σ α) := fun _ => rfl

/-- A failure leaves everything. -/
theorem leaves_throw (f : Failure) : Leaves see (throw f : EngineM σ α) := fun _ => rfl

/-- A change that cannot be seen leaves what is seen. -/
theorem leaves_modify {f : Engine σ → Engine σ} (h : ∀ e, see (f e) = see e) :
    Leaves see (modify f : EngineM σ Unit) := h

/-- Two computations leave what each of them leaves. -/
theorem leaves_bind {m : EngineM σ α} {f : α → EngineM σ β} (hm : Leaves see m)
    (hf : ∀ a, Leaves see (f a)) : Leaves see (m >>= f) := by
  intro e
  rw [perform_bind]
  rcases hperform : e.perform m with ⟨e', r⟩
  have hsame : see e' = see e := by rw [← hm e, hperform]
  cases r with
  | error g => exact hsame
  | ok a => exact (hf a e').trans hsame

/-- What comes after does not matter to what is seen if it leaves that. -/
theorem see_bind {f : α → EngineM σ β} (hf : ∀ a, Leaves see (f a)) (e : Engine σ) (m : EngineM σ α) :
    see (e.perform (m >>= f)).1 = see (e.perform m).1 := by
  rw [perform_bind]
  rcases e.perform m with ⟨e', r⟩
  cases r with
  | error g => rfl
  | ok a => exact hf a e'

/-- What comes after does not matter to the core if it leaves the core. -/
theorem core_bind {f : α → EngineM σ β} (hf : ∀ a, Leaves core (f a)) (e : Engine σ)
    (m : EngineM σ α) : (e.perform (m >>= f)).1.core = (e.perform m).1.core :=
  see_bind hf e m

end Engine

end Rulebook
