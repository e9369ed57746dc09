import Rulebook.Proofs.Engine.Core
import Rulebook.Proofs.Run.Tries

/-!
# The standing of an execution

The standing of an execution is what the engine holds about it: its entry in the store, its run,
whether it can be cancelled, and what happened to its tries. Changes of the core that concern one
execution show in its standing only.
-/

namespace Rulebook

/-- What the engine holds about an execution. -/
structure Standing where
  /-- Its entry in the store. -/
  entry : Option StoreEntry
  /-- Its run. -/
  run : Option Run
  /-- Whether it can be cancelled. -/
  cancellable : Bool
  /-- What happened to its tries. -/
  tries : List TryEvent

namespace Standing

/-- Nothing is held about an execution. -/
def blank : Standing := ⟨none, none, false, []⟩

/-- The entry, if there is one, was made for a version of which `Q` holds. -/
def WrittenFor (p : ExecutionStore) (s : Standing) (Q : Execution → Prop) : Prop :=
  ∀ n, s.entry = some n → ∃ y, p.entryOf y = .ok n ∧ Q y

/-- The standing after the execution was to be replaced in a store of the kind of `p`. -/
def save (p : ExecutionStore) (x : Execution) (s : Standing) : Standing :=
  { s with entry := s.entry.map ((p.entryOf x).toOption.getD ·) }

end Standing

namespace TryEvent

/-- What happened to an execution is listed in order. -/
theorem of_append (id : String) (l k : List TryEvent) : of id (l ++ k) = of id l ++ of id k :=
  List.filter_append l k

/-- What happened to one execution only. -/
theorem of_eq_self {id : String} {l : List TryEvent} (h : ∀ t ∈ l, t.step.executionId = id) :
    of id l = l :=
  List.filter_eq_self.mpr fun t ht => decide_eq_true (h t ht)

/-- What happened to one execution did not happen to another. -/
theorem of_eq_nil {id other : String} {l : List TryEvent} (h : ∀ t ∈ l, t.step.executionId = id)
    (hne : other ≠ id) : of other l = [] :=
  List.filter_eq_nil_iff.mpr fun t ht => by simpa [h t ht] using hne.symm

end TryEvent

namespace Core

variable {σ : Type} (k : Core (Traced σ)) {x : Execution} {id other : String}

/-- The standing of an execution. -/
def standing (id : String) : Standing :=
  ⟨k.executions.entryAt id, k.run? id, k.inFlight.contains id, TryEvent.of id k.world.tries⟩

/-- Taking an identifier out of a list takes out that one only. -/
theorem contains_drop (l : List String) (id other : String) :
    (l.filter (· != id)).contains other = (other != id && l.contains other) := by
  rw [Bool.eq_iff_iff]
  simp [and_comm]

/-- Opening the record of another execution changes nothing. -/
theorem opened_standing_of_ne (hne : other ≠ x.id) :
    (k.opened x).standing other = k.standing other := by
  have hflight : (k.inFlight ++ [x.id]).contains other = k.inFlight.contains other := by
    rw [Bool.eq_iff_iff]
    simp [hne]
  rw [standing, standing, opened]
  simp only [ExecutionStore.entry_created_of_ne hne, hflight]
  rfl

/-- Opening a record under a new identifier gives it the entry that the store makes for it. -/
theorem opened_standing_self (h : k.standing x.id = .blank) :
    (k.opened x).standing x.id = ⟨(k.executions.entryOf x).toOption, none, true, []⟩ := by
  have hflight : (k.inFlight ++ [x.id]).contains x.id = true := by simp
  obtain ⟨hentry, hrun, -, htries⟩ := Standing.mk.inj h
  rw [standing, opened]
  simp only [ExecutionStore.entry_created_self hentry, hflight]
  exact congr (congrArg (Standing.mk _ · true) hrun) htries

/-- Refusing another execution changes nothing. -/
theorem turned_down_standing_of_ne (hne : other ≠ x.id) :
    (k.turnedDown x).standing other = k.standing other := by
  rw [standing, standing, turnedDown]
  simp only [ExecutionStore.entry_created_of_ne hne]
  rfl

/-- An execution that is refused under a new identifier has the entry that the store makes for it. -/
theorem turned_down_standing_self (h : k.standing x.id = .blank) :
    (k.turnedDown x).standing x.id = ⟨(k.executions.entryOf x).toOption, none, false, []⟩ := by
  obtain ⟨hentry, hrun, hflight, htries⟩ := Standing.mk.inj h
  rw [standing, turnedDown]
  simp only [ExecutionStore.entry_created_self hentry, hflight]
  exact congr (congrArg (Standing.mk _ · false) hrun) htries

/-- Replacing an execution shows in its entry. -/
theorem save_standing_self {p : ExecutionStore} (hkind : k.executions.entryOf = p.entryOf)
    (hwritten : (k.standing id).WrittenFor p (·.YieldsTo x)) (hid : x.id = id) :
    (k.save x).standing id = (k.standing id).save p x := by
  subst hid
  have hkept : k.executions.kept x = k.executions.entryOf x :=
    ExecutionStore.kept_eq fun n hn => hkind ▸ hwritten n hn
  rw [standing, standing, Standing.save, save, ← hkind]
  simp only [ExecutionStore.entry_saved_self, hkept]
  rfl

/-- Replacing another execution changes nothing. -/
theorem save_standing_of_ne (hne : other ≠ x.id) :
    (k.save x).standing other = k.standing other := by
  rw [standing, standing, save]
  simp only [ExecutionStore.entry_saved_of_ne hne]
  rfl

/-- An execution that is released cannot be cancelled. -/
theorem release_standing_self :
    (k.release id).standing id = { k.standing id with cancellable := false } := by
  rw [standing, standing, release]
  simp only [contains_drop, bne_self_eq_false, Bool.false_and]
  rfl

/-- Releasing another execution changes nothing. -/
theorem release_standing_of_ne (hne : other ≠ id) :
    (k.release id).standing other = k.standing other := by
  rw [standing, standing, release]
  simp only [contains_drop, bne_iff_ne.mpr hne, Bool.true_and]
  rfl

/-- Closing the record of an execution replaces it and ends that it can be cancelled. -/
theorem close_standing_self {p : ExecutionStore} (hkind : k.executions.entryOf = p.entryOf)
    (hwritten : (k.standing id).WrittenFor p (·.YieldsTo x)) (hid : x.id = id) :
    (k.close x).standing id = { (k.standing id).save p x with cancellable := false } := by
  subst hid
  rw [close, release_standing_self, save_standing_self k hkind hwritten rfl]

/-- Closing the record of another execution changes nothing. -/
theorem close_standing_of_ne (hne : other ≠ x.id) : (k.close x).standing other = k.standing other := by
  rw [close, release_standing_of_ne _ hne, save_standing_of_ne _ hne]

/-- Dropping a run leaves everything else. -/
theorem drop_run_standing_self : (k.dropRun id).standing id = { k.standing id with run := none } := by
  rw [standing, standing]
  congr 1
  exact Keyed.find_drop_self (fun r : Run => r.execution.id) k.runs

/-- Dropping the run of another execution changes nothing. -/
theorem drop_run_standing_of_ne (hne : other ≠ id) :
    (k.dropRun id).standing other = k.standing other := by
  rw [standing, standing]
  congr 1
  exact Keyed.find_drop_of_ne (fun r : Run => r.execution.id) hne k.runs

/-- A run that is added is the run of its execution. -/
theorem add_run_standing_self {r : Run} (hnone : k.run? id = none) (hid : r.execution.id = id) :
    (k.addRun r).standing id = { k.standing id with run := some r } := by
  rw [standing, standing]
  congr 1
  exact Keyed.find_add_self (fun r : Run => r.execution.id) hid hnone

/-- Adding a run of another execution changes nothing. -/
theorem add_run_standing_of_ne {r : Run} (hne : other ≠ r.execution.id) :
    (k.addRun r).standing other = k.standing other := by
  rw [standing, standing]
  congr 1
  exact Keyed.find_add_of_ne (fun r : Run => r.execution.id) rfl hne

/-- A run that is not watched any more has nobody who waits for it. -/
theorem unwatch_standing_self :
    (k.unwatch id).standing id =
      { k.standing id with run := (k.run? id).map fun run => { run with watch := .nobody } } := by
  have hfind : (k.unwatch id).run? id = (k.run? id).map fun run => { run with watch := .nobody } :=
    Keyed.find_change_self (fun r : Run => r.execution.id) (by intro _ h; exact h) k.runs
  rw [standing, standing]
  exact congrArg (Standing.mk _ · _ _) hfind

/-- Unwatching the run of another execution changes nothing. -/
theorem unwatch_standing_of_ne (hne : other ≠ id) :
    (k.unwatch id).standing other = k.standing other := by
  have hfind : (k.unwatch id).run? other = k.run? other :=
    Keyed.find_change_of_ne (fun r : Run => r.execution.id) (by intro _ h; exact h) hne k.runs
  rw [standing, standing]
  exact congrArg (Standing.mk _ · _ _) hfind

/-- Replacing a run leaves everything else. -/
theorem put_run_standing_self {r run : Run} (hrun : k.run? id = some run)
    (hid : r.execution.id = id) : (k.putRun r).standing id = { k.standing id with run := some r } := by
  subst hid
  rw [standing, standing]
  congr 1
  rw [putRun, run?, Keyed.find_change_self (fun r : Run => r.execution.id) fun _ _ => rfl]
  exact congrArg (Option.map fun _ => r) hrun

/-- Replacing the run of another execution changes nothing. -/
theorem put_run_standing_of_ne {r : Run} (hne : other ≠ r.execution.id) :
    (k.putRun r).standing other = k.standing other := by
  rw [standing, standing]
  congr 1
  exact Keyed.find_change_of_ne (fun r : Run => r.execution.id) (fun _ _ => rfl) hne k.runs

/-- What happens to the tries of an execution is added to its standing. -/
theorem tries_standing_self {w : Traced σ} {l : List TryEvent} (hw : w.tries = k.world.tries ++ l)
    (hl : ∀ t ∈ l, t.step.executionId = id) :
    ({ k with world := w } : Core (Traced σ)).standing id =
      { k.standing id with tries := (k.standing id).tries ++ l } := by
  rw [standing, standing]
  dsimp only
  rw [hw, TryEvent.of_append, TryEvent.of_eq_self hl]
  rfl

/-- What happens to the tries of another execution changes nothing. -/
theorem tries_standing_of_ne {w : Traced σ} {l : List TryEvent} (hw : w.tries = k.world.tries ++ l)
    (hl : ∀ t ∈ l, t.step.executionId = id) (hne : other ≠ id) :
    ({ k with world := w } : Core (Traced σ)).standing other = k.standing other := by
  rw [standing, standing]
  dsimp only
  rw [hw, TryEvent.of_append, TryEvent.of_eq_nil hl hne, List.append_nil]
  rfl

end Core

end Rulebook
