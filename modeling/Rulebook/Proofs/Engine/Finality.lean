import Rulebook.Proofs.Engine.Sound
import Rulebook.Proofs.Store.Kept

/-!
# Executions that have ended

Once the stored record of an execution has ended, it is read with the same end ever after, and no try
of its actions begins any more, whatever is done to the engine (`Engine.ended_stays`). Every stored
record is stamped.
-/

namespace Rulebook

/-- The steps of an execution whose tries began, in order. -/
def TryEvent.begunFor (id : String) (l : List TryEvent) : List StepRef := (of id l).filterMap begun?

namespace Standing

variable {U : Rule → Prop} {C : Run → Nat → Execution} {p : ExecutionStore} {now : Moment}
  {id : String} {act : Act} {s s' : Standing} {n m : StoreEntry} {x y z : Execution}

/-- What is read of the execution has the end of `x`, and the tries that began are those of `s`. -/
def KeepsEnd (x : Execution) (s s' : Standing) : Prop :=
  (∃ m y, s'.entry = some m ∧ m.read = .ok y ∧ x.SameEnd y) ∧
    s'.tries.filterMap TryEvent.begun? = s.tries.filterMap TryEvent.begun?

/-- What is read of a sound standing is stamped. -/
theorem Sound.read_stamped (hs : s.Sound p id) (hn : s.entry = some n) (hx : n.read = .ok x) :
    x.Stamped := by
  obtain ⟨y, hy, _, hstamped, _⟩ := hs.written n hn
  exact (ExecutionStore.kept_as hy hx).stamped hstamped

/-- Writing a later version of an execution that has ended keeps its end. -/
theorem save_keeps_end (hn : s.entry = some n) (hx : n.read = .ok x) (hy : p.entryOf y = .ok n)
    (hended : y.isTerminal = true) (hlater : y.Precedes z) :
    ∃ m w, (s.save p z).entry = some m ∧ m.read = .ok w ∧ x.SameEnd w := by
  have hsame := hlater.final hended
  cases hz : p.entryOf z with
  | error f =>
      refine ⟨n, x, ?_, hx, .refl x⟩
      simp [save, hn, hz, Except.toOption]
  | ok m =>
      obtain ⟨w, hw⟩ := ExecutionStore.read_of_precedes hlater hy hx hz
      refine ⟨m, w, ?_, hw, ExecutionStore.kept_same_end hsame hy hx hz hw⟩
      simp [save, hn, hz, Except.toOption]

/-- Moves of an execution that has ended begin no try. -/
theorem begun_of_moves {retries : Nat} {A : List Action} {l : List TryEvent}
    (h : Moves now retries A x l y)
    (hx : x.isTerminal = true) (tries : List TryEvent) :
    (tries ++ l).filterMap TryEvent.begun? = tries.filterMap TryEvent.begun? := by
  rw [List.filterMap_append, h.begun_of_terminal hx, List.append_nil]

/-- A change keeps the end of an execution that has ended. -/
theorem Change.keeps_end (h : Change U C p now id act s s') (hs : s.Sound p id) (hn : s.entry = some n)
    (hx : n.read = .ok x) (hended : x.isTerminal = true) : KeepsEnd x s s' := by
  obtain ⟨y, hy, _, _, hwritten⟩ := hs.written n hn
  have hbefore : ∀ run, s.run = some run → y.Precedes run.execution := fun run hrun => (hwritten run hrun).1
  have hterminal : y.isTerminal = true := by
    rw [Execution.isTerminal, ← (ExecutionStore.kept_as hy hx).status]
    exact hended
  have hsave : ∀ z, y.Precedes z →
      ∃ m w, (s.save p z).entry = some m ∧ m.read = .ok w ∧ x.SameEnd w :=
    fun z => save_keeps_end hn hx hy hterminal
  have hstay : ∃ m w, s.entry = some m ∧ m.read = .ok w ∧ x.SameEnd w := ⟨n, x, hn, hx, .refl x⟩
  have hlive : ∀ run, s.run = some run → run.execution.isTerminal = true :=
    fun run hrun => (hbefore run hrun).is_terminal hterminal
  cases h with
  | refused => cases hn
  | launched => cases hn
  | stay => exact ⟨hstay, rfl⟩
  | released => exact ⟨hstay, rfl⟩
  | restarted => exact ⟨hstay, rfl⟩
  | left => exact ⟨hstay, rfl⟩
  | brokenOff => exact ⟨hstay, rfl⟩
  | waits hrun _ hmoves => exact ⟨hstay, begun_of_moves hmoves (hlive _ hrun) _⟩
  | finishedUnseen hrun _ _ hmoves => exact ⟨hstay, begun_of_moves hmoves (hlive _ hrun) _⟩
  | finished hrun _ _ hmoves =>
      have hlater := (hbefore _ hrun).trans (hmoves.precedes.trans (Execution.precedes_close _ now))
      exact ⟨hsave _ hlater, begun_of_moves hmoves (hlive _ hrun) _⟩
  | finishedLate hrun _ _ hmoves =>
      exact ⟨hsave _ ((hbefore _ hrun).trans hmoves.precedes), begun_of_moves hmoves (hlive _ hrun) _⟩
  | expired hrun =>
      exact ⟨hsave _ ((hbefore _ hrun).trans (Execution.precedes_expired _ _ now)), rfl⟩
  | @cancelled _ run _ z moved hrun _ hmove =>
      have hlater := (Execution.moves_to hmove rfl).later
      cases moved with
      | false => exact ⟨hstay, rfl⟩
      | true => exact ⟨hsave _ ((hbefore _ hrun).trans hlater), rfl⟩

end Standing

namespace Engine

variable {σ : Type} {v : Environment σ} {p : ExecutionStore} {e : Engine (Traced σ)} {id : String}
  {x : Execution}

/-- What is read of an execution is read from its entry. -/
theorem entry_of_get (h : e.executions.get id = .ok (some x)) :
    ∃ n, (e.core.standing id).entry = some n ∧ n.read = .ok x := by
  cases hentry : e.executions.entryAt id with
  | none =>
      rw [ExecutionStore.get_of_entry_eq_none hentry] at h
      cases h
  | some n => exact ⟨n, hentry, (ExecutionStore.get_eq_ok_iff hentry).mp h⟩

/-- Acts keep the end of an execution that has ended. -/
theorem after_keeps_end (hk : e.core.Sound p) (h : e.executions.get id = .ok (some x))
    (hended : x.isTerminal = true) (acts : List (Moment × Act)) :
    (∃ y, (e.after v.traced acts).executions.get id = .ok (some y) ∧ x.SameEnd y) ∧
      TryEvent.begunFor id (e.after v.traced acts).world.tries =
        TryEvent.begunFor id e.world.tries := by
  induction acts generalizing e x with
  | nil => exact ⟨⟨x, h, .refl x⟩, rfl⟩
  | cons act acts ih =>
      obtain ⟨n, hn, hread⟩ := entry_of_get h
      obtain ⟨⟨m, y, hm, hy, hsame⟩, hbegun⟩ :=
        (@act_change _ v _ act.1 _ hk act.2 id).keeps_end (hk.standing id) hn hread hended
      have hget := (ExecutionStore.get_eq_ok_iff hm).mpr hy
      obtain ⟨⟨z, hz, hsame'⟩, hbegun'⟩ :=
        ih (act_sound hk act.2) hget (hsame.is_terminal.trans hended)
      exact ⟨⟨z, hz, hsame.trans hsame'⟩, hbegun'.trans hbegun⟩

/-- Whatever is done to a new engine, every record in its store is stamped; and once a record has
ended, it is read ever after with the same stage, times, error and result, the same steps and as many
tries, and no try of its actions begins any more. -/
theorem ended_stays (v : Environment σ) (he : e.IsNew) (before later : List (Moment × Act))
    (id : String) (hx : (e.after v.traced before).executions.get id = .ok (some x)) :
    x.Stamped ∧ (x.isTerminal = true →
      (∃ y, (e.after v.traced (before ++ later)).executions.get id = .ok (some y) ∧ x.SameEnd y) ∧
      TryEvent.begunFor id (e.after v.traced (before ++ later)).world.tries =
        TryEvent.begunFor id (e.after v.traced before).world.tries) := by
  have hk := after_sound (v := v) he.sound before
  obtain ⟨n, hn, hread⟩ := entry_of_get hx
  refine ⟨(hk.standing id).read_stamped hn hread, fun hended => ?_⟩
  rw [after_append]
  exact after_keeps_end hk hx hended later

/-- An execution that is cancelled while its action waits stays so when the action is done. -/
theorem ended_stays_cancelled :
    let e := start (.memory ⟨[.plain "rule" [.plain "action"]]⟩) (.memory .empty)
      ⟨[.waits .plain], []⟩
    let before := [(.utc 0, .execute "rule" [] .empty none), (.utc 5, .cancel "exec_0001" none)]
    let later := [(.utc 9, .ring (.wake "exec_0001" 0))]
    ∃ x, (e.after Environment.scripted.traced before).executions.get "exec_0001" = .ok (some x) ∧
      x.isTerminal = true ∧ ∃ y,
      (e.after Environment.scripted.traced (before ++ later)).executions.get "exec_0001" =
        .ok (some y) ∧ x.SameEnd y := by
  intro e before later
  have hstored : (((e.after Environment.scripted.traced before).executions.get
      "exec_0001").toOption.join.map (·.isTerminal)) = some true := by decide +kernel
  obtain ⟨x, hx, hended⟩ := Outcome.found_of_map hstored
  have hnew : e.IsNew := start_is_new _ (fun _ => rfl) _
  exact ⟨x, hx, hended, ((ended_stays .scripted hnew before later "exec_0001" hx).2 hended).1⟩

end Engine

end Rulebook
