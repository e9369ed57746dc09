import Rulebook.Proofs.Engine.Act
import Rulebook.Proofs.Engine.Change
import Rulebook.Proofs.Run.Course

/-!
# The executions that answers name

A call of a rule is answered with the identifier of the execution that it opens, or with none
(`Engine.execute_names`), and the ring of an alarm answers it so again (`Engine.ring_names`). The only failure that
names an execution is that a rule ran too often, and only the opening of a record fails so: everything else
that the engine does fails for other reasons (`Engine.Gives`).
-/

namespace Rulebook

/-- A rule ran too often. -/
def Failure.isLimit : Failure → Bool
  | .rateLimited _ _ => true
  | _ => false

namespace Outcome

variable {ε α β : Type} {x : Outcome α}

/-- A computation does not fail because a rule ran too often. -/
def Unlimited (x : Outcome α) : Prop := ∀ f, x = .error f → f.isLimit = false

/-- What comes out well does not fail. -/
theorem unlimited_ok (a : α) : Unlimited (.ok a) := nofun

/-- Another failure is not that a rule ran too often. -/
theorem unlimited_error {f : Failure} (h : f.isLimit = false) : Unlimited (.error f : Outcome α) := by
  rintro _ ⟨⟩
  exact h

/-- One computation after another fails as one of them. -/
theorem Unlimited.bind {f : α → Outcome β} (hx : x.Unlimited) (hf : ∀ a, (f a).Unlimited) :
    Unlimited (x >>= f) := by
  intro g hg
  obtain h | ⟨a, _, h⟩ := bind_eq_error.mp hg
  · exact hx g h
  · exact hf a g h

/-- A computation whose result is transformed fails as it does. -/
theorem Unlimited.map {f : α → β} (hx : x.Unlimited) : Unlimited (x.map f) :=
  fun g hg => hx g (map_eq_error.mp hg)

/-- A computation whose failures are turned into others fails as these. -/
theorem unlimited_map_error {y : Except ε α} {g : ε → Failure} (hg : ∀ d, (g d).isLimit = false) :
    Unlimited (y.mapError g) := by
  intro f hf
  obtain ⟨d, _, rfl⟩ := map_error_eq_error.mp hf
  exact hg d

/-- To make items of those of a list fails as it does for one of them. -/
theorem unlimited_list {f : α → Outcome β} (h : ∀ a, (f a).Unlimited) (l : List α) : Unlimited (l.mapM f) := by
  intro g hg
  obtain ⟨_, a, _, _, _, ha⟩ := map_eq_error_iff.mp hg
  exact h a g ha

/-- To make something of what may be there fails as it does if it is there. -/
theorem unlimited_option {f : α → Outcome β} (h : ∀ a, (f a).Unlimited) (m : Option α) :
    Unlimited (m.mapM f) := by
  cases m with
  | none => exact unlimited_ok none
  | some a => exact (h a).map

end Outcome

open Outcome

/-! ### Stores -/

/-- Whether a time can be kept has nothing to do with limits. -/
theorem Stored.time_unlimited (m : Moment) : (time m).Unlimited := unlimited_map_error fun _ => rfl

/-- Whether an integer can be kept has nothing to do with limits. -/
theorem Stored.integer_unlimited (n : Int) : (integer n).Unlimited := by
  rw [integer]
  split
  · exact unlimited_ok n
  · exact unlimited_error rfl

/-- Whether a step can be kept has nothing to do with limits. -/
theorem StepRow.of_step_unlimited (s : ExecutionStep) : (ofStep s).Unlimited :=
  (unlimited_option Stored.time_unlimited _).bind fun _ => (unlimited_option Stored.time_unlimited _).bind fun _ =>
    (Stored.integer_unlimited _).bind fun _ => unlimited_ok _

/-- Whether an execution can be kept has nothing to do with limits. -/
theorem ExecutionRow.of_execution_unlimited (x : Execution) : (ofExecution x).Unlimited :=
  (Stored.time_unlimited _).bind fun _ => (unlimited_option Stored.time_unlimited _).bind fun _ =>
    (unlimited_option Stored.time_unlimited _).bind fun _ =>
      (unlimited_list StepRow.of_step_unlimited _).bind fun _ => unlimited_ok _

/-- Whether a rule can be kept has nothing to do with limits. -/
theorem RuleRow.of_rule_unlimited (r : Rule) : (ofRule r).Unlimited :=
  (Stored.time_unlimited _).bind fun _ => (Stored.time_unlimited _).bind fun _ =>
    (Stored.integer_unlimited _).bind fun _ => unlimited_ok _

namespace ExecutionStore

/-- Adding an execution has nothing to do with limits. -/
theorem create_unlimited (s : ExecutionStore) (x : Execution) : (s.create x).Unlimited := by
  cases s with
  | memory t => exact unlimited_ok _
  | sql t =>
      refine Unlimited.map ((ExecutionRow.of_execution_unlimited x).bind fun row => ?_)
      split
      · exact unlimited_error rfl
      · exact unlimited_ok _

/-- Replacing an execution has nothing to do with limits. -/
theorem update_unlimited (s : ExecutionStore) (x : Execution) : (s.update x).Unlimited := by
  cases s with
  | memory t =>
      refine Unlimited.map ?_
      rw [ExecutionTable.update]
      split
      · exact unlimited_ok _
      · exact unlimited_error rfl
  | sql t =>
      refine Unlimited.map ?_
      rw [ExecutionRows.update]
      split
      · exact (ExecutionRow.of_execution_unlimited x).map.map
      · exact unlimited_error rfl

end ExecutionStore

namespace RuleStore

/-- Finding a rule has nothing to do with limits. -/
theorem get_unlimited (s : RuleStore) (id : String) : (s.get id).Unlimited := by
  cases s with
  | memory t => exact unlimited_ok _
  | sql t => exact unlimited_option (fun _ => unlimited_map_error fun _ => rfl) _

/-- Replacing a rule has nothing to do with limits. -/
theorem update_unlimited (s : RuleStore) (r : Rule) : (s.update r).Unlimited := by
  cases s with
  | memory t =>
      refine Unlimited.map ?_
      rw [RuleTable.update]
      split
      · exact unlimited_ok _
      · exact unlimited_error rfl
  | sql t =>
      refine Unlimited.map ?_
      rw [RuleRows.update]
      split
      · exact (RuleRow.of_rule_unlimited r).map.map
      · exact unlimited_error rfl

end RuleStore

/-- That the limits of a rule cannot be checked is not that it ran too often. -/
theorem RateLimit.check_unlimited (s : ExecutionStore) (ruleId : String) (settings : RuleSettings)
    (now : Moment) : (check s ruleId settings now).Unlimited := by
  refine (unlimited_map_error fun _ => rfl).bind fun day => ?_
  refine Unlimited.bind ?_ fun count => ?_
  · cases s with
    | memory t => exact unlimited_map_error fun _ => rfl
    | sql t => exact (unlimited_map_error fun _ => rfl).bind fun _ => unlimited_ok _
  · split
    · exact unlimited_ok _
    · split
      · exact unlimited_ok _
      · refine Unlimited.bind ?_ fun last => ?_
        · cases s with
          | memory t => exact unlimited_map_error fun _ => rfl
          | sql t => exact unlimited_ok _
        · cases last with
          | none => exact unlimited_ok _
          | some last =>
              refine (unlimited_map_error fun _ => rfl).bind fun cooling => ?_
              split <;> exact unlimited_ok _

/-- That an execution cannot be counted is not that its rule ran too often. -/
theorem RuleMetadata.recording_unlimited (m : RuleMetadata) (x : Execution) : (m.recording x).Unlimited := by
  rw [recording]
  dsimp only
  split
  · split
    · exact unlimited_error rfl
    · exact unlimited_ok _
  · exact unlimited_error rfl

namespace Engine

variable {σ α β : Type}

/-! ### Computations that fail for other reasons -/

/-- A computation gives a result of which `P` holds, or it fails, but not because a rule ran too often. -/
def Gives (P : α → Prop) (m : EngineM σ α) : Prop :=
  ∀ e : Engine σ, (∃ e' a, e.perform m = (e', .ok a) ∧ P a) ∨
    ∃ e' f, e.perform m = (e', .error f) ∧ f.isLimit = false

variable {P : α → Prop} {Q : β → Prop}

/-- What is answered is given. -/
theorem gives_pure {a : α} (h : P a) : Gives P (pure a : EngineM σ α) := fun e => .inl ⟨e, a, rfl, h⟩

/-- A change gives nothing. -/
theorem gives_modify (f : Engine σ → Engine σ) : Gives (fun _ => True) (modify f : EngineM σ Unit) :=
  fun e => .inl ⟨f e, (), rfl, trivial⟩

/-- A look at the engine gives the engine. -/
theorem gives_get : Gives (fun _ => True) (get : EngineM σ (Engine σ)) := fun e => .inl ⟨e, e, rfl, trivial⟩

/-- A computation that only may fail gives what it comes to. -/
theorem gives_lift {x : Outcome α} (h : x.Unlimited) : Gives (fun _ => True) (lift x : EngineM σ α) := by
  intro e
  rw [perform_lift]
  cases x with
  | error f => exact .inr ⟨e, f, rfl, h f rfl⟩
  | ok a => exact .inl ⟨e, a, rfl, trivial⟩

/-- A failure of another kind gives nothing. -/
theorem gives_throw {f : Failure} (h : f.isLimit = false) : Gives P (throw f : EngineM σ α) :=
  fun e => .inr ⟨e, f, rfl, h⟩

/-- One computation after another gives what the last one does. -/
theorem Gives.bind {m : EngineM σ α} {f : α → EngineM σ β} (hm : Gives P m) (hf : ∀ a, P a → Gives Q (f a)) :
    Gives Q (m >>= f) := by
  intro e
  rw [perform_bind]
  obtain ⟨e', a, h, ha⟩ | ⟨e', g, h, hg⟩ := hm e <;> rw [h]
  · exact hf a ha e'
  · exact .inr ⟨e', g, rfl, hg⟩

/-- Writing an execution gives nothing. -/
theorem save_execution_gives (x : Execution) : Gives (fun _ => True) (saveExecution x : EngineM σ Unit) :=
  gives_get.bind fun _ _ => (gives_lift (ExecutionStore.update_unlimited _ x)).bind fun _ _ => gives_modify _

/-- Counting an execution gives nothing. -/
theorem record_outcome_gives (x : Execution) : Gives (fun _ => True) (recordOutcome x : EngineM σ Unit) := by
  refine gives_get.bind fun e _ => (gives_lift (RuleStore.get_unlimited _ _)).bind fun r _ => ?_
  cases r with
  | none => exact gives_pure trivial
  | some r =>
      exact (gives_lift (RuleMetadata.recording_unlimited _ x)).bind fun _ _ => gives_get.bind fun _ _ =>
        (gives_lift (RuleStore.update_unlimited _ _)).bind fun _ _ => gives_modify _

/-- Recording the end of a run that nobody waits for gives nothing. -/
theorem record_late_gives (x : Execution) : Gives (fun _ => True) (recordLate x : EngineM σ Unit) := by
  refine gives_get.bind fun e _ => ?_
  cases e.executions.update x with
  | ok t => exact gives_modify _
  | error f => exact gives_pure trivial

/-- Closing the record of an execution gives its identifier. -/
theorem close_record_gives (x : Execution) : Gives (· = x.id) (closeRecord x : EngineM σ String) :=
  (gives_modify _).bind fun _ _ => (save_execution_gives x).bind fun _ _ =>
    (record_outcome_gives x).bind fun _ _ => (gives_modify _).bind fun _ _ => gives_pure rfl

end Engine

/-! ### Answers -/

/-- An answer names no other execution. -/
def Outcome.Names (id : String) : Outcome String → Prop
  | .ok other => other = id
  | .error (.rateLimited _ other) => other = some id
  | .error _ => True

/-- How a call began names no other execution. -/
def Launch.Names (id : String) : Launch → Prop
  | .ended result => result.Names id
  | .underway other => other = id

/-- A dispatch takes from an answer only the execution that it names. -/
theorem Outcome.Names.tally {id : String} {result : Outcome String} (h : result.Names id)
    (ruleId triggeredBy : String) : ∀ other ∈ (Host.tally ruleId triggeredBy result).1, other = id := by
  intro other hother
  match result, h with
  | .ok _, rfl => exact List.mem_singleton.mp hother
  | .error f, h =>
      cases f with
      | rateLimited reason named =>
          obtain rfl : named = some id := h
          exact List.mem_singleton.mp (List.mem_filter.mp hother).1
      | _ => cases hother

/-- A dispatch takes nothing from a failure of another kind. -/
theorem Outcome.tally_of_other {f : Failure} (h : f.isLimit = false) (ruleId triggeredBy : String) :
    (Host.tally ruleId triggeredBy (.error f)).1 = [] := by
  cases f with
  | rateLimited reason other => cases h
  | _ => rfl

/-- A failure of another kind names no execution. -/
theorem Outcome.names_of_other {f : Failure} (h : f.isLimit = false) (id : String) :
    Outcome.Names id (.error f) := by
  cases f with
  | rateLimited reason other => cases h
  | _ => trivial

namespace Engine

variable {σ : Type} {v : Environment σ} {now : Moment} {e : Engine σ}

/-- Carrying out an execution answers its identifier or leaves it under way. -/
theorem carry_out_gives (v : Environment σ) (now : Moment) (r : Rule) (x : Execution) :
    Gives (fun l => l = .ended (.ok x.id) ∨ l = .underway x.id) (carryOut v now r x) := by
  refine (gives_modify _).bind fun _ _ => ?_
  rcases Condition.allHold r.conditions x.seen with f | _ | _
  · exact (gives_modify _).bind fun _ _ => (save_execution_gives _).bind fun _ _ =>
      (gives_modify _).bind fun _ _ => gives_throw rfl
  · exact (close_record_gives _).bind fun id hid =>
      gives_pure (.inl (congrArg (Launch.ended ∘ Except.ok)
        (hid.trans (Execution.precedes_move_to _ now _ rfl).id_eq)))
  · refine (gives_modify _).bind fun _ _ => gives_get.bind fun e _ => ?_
    have horigin := v.run_actions_origin now r ⟨e.world, x, []⟩
    rcases hrun : v.runActions now r ⟨e.world, x, []⟩ with ⟨c, _ | p⟩ <;> rw [hrun] at horigin
    · have hid : (c.execution.close now).id = x.id :=
        (c.execution.precedes_close now).id_eq.trans (congrArg Prod.fst horigin)
      exact (gives_modify _).bind fun _ _ => (gives_modify _).bind fun _ _ =>
        (close_record_gives _).bind fun id heq =>
          gives_pure (.inl (congrArg (Launch.ended ∘ Except.ok) (heq.trans hid)))
    · exact (gives_modify _).bind fun _ _ => (gives_modify _).bind fun _ _ => (gives_modify _).bind fun _ _ =>
        (gives_modify _).bind fun _ _ => gives_pure (.inr rfl)

/-- That a rule is not in use is not that it ran too often. -/
theorem active_rule_unlimited (e : Engine σ) (ruleId : String) : (e.activeRule ruleId).Unlimited := by
  refine (RuleStore.get_unlimited e.rules ruleId).bind fun r => ?_
  cases r with
  | none => exact unlimited_error rfl
  | some r =>
      dsimp only
      split
      · exact unlimited_ok r
      · exact unlimited_error rfl

/-- A call of a rule names only the execution that it opens, and none if the rule is not in use. -/
theorem execute_names (v : Environment σ) (now : Moment) (e : Engine σ) (ruleId : String) (data : Fields)
    (context : ExecutionContext) (triggeredBy : Option String) :
    (∃ f, e.activeRule ruleId = .error f ∧ f.isLimit = false ∧
        (e.execute v now ruleId data context triggeredBy).2 = .ended (.error f)) ∨
      (∃ r, e.activeRule ruleId = .ok r) ∧
        (e.execute v now ruleId data context triggeredBy).2.Names e.nextExecution := by
  rw [execute, begin, perform_bind, open_record_eq]
  cases hrule : e.activeRule ruleId with
  | error f => exact .inl ⟨f, rfl, active_rule_unlimited e ruleId f hrule, rfl⟩
  | ok r =>
      -- only a refusal fails because of a limit, and it names the record that it leaves
      refine .inr ⟨⟨r, rfl⟩, ?_⟩
      dsimp only
      rcases hcheck : RateLimit.check e.executions r.id r.settings now with f | _ | reason
      · exact names_of_other (RateLimit.check_unlimited _ _ _ _ f hcheck) _
      · dsimp only
        rcases hcreate : e.executions.create
          (.opened r (identifier "exec" (e.executionIds + 1)) now data context triggeredBy) with f | t
        · exact names_of_other (ExecutionStore.create_unlimited _ _ f hcreate) _
        · obtain ⟨e', l, hcarry, hl⟩ | ⟨e', f, hcarry, hf⟩ := carry_out_gives v now r
            (.opened r (identifier "exec" (e.executionIds + 1)) now data context triggeredBy)
            { e with executionIds := e.executionIds + 1, executions := t, inFlight := e.inFlight ++ [_] } <;>
            dsimp only <;> rw [hcarry]
          · obtain rfl | rfl := hl <;> rfl
          · exact names_of_other hf _
      · dsimp only
        rcases hcreate : e.executions.create
          (.refused r (identifier "exec" (e.executionIds + 1)) now data context triggeredBy reason) with f | t
        · exact names_of_other (ExecutionStore.create_unlimited _ _ f hcreate) _
        · exact congrArg some (Execution.precedes_move_to _ now _ rfl).id_eq

/-- A run that is found is of the execution. -/
theorem id_of_run {id : String} {run : Run} (h : e.run? id = some run) : run.execution.id = id := by
  simpa using List.find?_some h

/-- Going on with a run names no other execution. -/
theorem go_on_gives (v : Environment σ) (now : Moment) (id : String) (lane : Nat) :
    Gives (fun other => ∀ name ∈ other, name = id) (goOn v now id lane) := by
  refine gives_get.bind fun e _ => ?_
  cases hrun : e.run? id with
  | none => exact gives_pure nofun
  | some run =>
      refine gives_get.bind fun e _ => ?_
      have horigin := v.resume_actions_origin now run.rule lane run.phase ⟨e.world, run.execution, []⟩
      rcases hresume : v.resumeActions now run.rule lane run.phase ⟨e.world, run.execution, []⟩
        with ⟨c, _ | p⟩ <;> rw [hresume] at horigin
      · have hid : (c.execution.close now).id = id :=
          ((c.execution.precedes_close now).id_eq.trans (congrArg Prod.fst horigin)).trans (id_of_run hrun)
        refine (gives_modify _).bind fun _ _ => (gives_modify _).bind fun _ _ => ?_
        rcases run.watch with timed | _ | _
        · refine (gives_modify _).bind fun _ _ => (close_record_gives _).bind fun name hname => gives_pure ?_
          rintro _ ⟨⟩
          exact hname.trans hid
        · exact (gives_modify _).bind fun _ _ => (record_late_gives _).bind fun _ _ => gives_pure nofun
        · exact (gives_modify _).bind fun _ _ => gives_pure nofun
      · exact (gives_modify _).bind fun _ _ => (gives_modify _).bind fun _ _ => (gives_modify _).bind fun _ _ =>
          (gives_modify _).bind fun _ _ => gives_pure nofun

/-- The end of the time of a run names no other execution. -/
theorem time_out_gives (now : Moment) (id : String) :
    Gives (fun other => ∀ name ∈ other, name = id) (timeOut now id : EngineM σ (Option String)) := by
  refine gives_get.bind fun e _ => ?_
  cases hrun : e.run? id with
  | none => exact gives_pure nofun
  | some run =>
      dsimp only
      split
      · have hid : (run.execution.expired run.rule now).id = id :=
          (Execution.precedes_expired _ _ now).id_eq.trans (id_of_run hrun)
        refine (gives_modify _).bind fun _ _ => (close_record_gives _).bind fun name hname => gives_pure ?_
        rintro _ ⟨⟩
        exact hname.trans hid
      · exact gives_pure nofun

/-- What the ring of an alarm has to tell about an execution names no other one if going on or running out of time
does not. -/
theorem told_names {m : EngineM σ (Option String)} {about id : String} {result : Outcome String}
    (hm : Gives (fun named => ∀ name ∈ named, name = about) m)
    (h : (match e.perform m with
      | (e, .ok none) => (e, none)
      | (e, .ok (some id')) => (e, some (about, .ok id'))
      | (e, .error f) => (e, some (about, .error f)) : Engine σ × Option (String × Outcome String)).2 =
        some (id, result)) : result.Names id := by
  obtain ⟨e', named, hperform, hnamed⟩ | ⟨e', f, hperform, hf⟩ := hm e <;> rw [hperform] at h
  · cases named with
    | none => cases h
    | some name =>
        cases h
        exact hnamed name rfl
  · cases h
    exact names_of_other hf _

/-- The ring of an alarm names only the execution that it is about. -/
theorem ring_names (v : Environment σ) (now : Moment) (e : Engine σ) (t : Timer) {id : String}
    {result : Outcome String} (h : (e.ring v now t).2 = some (id, result)) : result.Names id := by
  cases t with
  | wake about lane => exact told_names (go_on_gives v now about lane) h
  | expire about => exact told_names (time_out_gives now about) h

end Engine

end Rulebook
