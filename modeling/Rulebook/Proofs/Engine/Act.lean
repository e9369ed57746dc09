import Rulebook.Proofs.Engine.Core

/-!
# What is done to an engine

An act is anything that is done to an engine at a reading of the clock: a call of one of its
operations, the ring of an alarm, and what its host does to it. What happens in between is up to the
acts, so a list of acts (`Engine.after`) is any interleaving of calls, replies and alarms.
-/

namespace Rulebook

/-- What can be done to an engine. -/
inductive Act where
  /-- A rule is created. -/
  | createRule (d : RuleDraft)
  /-- A rule gets a new definition. -/
  | updateRule (ruleId : String) (d : RuleDefinition) (tenantId : Option String)
  /-- A rule is taken out of use. -/
  | deactivateRule (ruleId : String) (tenantId : Option String)
  /-- The rules that are kept are registered. -/
  | setUp
  /-- A rule is executed. -/
  | execute (ruleId : String) (data : Fields) (context : ExecutionContext)
      (triggeredBy : Option String)
  /-- An alarm rings. -/
  | ring (t : Timer)
  /-- An execution is cancelled. -/
  | cancel (executionId : String) (tenantId : Option String)
  /-- The caller of an execution goes away. -/
  | abandon (executionId : String)
  /-- The engine restarts. -/
  | restart
  /-- The scheduler is replaced. -/
  | schedule (s : Scheduler)
  /-- Notes are left. -/
  | note (notes : List LogEntry)
  /-- The polled condition of a rule is read. -/
  | poll (r : Rule)
  /-- The alarms that were asked for are set. -/
  | setAlarms

namespace Act

variable {σ : Type}

/-- The engine after an act. -/
def apply (v : Environment σ) (now : Moment) (e : Engine σ) : Act → Engine σ
  | createRule d => (e.perform (Engine.createRule v now d)).1
  | updateRule ruleId d tenantId => (e.perform (Engine.updateRule v now ruleId d tenantId)).1
  | deactivateRule ruleId tenantId => (e.perform (Engine.deactivateRule now ruleId tenantId)).1
  | setUp => (e.perform (Engine.setUp v now)).1
  | execute ruleId data context triggeredBy =>
    (e.execute v now ruleId data context triggeredBy).1
  | ring t => (e.ring v now t).1
  | cancel executionId tenantId => (e.perform (Engine.cancel now executionId tenantId)).1
  | abandon executionId => e.abandon executionId
  | restart => e.restart
  | schedule s => (Engine.host v now).schedule e s
  | note notes => (Engine.host v now).note e notes
  | poll r =>
    match (Engine.host v now).source with
    | some reading => (reading e r).1
    | none => e
  | setAlarms => { e with alarms := [] }

end Act

namespace Engine

variable {σ : Type}

/-- The engine after acts, each at a reading of the clock. -/
def after (v : Environment σ) (e : Engine σ) (acts : List (Moment × Act)) : Engine σ :=
  acts.foldl (fun e act => act.2.apply v act.1 e) e

/-- The identifier that the next execution gets. -/
def nextExecution (e : Engine σ) : String := identifier "exec" (e.executionIds + 1)

/-- A rule is in use. -/
def UsesRule (e : Engine σ) (r : Rule) : Prop := ∃ ruleId, e.activeRule ruleId = .ok r

/-- A rule is in use at some time during acts. -/
def ComesToUse (v : Environment σ) (e : Engine σ) (acts : List (Moment × Act)) (r : Rule) : Prop :=
  ∃ before later, acts = before ++ later ∧ (e.after v before).UsesRule r

/-- The caller of an execution of which `Q` holds waits for it. -/
def IsCalled (e : Engine σ) (id : String) (Q : Execution → Prop) : Prop :=
  ∃ run timed, e.run? id = some run ∧ run.watch = .caller timed ∧ Q run.execution

/-- During acts the caller of an execution went away while it waited and `Q` held of the execution. -/
def WasLeft (v : Environment σ) (e : Engine σ) (acts : List (Moment × Act)) (id : String)
    (Q : Execution → Prop) : Prop :=
  ∃ before now later, acts = before ++ (now, .abandon id) :: later ∧ (e.after v before).IsCalled id Q

/-- Acts can follow acts. -/
theorem after_append (v : Environment σ) (e : Engine σ) (acts more : List (Moment × Act)) :
    e.after v (acts ++ more) = (e.after v acts).after v more :=
  List.foldl_append

/-- A rule that comes to be in use does so when more acts follow. -/
theorem ComesToUse.append {v : Environment σ} {e : Engine σ} {acts : List (Moment × Act)} {r : Rule}
    (h : e.ComesToUse v acts r) (more : List (Moment × Act)) : e.ComesToUse v (acts ++ more) r := by
  obtain ⟨before, later, rfl, huse⟩ := h
  exact ⟨before, later ++ more, List.append_assoc _ _ _, huse⟩

/-- A caller that went away has gone away when more acts follow. -/
theorem WasLeft.append {v : Environment σ} {e : Engine σ} {acts : List (Moment × Act)} {id : String}
    {Q : Execution → Prop} (h : e.WasLeft v acts id Q) (more : List (Moment × Act)) :
    e.WasLeft v (acts ++ more) id Q := by
  obtain ⟨before, now, later, rfl, hcalled⟩ := h
  exact ⟨before, now, later ++ more, List.append_assoc _ _ _, hcalled⟩

/-- Whether a caller went away during acts is known from the last of them and those before it. -/
theorem was_left_concat (v : Environment σ) (e : Engine σ) (acts : List (Moment × Act))
    (act : Moment × Act) (id : String) (Q : Execution → Prop) :
    e.WasLeft v (acts ++ [act]) id Q ↔
      e.WasLeft v acts id Q ∨ act.2 = .abandon id ∧ (e.after v acts).IsCalled id Q := by
  constructor
  · rintro ⟨before, now, later, hacts, hcalled⟩
    obtain rfl | ⟨later', last, rfl⟩ := List.eq_nil_or_concat later
    · obtain ⟨rfl, hact⟩ := List.append_inj' hacts rfl
      rw [List.singleton_inj] at hact
      exact .inr ⟨congrArg Prod.snd hact, hcalled⟩
    · have hsplit : acts ++ [act] = (before ++ (now, .abandon id) :: later') ++ [last] := by
        simpa using hacts
      obtain ⟨rfl, _⟩ := List.append_inj' hsplit rfl
      exact .inl ⟨before, now, later', rfl, hcalled⟩
  · rintro (⟨before, now, later, rfl, hcalled⟩ | ⟨hact, hcalled⟩)
    · exact ⟨before, now, later ++ [act], by simp, hcalled⟩
    · exact ⟨acts, act.1, [], by rw [← hact], hcalled⟩

end Engine

/-! ### Rules to run -/

/-- An action that must not fail. -/
def Action.plain (id : String) : Action := ⟨id, "", 0, true, false, .custom ⟨id, .python, []⟩⟩

/-- A rule in use that does nothing but to run actions. -/
def Rule.plain (id : String) (actions : List Action) : Rule :=
  { name := id, description := "", priority := 0, isActive := true, triggers := [], conditions := []
    actions, settings := .plain, metadata := .plain, tenantId := "tenant", id
    createdAt := .utc 0, updatedAt := .utc 0 }

/-- A wait of one second for an answer that is nothing. -/
def Waiting.plain : Waiting := ⟨[], .fixed [], microsPerSecond, .ok (.value .null)⟩

/-- An environment that answers as a script says, and well when the script is over. -/
def Environment.scripted : Environment (List Attempt) where
  begin _ _ _ _ script := (script.tail, script.headD (.over (.ok .null)))
  resume _ _ script := (script.tail, script.headD (.over (.ok .null)))
  source := none

end Rulebook
