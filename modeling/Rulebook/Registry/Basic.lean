import Rulebook.Failure
import Rulebook.Rule.EventType
import Rulebook.Schedule.Job
/-!
# The registry of rules

The registry holds the rules in use in the order of their registration. Two indexes tell which of
them listen to an event type and to a webhook, and the scheduler holds the jobs of their schedules
and polled conditions. Registering a rule again takes away all that it had before.
-/

/-!
## Computations with notes

A computation that leaves notes in the log and may fail; the notes stay when it does.
-/

namespace Rulebook

/-- A computation with notes. -/
structure Logged (α : Type) where
  /-- What came of it. -/
  outcome : Outcome α
  /-- The notes that it leaves. -/
  notes : List LogEntry

namespace Logged

/-- A computation that leaves no notes. -/
def ofOutcome {α : Type} (r : Outcome α) : Logged α := ⟨r, []⟩

/-- One computation after another. -/
def bind {α β : Type} (x : Logged α) (f : α → Logged β) : Logged β :=
  match x.outcome with
  | .error e => ⟨.error e, x.notes⟩
  | .ok a => ⟨(f a).outcome, x.notes ++ (f a).notes⟩

instance : Monad Logged where
  pure a := ofOutcome (.ok a)
  bind := bind

/-- Leaves a note. -/
def note (e : LogEntry) : Logged Unit := ⟨.ok (), [e]⟩

end Logged

end Rulebook

/-!
## Indexes

An index lists identifiers under keys. A key under which nothing is listed is not kept.
-/

namespace Rulebook

/-- Which identifiers are listed under which key. -/
structure Index where
  /-- The keys, each once, with what is listed under them. -/
  entries : List (String × List String)

namespace Index

/-- The index that lists nothing. -/
def empty : Index := ⟨[]⟩

/-- What is listed under a key. -/
def get (x : Index) (key : String) : List String := (x.entries.lookup key).getD []

/-- The index with an identifier listed under a key too. -/
def add (x : Index) (key id : String) : Index :=
  if x.entries.any (·.1 == key) then
    ⟨x.entries.map fun (k, ids) =>
      if k == key then (k, if ids.contains id then ids else ids ++ [id]) else (k, ids)⟩
  else ⟨x.entries ++ [(key, [id])]⟩

/-- The index without an identifier. -/
def drop (x : Index) (id : String) : Index :=
  ⟨(x.entries.map fun (k, ids) => (k, ids.filter (· != id))).filter (!·.2.isEmpty)⟩

/-- What is listed under the keys that are wanted. -/
def listed (x : Index) (wanted : String → Bool) : List String :=
  (x.entries.filter fun e => wanted e.1).flatMap (·.2)

end Index

end Rulebook

/-! ## The registry of rules -/

namespace Rulebook

/-- The registry of rules. -/
structure Registry where
  /-- The rules, those registered last at the end. -/
  rules : List Rule
  /-- The rules that listen to an event type, by its normal form. -/
  events : Index
  /-- The rules that listen to a webhook, by its identifier. -/
  webhooks : Index
  /-- The jobs. -/
  scheduler : Scheduler

namespace Registry

/-- The registry without rules. -/
def empty : Registry := ⟨[], .empty, .empty, .empty⟩

/-- The registered rule of an identifier. -/
def rule? (g : Registry) (ruleId : String) : Option Rule := g.rules.find? (·.id == ruleId)

/-- The registry without a rule. -/
def unregister (g : Registry) (ruleId : String) : Registry :=
  ⟨g.rules.filter (·.id != ruleId), g.events.drop ruleId, g.webhooks.drop ruleId,
    (g.scheduler.cancelRule ruleId).1⟩

/-- The registry in which a rule listens to what a trigger reacts to. -/
def listen (ruleId : String) (g : Registry) (t : Trigger) : Registry :=
  match t.source, t.webhookId? with
  | .event eventType, _ => { g with events := g.events.add (EventType.normalize eventType) ruleId }
  | _, some webhookId => { g with webhooks := g.webhooks.add webhookId ruleId }
  | _, none => g

/-- The registry with a rule that listens to what its triggers in use react to. -/
def enter (g : Registry) (r : Rule) : Registry :=
  r.enabledTriggers.foldl (listen r.id) { g with rules := g.rules ++ [r] }

/-- The registry with a rule in another version, which keeps its place and what it listens to. -/
def amend (g : Registry) (ruleId : String) (change : Rule → Rule) : Registry :=
  { g with rules := g.rules.map fun r => if r.id == ruleId then change r else r }

/-- The note about a job that was armed. -/
def armedNote (j : Job) (s : Schedule) : LogEntry :=
  ⟨.info, "trigger.armed",
    [("rule_id", .text j.ruleId), ("trigger_id", .text j.triggerId), ("kind", .text j.kind),
      ("expression", .text s.expression), ("next_fire_at", .text j.nextFireAt.isoText)]⟩

/-- The note about a schedule that cannot be armed. -/
def invalidNote (ruleId triggerId : String) (e : ScheduleError) : LogEntry :=
  ⟨.warning, "trigger.invalid",
    [("rule_id", .text ruleId), ("trigger_id", .text triggerId), ("error", .text e.message)]⟩

/-- The note about a polled condition where conditions cannot be polled. -/
def unsupportedNote (ruleId triggerId : String) : LogEntry :=
  ⟨.warning, "trigger.unsupported",
    [("rule_id", .text ruleId), ("trigger_id", .text triggerId),
      ("reason", .text "No condition source configured for polling triggers")]⟩

/-- The job of a trigger, if it has one; a schedule that cannot be armed leaves a note. -/
def jobOf (polls : Bool) (now : Moment) (ruleId : String) (t : Trigger) : Logged (Option Job) :=
  match t.source with
  | .schedule s =>
    match Job.ofSchedule ruleId t.id s now with
    | .ok j => ⟨.ok (some j), [armedNote j s]⟩
    | .error (.schedule e) => ⟨.ok none, [invalidNote ruleId t.id e]⟩
    | .error f => ⟨.error f, []⟩
  | .condition p =>
    if polls then .ofOutcome ((Job.polling ruleId t.id p.checkInterval now).map some)
    else ⟨.ok none, [unsupportedNote ruleId t.id]⟩
  | _ => pure none

/-- Arms the jobs of triggers in order, until one fails. -/
def arm (polls : Bool) (now : Moment) (ruleId : String) :
    List Trigger → Scheduler → Scheduler × Logged Unit
  | [], s => (s, pure ())
  | t :: rest, s =>
    let job := jobOf polls now ruleId t
    match job.outcome with
    | .error f => (s, ⟨.error f, job.notes⟩)
    | .ok j =>
      let (s, r) := arm polls now ruleId rest (match j with | some j => (s.arm j).1 | none => s)
      (s, ⟨r.outcome, job.notes ++ r.notes⟩)

/-- Registers a rule; one that is not in use is only taken away. -/
def register (g : Registry) (polls : Bool) (now : Moment) (r : Rule) : Registry × Logged Unit :=
  let g := g.unregister r.id
  if r.isActive then
    let g := g.enter r
    let (s, result) := arm polls now r.id r.enabledTriggers g.scheduler
    ({ g with scheduler := s }, result)
  else (g, pure ())

end Registry

end Rulebook
