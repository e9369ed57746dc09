import Rulebook.Execution.Basic
import Rulebook.Registry.Match
/-!
# Dispatch

Rules that are meant by an event, a webhook or a due job are executed one after another, those of
higher priority first; what one of them does wrong does not keep the others from their turn. Where
an execution has to be waited for, what remains to be done is an errand, which goes on when the
execution has ended.
-/

namespace Rulebook

/-- On what occasion rules are executed. -/
structure Occasion where
  /-- The data. -/
  data : Fields
  /-- The circumstances. -/
  context : ExecutionContext
  /-- What started them. -/
  triggeredBy : String

namespace Occasion

/-- The occasion of an event. -/
def ofEvent (eventType : String) (data : Fields) (context : ExecutionContext) : Occasion :=
  let triggeredBy := "event:" ++ eventType
  ⟨data, context.withMetadata "triggered_by" (.text triggeredBy), triggeredBy⟩

/-- The occasion of a call of a webhook. -/
def ofWebhook (webhookId : String) (data : Fields) (headers : List (String × String)) : Occasion :=
  let triggeredBy := "webhook:" ++ webhookId
  let context := { ExecutionContext.empty with
    metadata := [("triggered_by", .text triggeredBy),
      ("headers", .ofTextFields (Registry.safeHeaders headers))] }
  ⟨data, context, triggeredBy⟩

/-- The occasion of a job. -/
def ofJob (source : String) (triggerId : String) (data : Fields) : Occasion :=
  let triggeredBy := source ++ ":" ++ triggerId
  ⟨data, ExecutionContext.empty.withMetadata "triggered_by" (.text triggeredBy), triggeredBy⟩

end Occasion

/-- How an execution that was asked for began. -/
inductive Launch where
  /-- It is over already: its identifier, or why there is none. -/
  | ended (result : Outcome String)
  /-- It goes on under the identifier. -/
  | underway (executionId : String)

/-- Where rules are executed; the state is of type `σ`. -/
structure Host (σ : Type) where
  /-- The registry. -/
  registry : σ → Registry
  /-- The state with another scheduler. -/
  schedule : σ → Scheduler → σ
  /-- The state with further notes. -/
  note : σ → List LogEntry → σ
  /-- Executes a rule. -/
  execute : σ → String → Occasion → σ × Launch
  /-- Takes the reading of a rule's polled condition; `none` if conditions cannot be polled. -/
  source : Option (σ → Rule → σ × Outcome (Option Fields))

/-- What remains to be done when an execution has ended. -/
structure Errand where
  /-- The rules still to be executed. -/
  rules : List Rule
  /-- On what occasion. -/
  occasion : Occasion
  /-- The due jobs after that. -/
  jobs : List Job
  /-- The executions so far. -/
  ids : List String

/-- How far a dispatch got. -/
inductive Progress where
  /-- It is done; these are the executions. -/
  | finished (ids : List String)
  /-- It waits for the execution of a rule. -/
  | waits (executionId : String) (rule : Rule) (rest : Errand)

namespace Host

variable {σ : Type}

/-- The note about a rule that ran too often. -/
def limitedNote (ruleId triggeredBy : String) (f : Failure) : LogEntry :=
  ⟨.warning, "dispatch.rate_limited",
    [("rule_id", .text ruleId), ("triggered_by", .text triggeredBy), ("reason", .text f.message)]⟩

/-- The note about a rule that failed. -/
def failedNote (ruleId triggeredBy : String) (f : Failure) : LogEntry :=
  ⟨.error, "dispatch.rule_failed",
    [("rule_id", .text ruleId), ("triggered_by", .text triggeredBy), ("error", .text f.message)]⟩

/-- What the end of an execution adds to a dispatch: its identifier, or a note. -/
def tally (ruleId triggeredBy : String) : Outcome String → List String × List LogEntry
  | .ok id => ([id], [])
  | .error (.rateLimited reason id) =>
    (id.toList.filter (!·.isEmpty), [limitedNote ruleId triggeredBy (.rateLimited reason id)])
  | .error f => ([], [failedNote ruleId triggeredBy f])

/-- Executes rules in order until one has to be waited for. -/
def serve (h : Host σ) (o : Occasion) (jobs : List Job) :
    List Rule → σ → List String → σ × Progress
  | [], s, ids => (s, .finished ids)
  | r :: rest, s, ids =>
    if r.isActive then
      match h.execute s r.id o with
      | (s, .underway id) => (s, .waits id r ⟨rest, o, jobs, ids⟩)
      | (s, .ended result) =>
        let (more, notes) := tally r.id o.triggeredBy result
        h.serve o jobs rest (h.note s notes) (ids ++ more)
    else h.serve o jobs rest s ids

/-- Rules of higher priority first; those of equal priority stay as they are. -/
def byPriority (rules : List Rule) : List Rule :=
  rules.mergeSort fun a b => b.priority ≤ a.priority

/-- Executes rules on an occasion. -/
def dispatch (h : Host σ) (o : Occasion) (rules : List Rule) (s : σ) : σ × Progress :=
  h.serve o [] (byPriority rules) s []

/-- The polled condition of a trigger in use. -/
def polling? (r : Rule) (triggerId : String) : Option Polling :=
  r.enabledTriggers.findSome? fun t =>
    match t.source with
    | .condition p => if t.id == triggerId then some p else none
    | _ => none

/-- The data of a polled condition if it holds. -/
def poll (h : Host σ) (r : Rule) (triggerId : String) (s : σ) : σ × Logged (Option Fields) :=
  match polling? r triggerId, h.source with
  | some p, some reading =>
    match reading s r with
    | (s, .error f) => (s, ⟨.error f, []⟩)
    | (s, .ok none) => (s, pure none)
    | (s, .ok (some data)) =>
      (s, (Condition.holdsAlone p.field p.operator p.value (.object data)).bind fun holds =>
        pure (if holds then some data else none))
  | _, _ => (s, pure none)

/-- The occasion of a due job, unless its condition does not hold. -/
def occasion (h : Host σ) (j : Job) (r : Rule) (s : σ) : σ × Logged (Option Occasion) :=
  if j.kind = "condition" then
    let (s, data) := h.poll r j.triggerId s
    (s, data.bind fun data => pure (data.map (Occasion.ofJob "condition" j.triggerId)))
  else (s, pure (some (.ofJob "schedule" j.triggerId [])))

/-- The note about a condition that could not be polled. -/
def pollNote (ruleId triggerId : String) (f : Failure) : LogEntry :=
  ⟨.error, "trigger.poll_failed",
    [("rule_id", .text ruleId), ("trigger_id", .text triggerId), ("error", .text f.message)]⟩

/-- Fires due jobs in order until the execution of a rule has to be waited for. -/
def fire (h : Host σ) : List Job → σ → List String → σ × Progress
  | [], s, ids => (s, .finished ids)
  | j :: rest, s, ids =>
    match (h.registry s).rule? j.ruleId with
    | none => h.fire rest s ids
    | some r =>
      let (s, o) := h.occasion j r s
      let s := h.note s o.notes
      match o.outcome with
      | .error f => h.fire rest (h.note s [pollNote r.id j.triggerId f]) ids
      | .ok none => h.fire rest s ids
      | .ok (some o) =>
        match h.serve o rest [r] s ids with
        | (s, .finished ids) => h.fire rest s ids
        | waiting => waiting

/-- Goes on with an errand when the execution that it waited for has ended. -/
def resume (h : Host σ) (r : Rule) (result : Outcome String) (e : Errand) (s : σ) : σ × Progress :=
  let (more, notes) := tally r.id e.occasion.triggeredBy result
  match h.serve e.occasion e.jobs e.rules (h.note s notes) (e.ids ++ more) with
  | (s, .finished ids) => h.fire e.jobs s ids
  | waiting => waiting

/-- Fires the jobs that are due. -/
def tick (h : Host σ) (now : Moment) (s : σ) : σ × Outcome Progress :=
  let report := (h.registry s).scheduler.due now
  let s := h.note (h.schedule s ⟨report.jobs⟩) report.notes
  match report.due with
  | .error f => (s, .error f)
  | .ok jobs =>
    let (s, p) := h.fire jobs s []
    (s, .ok p)

/-- Executes the rules that an event means. -/
def event (h : Host σ) (eventType : String) (data : Fields) (context : ExecutionContext) (s : σ) :
    σ × Outcome Progress :=
  let meant := (h.registry s).forEvent eventType data
  let s := h.note s meant.notes
  match meant.outcome with
  | .error f => (s, .error f)
  | .ok rules =>
    let (s, p) := h.dispatch (.ofEvent eventType data context) rules s
    (s, .ok p)

/-- Executes the rules that a call of a webhook means. -/
def webhook (h : Host σ) (webhookId : String) (data : Fields) (headers : List (String × String))
    (s : σ) : σ × Progress :=
  let headers := Registry.lowerHeaders headers
  let (notes, rules) := (h.registry s).forWebhook webhookId headers
  h.dispatch (.ofWebhook webhookId data headers) rules (h.note s notes)

end Host

end Rulebook
