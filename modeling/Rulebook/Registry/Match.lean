import Rulebook.Registry.Basic
/-!
# Which rules are meant

An event means the rules in use with an event trigger of a matching type whose filters all equal the
data. A call of a webhook means the rules whose first trigger for that webhook accepts the headers.
-/

namespace Rulebook

/-- Whether a single condition holds; it has to be valid. -/
def Condition.holdsAlone (field : String) (operator : Operator) (expected data : Value) :
    Logged Bool :=
  match (Condition.read "" (.object [("field", .text field), ("operator", .text operator.name),
      ("value", expected)])).toExcept with
  | .error issues => ⟨.error (.invalid issues), []⟩
  | .ok c => ⟨(Condition.allHold [c] data).mapError .number, Condition.notes data [c]⟩

namespace Trigger

/-- Whether data have the values that filters name. -/
def filtersHold (data : Value) : List (String × Value) → Logged Bool
  | [] => pure true
  | (field, expected) :: rest =>
    (Condition.holdsAlone field .equals expected data).bind fun holds =>
      if holds then filtersHold data rest else pure false

/-- Whether a trigger reacts to an event. -/
def acceptsEvent (t : Trigger) (eventType : String) (data : Value) : Logged Bool :=
  match t.source with
  | .event type =>
    if EventType.isMatch type eventType then filtersHold data t.filters else pure false
  | _ => pure false

/-- Whether headers carry the credentials that a trigger asks for. -/
def authorizes (t : Trigger) (headers : List (String × String)) : Bool :=
  match t.source with
  | .webhook w =>
    match Authentication.headers w.authentication with
    | .error _ => false
    | .ok expected =>
      expected.all fun (name, v) => ((headers.lookup (Text.lower name)).getD "") == v
  | _ => false

end Trigger

/-- Whether any of the triggers reacts to an event. -/
def acceptsEvent (eventType : String) (data : Value) : List Trigger → Logged Bool
  | [] => pure false
  | t :: rest =>
    (t.acceptsEvent eventType data).bind fun accepts =>
      if accepts then pure true else acceptsEvent eventType data rest

namespace Registry

/-- The rules among the given ones that react to an event. -/
def reactingTo (eventType : String) (data : Value) : List Rule → Logged (List Rule)
  | [] => pure []
  | r :: rest =>
    (acceptsEvent eventType data r.enabledTriggers).bind fun accepts =>
      (reactingTo eventType data rest).bind fun more =>
        pure (if accepts then r :: more else more)

/-- The rules that an event may concern, by the index. -/
def candidates (g : Registry) (eventType : String) : List Rule :=
  let ids := g.events.listed fun key => EventType.isMatch key eventType
  g.rules.filter fun r => ids.contains r.id

/-- The rules that an event means. -/
def forEvent (g : Registry) (eventType : String) (data : Fields) : Logged (List Rule) :=
  let normal := EventType.normalize eventType
  reactingTo normal (.object data) (g.candidates normal)

/-- Headers with names in lower case; of two of one name the last counts. -/
def lowerHeaders (headers : List (String × String)) : List (String × String) :=
  headers.foldl (fun hs (k, v) =>
    let name := Text.lower k
    if hs.any (·.1 == name) then hs.map fun h => if h.1 == name then (name, v) else h
    else hs ++ [(name, v)]) []

/-- The note about a call without the right credentials. -/
def unauthorizedNote (ruleId webhookId : String) : LogEntry :=
  ⟨.warning, "webhook.unauthorized", [("rule_id", .text ruleId), ("webhook_id", .text webhookId)]⟩

/-- The rules among the given ones that a call of a webhook means. -/
def calledBy (webhookId : String) (headers : List (String × String)) :
    List Rule → List LogEntry × List Rule
  | [] => ([], [])
  | r :: rest =>
    let (notes, more) := calledBy webhookId headers rest
    match r.enabledTriggers.find? fun t => t.webhookId? == some webhookId with
    | none => (notes, more)
    | some t =>
      if t.authorizes headers then (notes, r :: more)
      else (unauthorizedNote r.id webhookId :: notes, more)

/-- The rules that a call of a webhook means, and notes about those that refuse it. -/
def forWebhook (g : Registry) (webhookId : String) (headers : List (String × String)) :
    List LogEntry × List Rule :=
  let ids := g.webhooks.get webhookId
  calledBy webhookId headers (g.rules.filter fun r => ids.contains r.id)

/-- The headers that must not be kept. -/
def secretHeaders : List String := ["authorization", "x-api-key", "cookie"]

/-- The headers that may be kept. -/
def safeHeaders (headers : List (String × String)) : List (String × String) :=
  headers.filter fun h => !secretHeaders.contains h.1

end Registry

end Rulebook
