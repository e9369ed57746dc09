import Rulebook.Condition.Basic
import Rulebook.Rule.Authentication
/-!
# Triggers

What starts a rule: an event of a type, a schedule, a call of a webhook, a condition that is polled,
or nothing but a manual call.
-/

namespace Rulebook

instance : Enumeration Operator where
  members := Operator.all
  name := Operator.name

instance : Enumeration Connective where
  members := [.and, .or]
  name := Connective.name

/-- The kinds of schedules. -/
inductive ScheduleKind where
  /-- A cron expression. -/
  | cron
  /-- A length of time between runs. -/
  | interval
deriving DecidableEq, Repr

instance : Enumeration ScheduleKind where
  members := [.cron, .interval]
  name
    | .cron => "cron"
    | .interval => "interval"

/-- When a rule runs. -/
structure Schedule where
  /-- How the expression is read. -/
  kind : ScheduleKind
  /-- The cron expression or the interval. -/
  expression : String
  /-- The time zone of a cron expression. -/
  timezone : String
deriving DecidableEq, Repr

/-- The methods of HTTP requests. -/
inductive HttpMethod where
  /-- Reading. -/
  | get
  /-- Posting. -/
  | post
  /-- Replacing. -/
  | put
  /-- Deleting. -/
  | delete
  /-- Changing. -/
  | patch
deriving DecidableEq, Repr

instance : Enumeration HttpMethod where
  members := [.get, .post, .put, .delete, .patch]
  name
    | .get => "GET"
    | .post => "POST"
    | .put => "PUT"
    | .delete => "DELETE"
    | .patch => "PATCH"

/-- An inbound webhook. -/
structure WebhookEndpoint where
  /-- Its identifier, if not that of the trigger. -/
  webhookId : Option String
  /-- Its address. -/
  url : Option String
  /-- The method that callers use. -/
  method : HttpMethod
  /-- Headers that callers send. -/
  headers : List (String × String)
  /-- The credentials that callers have to present. -/
  authentication : Option Authentication

/-- A condition that is checked from time to time. -/
structure Polling where
  /-- The path of the field. -/
  field : String
  /-- The comparison. -/
  operator : Operator
  /-- What the field is compared with. -/
  value : Value
  /-- The minutes between checks. -/
  checkInterval : Int

/-- What a trigger reacts to. -/
inductive TriggerSource where
  /-- Events of a type, which may hold wildcards. -/
  | event (eventType : String)
  /-- A schedule. -/
  | schedule (s : Schedule)
  /-- Calls of a webhook. -/
  | webhook (w : WebhookEndpoint)
  /-- A polled condition. -/
  | condition (p : Polling)
  /-- Manual calls only. -/
  | manual

/-- A trigger of a rule. -/
structure Trigger where
  /-- Its identifier. -/
  id : String
  /-- Its name. -/
  name : String
  /-- Whether it is in use. -/
  enabled : Bool
  /-- Paths and the values that an event has to have there. -/
  filters : Fields
  /-- What it reacts to. -/
  source : TriggerSource

namespace Trigger

/-- The identifier under which a webhook is called: its own, unless that is empty, or that of the
trigger. -/
def webhookId? (t : Trigger) : Option String :=
  match t.source with
  | .webhook w =>
    match w.webhookId with
    | some id => some (if id.isEmpty then t.id else id)
    | none => some t.id
  | _ => none

/-- The names of the kinds of triggers. -/
def kindName (t : Trigger) : String :=
  match t.source with
  | .event _ => "event"
  | .schedule _ => "schedule"
  | .webhook _ => "webhook"
  | .condition _ => "condition"
  | .manual => "manual"

end Trigger

namespace Schedule

/-- Reads a schedule. -/
def read : Schema Schedule := Schema.model "ScheduleConfig" fun fs =>
  Schedule.mk
    <$> Schema.required fs "type" Schema.named
    <*> Schema.required fs "expression" (Schema.textOfLength 1 (some 120))
    <*> Schema.defaulted fs "timezone" Schema.text "UTC"

/-- The payload of a schedule. -/
def toValue (s : Schedule) : Value :=
  .object [("type", .ofName s.kind), ("expression", .text s.expression),
    ("timezone", .text s.timezone)]

end Schedule

namespace WebhookEndpoint

/-- The endpoint without any particulars. -/
def plain : WebhookEndpoint := ⟨none, none, .post, [], none⟩

/-- Reads an endpoint. -/
def read : Schema WebhookEndpoint := Schema.model "WebhookTriggerConfig" fun fs =>
  WebhookEndpoint.mk
    <$> Schema.defaulted fs "webhook_id" (Schema.optional Schema.text) none
    <*> Schema.defaulted fs "url" (Schema.optional Schema.text) none
    <*> Schema.defaulted fs "method" Schema.named .post
    <*> Schema.defaulted fs "headers" Schema.textFields []
    <*> Schema.defaulted fs "authentication" (Schema.optional Authentication.read) none

/-- The payload of an endpoint. -/
def toValue (w : WebhookEndpoint) : Value :=
  .object [("webhook_id", .ofOption .text w.webhookId), ("url", .ofOption .text w.url),
    ("method", .ofName w.method), ("headers", .ofTextFields w.headers),
    ("authentication", .ofOption Authentication.toValue w.authentication)]

end WebhookEndpoint

namespace Polling

/-- Reads a polled condition. -/
def read : Schema Polling := Schema.model "PollingCondition" fun fs =>
  Polling.mk
    <$> Schema.required fs "field" (Schema.textOfLength 1 (some 200))
    <*> Schema.defaulted fs "operator" Schema.named .equals
    <*> Schema.defaulted fs "value" Schema.any .null
    <*> Schema.defaulted fs "check_interval" (Schema.intBetween 1 none) 5

/-- The payload of a polled condition. -/
def toValue (p : Polling) : Value :=
  .object [("field", .text p.field), ("operator", .ofName p.operator), ("value", p.value),
    ("check_interval", .int p.checkInterval)]

end Polling

namespace Trigger

/-- Reads the parts that all triggers have; `fresh` is the identifier if none is given. -/
def readWith (fresh : String) (fs : Fields) (source : Checked TriggerSource) : Checked Trigger :=
  Trigger.mk
    <$> Schema.defaulted fs "id" Schema.text fresh
    <*> Schema.defaulted fs "name" Schema.text ""
    <*> Schema.defaulted fs "enabled" Schema.bool true
    <*> Schema.defaulted fs "filters" Schema.object []
    <*> source

/-- Reads what a trigger of the given kind reacts to. -/
def readSource (kind : String) (fs : Fields) (source : Checked TriggerSource) :
    Checked TriggerSource :=
  (fun _ s => s) <$> Schema.defaulted fs "type" (Schema.constant kind) () <*> source

/-- The readers of the kinds of triggers. -/
def variants (fresh : String) : List (String × (Fields → Checked Trigger)) :=
  let variant (kind : String) (source : Fields → Checked TriggerSource) :=
    (kind, fun fs => readWith fresh fs (readSource kind fs (source fs)))
  [variant "event" fun fs =>
      TriggerSource.event <$> Schema.required fs "event_type" (Schema.textOfLength 1 (some 120)),
    variant "schedule" fun fs => TriggerSource.schedule <$> Schema.required fs "schedule" Schedule.read,
    variant "webhook" fun fs =>
      TriggerSource.webhook <$> Schema.defaulted fs "webhook" WebhookEndpoint.read .plain,
    variant "condition" fun fs =>
      TriggerSource.condition <$> Schema.required fs "condition" Polling.read,
    variant "manual" fun _ => .valid .manual]

/-- Reads a trigger. -/
def read (fresh : String) : Schema Trigger := Schema.tagged (variants fresh)

/-- The field of a payload that holds what the trigger reacts to. -/
def sourceFields : TriggerSource → Fields
  | .event e => [("event_type", .text e)]
  | .schedule s => [("schedule", s.toValue)]
  | .webhook w => [("webhook", w.toValue)]
  | .condition p => [("condition", p.toValue)]
  | .manual => []

/-- The payload of a trigger. -/
def toValue (t : Trigger) : Value :=
  .object ([("id", .text t.id), ("name", .text t.name), ("enabled", .bool t.enabled),
    ("filters", .object t.filters), ("type", .text t.kindName)] ++ sourceFields t.source)

end Trigger

namespace Condition

/-- Reads a condition; `fresh` is the identifier if none is given. -/
def read (fresh : String) : Schema Condition := Schema.model "Condition" fun fs =>
  Condition.mk
    <$> Schema.defaulted fs "id" Schema.text fresh
    <*> Schema.required fs "field" (Schema.textOfLength 1 (some 200))
    <*> Schema.defaulted fs "operator" Schema.named .equals
    <*> Schema.defaulted fs "value" Schema.any .null
    <*> Schema.defaulted fs "logical_operator" Schema.named .and
    <*> Schema.defaulted fs "group" (Schema.optional Schema.text) none

/-- The payload of a condition. -/
def toValue (c : Condition) : Value :=
  .object [("id", .text c.id), ("field", .text c.field), ("operator", .ofName c.operator),
    ("value", c.value), ("logical_operator", .ofName c.connective),
    ("group", .ofOption .text c.group)]

end Condition

end Rulebook
