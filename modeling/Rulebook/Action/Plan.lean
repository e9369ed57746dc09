import Rulebook.Action.Service
import Rulebook.Json.Reader
import Rulebook.Template
/-!
# Plans of actions

To run an action is to make a plan from what it says and the data at hand, to make the calls of the
plan in order until one fails, and to sum up the last reply. A run may have to wait for a reply; it
then goes on from there.
-/

namespace Rulebook

/-- How the result of an action follows from the last reply. -/
inductive Summary where
  /-- It does not depend on it. -/
  | fixed (result : Fields)
  /-- The fields of the reply, with these set. -/
  | extended (more : Fields)
  /-- The same, but a reply that is nothing counts as no fields. -/
  | extendedOrEmpty (more : Fields)
  /-- The answer of a web address. -/
  | web (url : String)
  /-- The reply, or a sign of success if it is nothing. -/
  | orSuccess

/-- The calls of an action and how its result follows. -/
structure Plan where
  /-- The calls in order. -/
  calls : List ServiceCall
  /-- How the result follows. -/
  summary : Summary

/-- The name of the kind of a value. -/
def Value.kindName : Value → String
  | .null => "NoneType"
  | .bool _ => "bool"
  | .int _ => "int"
  | .float _ => "float"
  | .text _ => "str"
  | .moment _ => "datetime"
  | .list _ => "list"
  | .object _ => "dict"

namespace Summary

/-- The fields of a reply with further ones set. -/
def extend (v : Value) (more : Fields) : Outcome Value :=
  match v with
  | .object fs => .ok (.object (Fields.merge fs more))
  | v => .error (.notFields v.kindName)

/-- The most characters of an answer that is no JSON. -/
def bodyLength : Nat := 2000

/-- The result of an answer of a web address. -/
def ofResponse (url : String) (status : Int) (text : String) : Outcome Value :=
  let code := Decimal.intText status
  if status = 401 ∨ status = 403 then
    .error (.action ("Webhook unauthorized: " ++ url ++ " returned HTTP " ++ code) none)
  else if 400 ≤ status ∧ status ≤ 599 then
    .error (.action ("Webhook " ++ url ++ " returned HTTP " ++ code) none)
  else
    match Json.read text with
    | .ok (.object fs) => .ok (.object fs)
    | .ok v => .ok (.object [("status_code", .int status), ("data", v)])
    | .error _ =>
      .ok (.object [("status_code", .int status),
        ("body", .text (String.ofList (text.toList.take bodyLength)))])

/-- The result that follows from the last reply. -/
def conclude (s : Summary) (reply : ServiceReply) : Outcome Value :=
  match s, reply with
  | fixed result, _ => .ok (.object result)
  | extended more, .value v => extend v more
  | extendedOrEmpty more, .value v => extend (if v.isTruthy then v else .object []) more
  | orSuccess, .value v => .ok (if v.isTruthy then v else .object [("success", .bool true)])
  | web url, .response status text => ofResponse url status text
  | web url, .timedOut kind detail =>
    .error (.action ("Webhook timeout calling " ++ url ++ ": " ++ detail)
      (some (.outside kind detail)))
  | web url, .unreachable kind detail =>
    .error (.action ("Webhook network error calling " ++ url ++ ": " ++ detail)
      (some (.outside kind detail)))
  | _, _ => .ok .null

end Summary

/-- A run of an action that waits for a reply. -/
structure Waiting where
  /-- The calls after the one that is waited for. -/
  rest : List ServiceCall
  /-- How the result follows. -/
  summary : Summary
  /-- How long the reply takes, in microseconds. -/
  delay : Int
  /-- The reply. -/
  reply : Outcome ServiceReply

/-- How far a run of an action got. -/
inductive Attempt where
  /-- It is over. -/
  | over (result : Outcome Value)
  /-- It waits for a reply. -/
  | waits (w : Waiting)

/-- The end of a run with a result. -/
def Attempt.ended (r : Outcome Value) : Attempt := .over (r.mapError Failure.ofAction)

namespace Services

variable {σ : Type}

/-- Refuses to go on without a service. -/
def require (s : Services σ) (service : Service) : Outcome Unit :=
  if s.offers service then .ok ()
  else .error (.action ("No " ++ service.title ++ " configured") none)

/-- Fills in a template. -/
def fill (data : Fields) (template : String) : Outcome String :=
  (Template.render template (.object data)).mapError .number

/-- Fills in templates. -/
def fillAll (data : Fields) (templates : List String) : Outcome (List String) :=
  templates.mapM (fill data)

/-- Fills in the texts inside fields. -/
def fillFields (data fs : Fields) : Outcome Fields :=
  (Template.renderFields (.object data) fs).mapError .number

/-- The plan of a notification. -/
def planNotification (s : Services σ) (c : NotificationConfig) (data triggerData : Fields) :
    Outcome Plan := do
  s.require .notifications
  let scope := Fields.merge data (c.values.map fun (k, v) => (k, .text v))
  let message ← fill scope c.template
  let title ← match c.title with
    | none | some "" => .ok message
    | some t => fill scope t
  let recipients ← fillAll scope c.recipients
  let channel := Enumeration.name c.channel
  .ok ⟨recipients.map fun r => .notify r title message triggerData [channel],
    .fixed [("sent", .int recipients.length), ("recipients", .texts recipients),
      ("channel", .text channel)]⟩

/-- The plan of a mail. -/
def planMail (s : Services σ) (c : EmailConfig) (data : Fields) : Outcome Plan := do
  s.require .mail
  let receivers ← fillAll data c.receivers
  let subject ← fill data c.subject
  let body ← fill data c.body
  let cc ← fillAll data c.cc
  let bcc ← fillAll data c.bcc
  .ok ⟨[.sendMail receivers subject body cc bcc],
    .extendedOrEmpty [("sent", .bool true), ("to", .texts receivers), ("subject", .text subject)]⟩

/-- What is sent to a web address that is given no body. -/
def wholeBody (triggerData : Fields) (context : ExecutionContext) : String :=
  Json.print (.object [("trigger_data", .object triggerData), ("context", context.toValue)])

/-- Sets headers, in order. -/
def setHeaders (headers more : List (String × String)) : List (String × String) :=
  more.foldl (fun hs (k, v) =>
    if hs.any (·.1 == k) then hs.map fun h => if h.1 == k then (k, v) else h
    else hs ++ [(k, v)]) headers

/-- The plan of a call of a web address. -/
def planWeb (s : Services σ) (c : WebhookConfig) (data triggerData : Fields)
    (context : ExecutionContext) : Outcome Plan := do
  let body ← match c.body with
    | none | some "" => .ok (wholeBody triggerData context)
    | some t => fill data t
  let own ← c.headers.mapM fun (k, v) => (fill data v).map fun v => (k, v)
  let credentials ← (Authentication.headers c.authentication).mapError .authentication
  let url ← fill data c.url
  let headers := setHeaders (setHeaders [("Content-Type", "application/json")] own) credentials
  let content := if c.method = .get then none else some body
  let call := .callWeb c.method url headers content s.webTimeout
  .ok ⟨if s.opensWeb then [.openWeb s.webTimeout, call] else [call], .web url⟩

/-- The plan of an operation on a table. -/
def planTable (s : Services σ) (c : DatabaseConfig) (data : Fields) : Outcome Plan := do
  s.require .tables
  let values ← fillFields data c.data
  let conditions ← fillFields data c.conditions
  let call := match c.operation with
    | .insert => .insertRow c.table values
    | .update => .updateRows c.table values conditions
    | .delete => .deleteRows c.table conditions
    | .select => .selectRows c.table conditions
  .ok ⟨[call], .extended [("operation", .ofName c.operation), ("table", .text c.table)]⟩

/-- The plan of an operation on a file. -/
def planFile (s : Services σ) (c : FileConfig) (data : Fields) : Outcome Plan := do
  s.require .files
  let source ← fill data c.source
  let destination ← match c.destination with
    | none | some "" => .ok none
    | some t => (fill data t).map some
  let target := destination.getD ""
  let call := match c.operation with
    | .delete => .deleteFile source
    | .move => .moveFile source target
    | .copy => .copyFile source target
    | .rename => .renameFile source target
  .ok ⟨[call], .extended [("operation", .ofName c.operation), ("source", .text source),
    ("destination", .ofOption .text destination)]⟩

/-- The plan of a workflow. -/
def planWorkflow (s : Services σ) (c : WorkflowConfig) (data triggerData : Fields) :
    Outcome Plan := do
  s.require .workflows
  let values ← fillFields data c.data
  let assignees ← fillAll data c.assignTo
  .ok ⟨[.startWorkflow c.workflowId (Fields.merge values triggerData) assignees],
    .extended [("workflow_id", .text c.workflowId), ("started", .bool true)]⟩

/-- The plan of an assignment. -/
def planAssignment (s : Services σ) (c : AssignmentConfig) (data : Fields) : Outcome Plan := do
  s.require .assignments
  let entityId ← fill data c.entityId
  let assignees ← fillAll data c.assignTo.toList
  .ok ⟨[.assign entityId assignees c.kind c.priority c.dueDate],
    .extended [("assigned", .int assignees.length), ("assignees", .texts assignees),
      ("entity_id", .text entityId), ("assignment_type", .ofName c.kind)]⟩

/-- The plan of a script. -/
def planScript (s : Services σ) (c : CustomConfig) (data : Fields) : Outcome Plan := do
  s.require .scripts
  let parameters ← fillFields data c.parameters
  .ok ⟨[.runScript c.script c.language parameters], .orSuccess⟩

/-- The plan of an action. -/
def plan (s : Services σ) (c : ActionConfig) (triggerData : Fields) (context : ExecutionContext) :
    Outcome Plan :=
  let data := evaluationData triggerData (some context)
  match c with
  | .notification c => s.planNotification c data triggerData
  | .email c => s.planMail c data
  | .webhook c => s.planWeb c data triggerData context
  | .database c => s.planTable c data
  | .file c => s.planFile c data
  | .workflow c => s.planWorkflow c data triggerData
  | .assignment c => s.planAssignment c data
  | .custom c => s.planScript c data

/-- Makes calls in order after a reply, until one fails or has to be waited for. -/
def pursue (s : Services σ) (summary : Summary) : List ServiceCall → σ → ServiceReply → σ × Attempt
  | [], world, reply => (world, .ended (summary.conclude reply))
  | c :: rest, world, _ =>
    match s.serve world c with
    | (world, .now (.ok reply)) => s.pursue summary rest world reply
    | (world, .now (.error f)) => (world, .ended (.error f))
    | (world, .later delay reply) => (world, .waits ⟨rest, summary, delay, reply⟩)

/-- Runs an action. -/
def attempt (s : Services σ) (c : ActionConfig) (triggerData : Fields) (context : ExecutionContext)
    (world : σ) : σ × Attempt :=
  if s.handles c.kind then
    match s.plan c triggerData context with
    | .ok p => s.pursue p.summary p.calls world (.value .null)
    | .error f => (world, .ended (.error f))
  else (world, .over (.error (.unknownAction (Enumeration.name c.kind))))

/-- Goes on with a run when the reply that it waits for is there. -/
def resume (s : Services σ) (w : Waiting) (world : σ) : σ × Attempt :=
  match w.reply with
  | .ok reply => s.pursue w.summary w.rest world reply
  | .error f => (world, .ended (.error f))

end Services

end Rulebook
