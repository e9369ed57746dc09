import Rulebook.Execution.Basic
import Rulebook.Failure
/-!
# Services

What actions ask of the world outside: a call says what is asked, a reply what came of it. A service
may reply at once or after a time.
-/

namespace Rulebook

/-- The services that may be there or not. -/
inductive Service where
  /-- Sends notifications. -/
  | notifications
  /-- Sends mail. -/
  | mail
  /-- Keeps tables. -/
  | tables
  /-- Keeps files. -/
  | files
  /-- Runs workflows. -/
  | workflows
  /-- Assigns work. -/
  | assignments
  /-- Runs scripts. -/
  | scripts
deriving DecidableEq, Repr

/-- How messages call a service. -/
def Service.title : Service → String
  | .notifications => "notification sender"
  | .mail => "email sender"
  | .tables => "data store"
  | .files => "file store"
  | .workflows => "workflow store"
  | .assignments => "assignment store"
  | .scripts => "custom action invoker"

/-- The services by the names that payloads give them. -/
def Service.names : List (String × Service) :=
  [("notifications", .notifications), ("email", .mail), ("data", .tables), ("files", .files),
    ("workflows", .workflows), ("assignments", .assignments), ("custom", .scripts)]

/-- What an action asks for. -/
inductive ServiceCall where
  /-- Notify a user. -/
  | notify (userId title message : String) (data : Fields) (channels : List String)
  /-- Send a mail. -/
  | sendMail (receivers : List String) (subject body : String) (cc bcc : List String)
  /-- Open a connection to the web; the time limit is in seconds. -/
  | openWeb (timeout : Value)
  /-- Call a web address. -/
  | callWeb (method : HttpMethod) (url : String) (headers : List (String × String))
      (content : Option String) (timeout : Value)
  /-- Add a row to a table. -/
  | insertRow (table : String) (data : Fields)
  /-- Change the rows of a table that meet conditions. -/
  | updateRows (table : String) (data conditions : Fields)
  /-- Remove the rows of a table that meet conditions. -/
  | deleteRows (table : String) (conditions : Fields)
  /-- Read the rows of a table that meet conditions. -/
  | selectRows (table : String) (conditions : Fields)
  /-- Move a file. -/
  | moveFile (source destination : String)
  /-- Copy a file. -/
  | copyFile (source destination : String)
  /-- Delete a file. -/
  | deleteFile (source : String)
  /-- Give a file another name. -/
  | renameFile (source destination : String)
  /-- Start a workflow. -/
  | startWorkflow (workflowId : String) (data : Fields) (assignees : List String)
  /-- Assign work. -/
  | assign (entityId : String) (assignees : List String) (kind : AssignmentKind)
      (priority : Urgency) (dueDate : Option Moment)
  /-- Run a script. -/
  | runScript (script : String) (language : ScriptLanguage) (parameters : Fields)

namespace ServiceCall

/-- The name of the service that a call is for, and what the call says. -/
def parts : ServiceCall → String × Fields
  | notify userId title message data channels =>
    ("notifications", [("user_id", .text userId), ("title", .text title),
      ("message", .text message), ("data", .object data), ("channels", .texts channels)])
  | sendMail receivers subject body cc bcc =>
    ("email", [("to", .texts receivers), ("subject", .text subject), ("body", .text body),
      ("cc", .texts cc), ("bcc", .texts bcc)])
  | openWeb timeout => ("http_client", [("timeout", timeout)])
  | callWeb method url headers content timeout =>
    ("http", [("method", .ofName method), ("url", .text url), ("headers", .ofTextFields headers),
      ("content", .ofOption .text content), ("timeout", timeout)])
  | insertRow table data =>
    ("data", [("method", .text "insert"), ("table", .text table), ("data", .object data)])
  | updateRows table data conditions =>
    ("data", [("method", .text "update"), ("table", .text table), ("data", .object data),
      ("conditions", .object conditions)])
  | deleteRows table conditions =>
    ("data", [("method", .text "delete"), ("table", .text table),
      ("conditions", .object conditions)])
  | selectRows table conditions =>
    ("data", [("method", .text "select"), ("table", .text table),
      ("conditions", .object conditions)])
  | moveFile source destination =>
    ("files", [("method", .text "move"), ("source", .text source),
      ("destination", .text destination)])
  | copyFile source destination =>
    ("files", [("method", .text "copy"), ("source", .text source),
      ("destination", .text destination)])
  | deleteFile source => ("files", [("method", .text "delete"), ("source", .text source)])
  | renameFile source destination =>
    ("files", [("method", .text "rename"), ("source", .text source),
      ("destination", .text destination)])
  | startWorkflow workflowId data assignees =>
    ("workflows", [("workflow_id", .text workflowId), ("data", .object data),
      ("assignees", .texts assignees)])
  | assign entityId assignees kind priority dueDate =>
    ("assignments", [("entity_id", .text entityId), ("assignees", .texts assignees),
      ("assignment_type", .ofName kind), ("priority", .ofName priority),
      ("due_date", .ofOption .moment dueDate)])
  | runScript script language parameters =>
    ("custom", [("script", .text script), ("language", .ofName language),
      ("parameters", .object parameters)])

/-- The payload of a call. -/
def toValue (c : ServiceCall) : Value := .object (("target", .text c.parts.1) :: c.parts.2)

end ServiceCall

/-- What came of a call. -/
inductive ServiceReply where
  /-- A value. -/
  | value (v : Value)
  /-- The answer of a web address. -/
  | response (status : Int) (text : String)
  /-- A web address did not answer in time. -/
  | timedOut (kind detail : String)
  /-- A web address could not be reached. -/
  | unreachable (kind detail : String)

/-- When a call is answered. -/
inductive Answer where
  /-- At once. -/
  | now (reply : Outcome ServiceReply)
  /-- After a time in microseconds. -/
  | later (delay : Int) (reply : Outcome ServiceReply)

/-- The services of a runner of actions; their state is of type `σ`. -/
structure Services (σ : Type) where
  /-- Which services are there. -/
  offers : Service → Bool
  /-- Which kinds of actions can be run. -/
  handles : ActionKind → Bool
  /-- Whether each call of a web address opens a connection of its own. -/
  opensWeb : Bool
  /-- The seconds that a web address may take. -/
  webTimeout : Value
  /-- Answers a call. -/
  serve : σ → ServiceCall → σ × Answer
  /-- Takes the reading of a rule's polled condition; `none` if conditions cannot be polled. -/
  source : Option (σ → Rule → σ × Outcome (Option Fields))

end Rulebook
