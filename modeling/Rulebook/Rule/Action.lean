import Rulebook.Rule.Trigger
/-!
# Actions

What a rule does: send notifications or mail, call a web address, change a table, handle a file,
start a workflow, assign work, or run a script.
-/

namespace Rulebook

/-- The ways of a notification. -/
inductive Channel where
  /-- Mail. -/
  | email
  /-- Text message. -/
  | sms
  /-- Push message. -/
  | push
  /-- Chat. -/
  | slack
  /-- Inside the application. -/
  | inApp
deriving DecidableEq, Repr

instance : Enumeration Channel where
  members := [.email, .sms, .push, .slack, .inApp]
  name
    | .email => "email"
    | .sms => "sms"
    | .push => "push"
    | .slack => "slack"
    | .inApp => "in_app"

/-- A notification to send. -/
structure NotificationConfig where
  /-- The way it goes. -/
  channel : Channel
  /-- Templates of the receivers. -/
  recipients : List String
  /-- Template of the message. -/
  template : String
  /-- Template of the title. -/
  title : Option String
  /-- Variables for the templates. -/
  values : List (String × String)

/-- A mail to send. -/
structure EmailConfig where
  /-- Templates of the receivers. -/
  receivers : List String
  /-- Templates of the receivers of copies. -/
  cc : List String
  /-- Templates of the receivers of blind copies. -/
  bcc : List String
  /-- Template of the subject. -/
  subject : String
  /-- Template of the body. -/
  body : String
  /-- Names of attachments. -/
  attachments : List String

/-- A web address to call. -/
structure WebhookConfig where
  /-- Template of the address. -/
  url : String
  /-- The method. -/
  method : HttpMethod
  /-- Headers with templates of their values. -/
  headers : List (String × String)
  /-- Template of the body. -/
  body : Option String
  /-- The credentials to present. -/
  authentication : Option Authentication

/-- What is done to a table. -/
inductive TableOperation where
  /-- Add a row. -/
  | insert
  /-- Change rows. -/
  | update
  /-- Remove rows. -/
  | delete
  /-- Read rows. -/
  | select
deriving DecidableEq, Repr

instance : Enumeration TableOperation where
  members := [.insert, .update, .delete, .select]
  name
    | .insert => "insert"
    | .update => "update"
    | .delete => "delete"
    | .select => "select"

/-- An operation on a table. -/
structure DatabaseConfig where
  /-- What is done. -/
  operation : TableOperation
  /-- The table. -/
  table : String
  /-- The values to write. -/
  data : Fields
  /-- The values by which rows are chosen. -/
  conditions : Fields

/-- What is done to a file. -/
inductive FileOperation where
  /-- Move it. -/
  | move
  /-- Copy it. -/
  | copy
  /-- Delete it. -/
  | delete
  /-- Give it another name in its directory. -/
  | rename
deriving DecidableEq, Repr

instance : Enumeration FileOperation where
  members := [.move, .copy, .delete, .rename]
  name
    | .move => "move"
    | .copy => "copy"
    | .delete => "delete"
    | .rename => "rename"

/-- An operation on a file. -/
structure FileConfig where
  /-- What is done. -/
  operation : FileOperation
  /-- Template of the file's path. -/
  source : String
  /-- Template of the path to move or copy to, or of the new name. -/
  destination : Option String
  /-- Further options. -/
  options : Fields

/-- A workflow to start. -/
structure WorkflowConfig where
  /-- Its identifier. -/
  workflowId : String
  /-- Data for it. -/
  data : Fields
  /-- Templates of the users it is assigned to. -/
  assignTo : List String

/-- The users to whom work is assigned: one, or a list. -/
inductive Assignees where
  /-- One user. -/
  | one (user : String)
  /-- A list of users. -/
  | many (users : List String)
deriving DecidableEq, Repr

/-- The users in order. -/
def Assignees.toList : Assignees → List String
  | .one u => [u]
  | .many l => l

/-- What is assigned. -/
inductive AssignmentKind where
  /-- A file. -/
  | file
  /-- A project. -/
  | project
  /-- A review. -/
  | qcReview
  /-- A form. -/
  | form
deriving DecidableEq, Repr

instance : Enumeration AssignmentKind where
  members := [.file, .project, .qcReview, .form]
  name
    | .file => "file"
    | .project => "project"
    | .qcReview => "qc_review"
    | .form => "form"

/-- How urgent an assignment is. -/
inductive Urgency where
  /-- Low. -/
  | low
  /-- Medium. -/
  | medium
  /-- High. -/
  | high
  /-- Urgent. -/
  | urgent
deriving DecidableEq, Repr

instance : Enumeration Urgency where
  members := [.low, .medium, .high, .urgent]
  name
    | .low => "low"
    | .medium => "medium"
    | .high => "high"
    | .urgent => "urgent"

/-- Work to assign. -/
structure AssignmentConfig where
  /-- Templates of the users. -/
  assignTo : Assignees
  /-- What is assigned. -/
  kind : AssignmentKind
  /-- Template of its identifier. -/
  entityId : String
  /-- How urgent it is. -/
  priority : Urgency
  /-- When it is due. -/
  dueDate : Option Moment

/-- The languages of scripts. -/
inductive ScriptLanguage where
  /-- JavaScript. -/
  | javascript
  /-- Python. -/
  | python
  /-- The shell. -/
  | bash
  /-- Another language. -/
  | other (name : String)
deriving DecidableEq, Repr

instance : Enumeration ScriptLanguage where
  members := [.javascript, .python, .bash]
  name
    | .javascript => "javascript"
    | .python => "python"
    | .bash => "bash"
    | .other name => name

/-- The language of that name. -/
def ScriptLanguage.ofName (name : String) : ScriptLanguage :=
  ((Enumeration.members : List ScriptLanguage).find? fun l => Enumeration.name l == name).getD
    (.other name)

/-- A script to run. -/
structure CustomConfig where
  /-- Its text. -/
  script : String
  /-- Its language. -/
  language : ScriptLanguage
  /-- Its parameters. -/
  parameters : Fields

/-- The kinds of actions. -/
inductive ActionKind where
  /-- Notification. -/
  | notification
  /-- Mail. -/
  | email
  /-- Call of a web address. -/
  | webhook
  /-- Operation on a table. -/
  | database
  /-- Operation on a file. -/
  | fileOperation
  /-- Workflow. -/
  | workflow
  /-- Assignment. -/
  | assignment
  /-- Script. -/
  | custom
deriving DecidableEq, Repr

instance : Enumeration ActionKind where
  members := [.notification, .email, .webhook, .database, .fileOperation, .workflow, .assignment,
    .custom]
  name
    | .notification => "notification"
    | .email => "email"
    | .webhook => "webhook"
    | .database => "database"
    | .fileOperation => "file_operation"
    | .workflow => "workflow"
    | .assignment => "assignment"
    | .custom => "custom"

/-- The kind of that name. -/
def ActionKind.ofName? (name : String) : Option ActionKind :=
  (Enumeration.members : List ActionKind).find? fun k => Enumeration.name k == name

/-- What an action does. -/
inductive ActionConfig where
  /-- Sends a notification. -/
  | notification (c : NotificationConfig)
  /-- Sends mail. -/
  | email (c : EmailConfig)
  /-- Calls a web address. -/
  | webhook (c : WebhookConfig)
  /-- Works on a table. -/
  | database (c : DatabaseConfig)
  /-- Works on a file. -/
  | file (c : FileConfig)
  /-- Starts a workflow. -/
  | workflow (c : WorkflowConfig)
  /-- Assigns work. -/
  | assignment (c : AssignmentConfig)
  /-- Runs a script. -/
  | custom (c : CustomConfig)

/-- The kind of an action. -/
def ActionConfig.kind : ActionConfig → ActionKind
  | .notification _ => .notification
  | .email _ => .email
  | .webhook _ => .webhook
  | .database _ => .database
  | .file _ => .fileOperation
  | .workflow _ => .workflow
  | .assignment _ => .assignment
  | .custom _ => .custom

/-- An action of a rule. -/
structure Action where
  /-- Its identifier. -/
  id : String
  /-- Its name. -/
  name : String
  /-- Its place among the actions of the rule. -/
  order : Int
  /-- Whether it is in use. -/
  enabled : Bool
  /-- Whether later actions run if it fails. -/
  continueOnError : Bool
  /-- What it does. -/
  config : ActionConfig

/-- The name of the action, or of its kind if it has none. -/
def Action.displayName (a : Action) : String :=
  if a.name.isEmpty then Enumeration.name a.config.kind else a.name

/-! ### Reading -/

/-- Reads a notification. -/
def NotificationConfig.read : Schema NotificationConfig :=
  Schema.model "NotificationConfig" fun fs =>
    NotificationConfig.mk
      <$> Schema.defaulted fs "type" Schema.named .inApp
      <*> Schema.required fs "recipients" (Schema.listOfAtLeast 1 fun _ => Schema.text)
      <*> Schema.required fs "template" (Schema.textOfLength 1 none)
      <*> Schema.defaulted fs "title" (Schema.optional Schema.text) none
      <*> Schema.defaulted fs "variables" Schema.textFields []

/-- Reads a mail. -/
def EmailConfig.read : Schema EmailConfig := Schema.model "EmailConfig" fun fs =>
  EmailConfig.mk
    <$> Schema.required fs "to" (Schema.listOfAtLeast 1 fun _ => Schema.text)
    <*> Schema.defaulted fs "cc" Schema.texts []
    <*> Schema.defaulted fs "bcc" Schema.texts []
    <*> Schema.required fs "subject" Schema.text
    <*> Schema.required fs "body" Schema.text
    <*> Schema.defaulted fs "attachments" Schema.texts []

/-- Reads a call of a web address. -/
def WebhookConfig.read : Schema WebhookConfig := Schema.model "WebhookActionConfig" fun fs =>
  WebhookConfig.mk
    <$> Schema.required fs "url" (Schema.textOfLength 1 none)
    <*> Schema.defaulted fs "method" Schema.named .post
    <*> Schema.defaulted fs "headers" Schema.textFields []
    <*> Schema.defaulted fs "body" (Schema.optional Schema.text) none
    <*> Schema.defaulted fs "authentication" (Schema.optional Authentication.read) none

/-- Reads an operation on a table. -/
def DatabaseConfig.read : Schema DatabaseConfig := Schema.model "DatabaseConfig" fun fs =>
  DatabaseConfig.mk
    <$> Schema.required fs "operation" Schema.named
    <*> Schema.required fs "table" (Schema.textOfLength 1 (some 120))
    <*> Schema.defaulted fs "data" Schema.object []
    <*> Schema.defaulted fs "conditions" Schema.object []

/-- An operation other than deletion needs a destination. -/
def FileConfig.check (c : FileConfig) : Checked FileConfig :=
  if c.operation ≠ .delete ∧ (c.destination.getD "").isEmpty then
    .fail (.rule ("File " ++ Enumeration.name c.operation ++ " requires a destination"))
  else .valid c

/-- Reads an operation on a file. -/
def FileConfig.read : Schema FileConfig := Schema.model "FileConfig" fun fs =>
  (FileConfig.mk
    <$> Schema.required fs "operation" Schema.named
    <*> Schema.required fs "source" (Schema.textOfLength 1 none)
    <*> Schema.defaulted fs "destination" (Schema.optional Schema.text) none
    <*> Schema.defaulted fs "options" Schema.object []).andThen FileConfig.check

/-- Reads a workflow. -/
def WorkflowConfig.read : Schema WorkflowConfig := Schema.model "WorkflowConfig" fun fs =>
  WorkflowConfig.mk
    <$> Schema.required fs "workflow_id" (Schema.textOfLength 1 none)
    <*> Schema.defaulted fs "data" Schema.object []
    <*> Schema.defaulted fs "assign_to" Schema.texts []

/-- Reads one user or a list; what is neither has the issues of both. -/
def Assignees.read : Schema Assignees := fun v =>
  match v with
  | .text s => .valid (.one s)
  | _ =>
    match Schema.texts v with
    | .valid l => .valid (.many l)
    | .invalid is =>
      match (Schema.text v).within (.name "str"), Checked.within (.name "list[str]")
          (.invalid is : Checked Unit) with
      | .invalid js, .invalid ks => .invalid (js ++ ks)
      | _, _ => .invalid is

/-- Reads an assignment. -/
def AssignmentConfig.read : Schema AssignmentConfig := Schema.model "AssignmentConfig" fun fs =>
  AssignmentConfig.mk
    <$> Schema.required fs "assign_to" Assignees.read
    <*> Schema.defaulted fs "assignment_type" Schema.named .file
    <*> Schema.required fs "entity_id" (Schema.textOfLength 1 none)
    <*> Schema.defaulted fs "priority" Schema.named .medium
    <*> Schema.defaulted fs "due_date" (Schema.optional Schema.moment) none

/-- Reads a script. -/
def CustomConfig.read : Schema CustomConfig := Schema.model "CustomConfig" fun fs =>
  CustomConfig.mk
    <$> Schema.required fs "script" (Schema.textOfLength 1 none)
    <*> Schema.defaulted fs "language" Schema.named .python
    <*> Schema.defaulted fs "parameters" Schema.object []

namespace Action

/-- Reads an action of the given kind; `fresh` is the identifier if none is given. -/
def readWith (fresh kind : String) (config : Schema ActionConfig) (fs : Fields) : Checked Action :=
  (fun id name order enabled continueOnError _ config =>
      Action.mk id name order enabled continueOnError config)
    <$> Schema.defaulted fs "id" Schema.text fresh
    <*> Schema.defaulted fs "name" Schema.text ""
    <*> Schema.defaulted fs "order" Schema.int 0
    <*> Schema.defaulted fs "enabled" Schema.bool true
    <*> Schema.defaulted fs "continue_on_error" Schema.bool false
    <*> Schema.defaulted fs "type" (Schema.constant kind) ()
    <*> Schema.required fs "config" config

/-- The reader of what an action of the given kind does. -/
def readConfig : ActionKind → Schema ActionConfig
  | .notification => fun v => (NotificationConfig.read v).map .notification
  | .email => fun v => (EmailConfig.read v).map .email
  | .webhook => fun v => (WebhookConfig.read v).map .webhook
  | .database => fun v => (DatabaseConfig.read v).map .database
  | .fileOperation => fun v => (FileConfig.read v).map .file
  | .workflow => fun v => (WorkflowConfig.read v).map .workflow
  | .assignment => fun v => (AssignmentConfig.read v).map .assignment
  | .custom => fun v => (CustomConfig.read v).map .custom

/-- The readers of the kinds of actions. -/
def variants (fresh : String) : List (String × (Fields → Checked Action)) :=
  (Enumeration.members : List ActionKind).map fun k =>
    (Enumeration.name k, readWith fresh (Enumeration.name k) (readConfig k))

/-- Reads an action. -/
def read (fresh : String) : Schema Action := Schema.tagged (variants fresh)

end Action

/-! ### Payloads -/

/-- The payload of what an action does. -/
def ActionConfig.toValue : ActionConfig → Value
  | .notification c => .object [("type", .ofName c.channel), ("recipients", .texts c.recipients),
      ("template", .text c.template), ("title", .ofOption .text c.title),
      ("variables", .ofTextFields c.values)]
  | .email c => .object [("to", .texts c.receivers), ("cc", .texts c.cc), ("bcc", .texts c.bcc),
      ("subject", .text c.subject), ("body", .text c.body), ("attachments", .texts c.attachments)]
  | .webhook c => .object [("url", .text c.url), ("method", .ofName c.method),
      ("headers", .ofTextFields c.headers), ("body", .ofOption .text c.body),
      ("authentication", .ofOption Authentication.toValue c.authentication)]
  | .database c => .object [("operation", .ofName c.operation), ("table", .text c.table),
      ("data", .object c.data), ("conditions", .object c.conditions)]
  | .file c => .object [("operation", .ofName c.operation), ("source", .text c.source),
      ("destination", .ofOption .text c.destination), ("options", .object c.options)]
  | .workflow c => .object [("workflow_id", .text c.workflowId), ("data", .object c.data),
      ("assign_to", .texts c.assignTo)]
  | .assignment c => .object [
      ("assign_to", match c.assignTo with | .one u => .text u | .many l => .texts l),
      ("assignment_type", .ofName c.kind), ("entity_id", .text c.entityId),
      ("priority", .ofName c.priority), ("due_date", .ofOption .moment c.dueDate)]
  | .custom c => .object [("script", .text c.script), ("language", .ofName c.language),
      ("parameters", .object c.parameters)]

/-- The payload of an action. -/
def Action.toValue (a : Action) : Value :=
  .object [("id", .text a.id), ("name", .text a.name), ("order", .int a.order),
    ("enabled", .bool a.enabled), ("continue_on_error", .bool a.continueOnError),
    ("type", .ofName a.config.kind), ("config", a.config.toValue)]

end Rulebook
