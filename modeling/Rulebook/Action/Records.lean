import Rulebook.Action.Service
import Rulebook.Identifier
/-!
# Records of actions

Notifications, assignments and started workflows may be kept as records in a database, for others to
work on.
-/

namespace Rulebook

/-- A notification on record. -/
structure NotificationRecord where
  /-- Its identifier. -/
  id : String
  /-- The user. -/
  userId : String
  /-- The title. -/
  title : String
  /-- The message. -/
  message : String
  /-- The data. -/
  data : Fields
  /-- The ways it goes. -/
  channels : List String

/-- An assignment on record. -/
structure AssignmentRecord where
  /-- Its identifier. -/
  id : String
  /-- What is assigned. -/
  entityId : String
  /-- The kind of that. -/
  kind : AssignmentKind
  /-- The user. -/
  assignee : String
  /-- How urgent it is. -/
  priority : Urgency
  /-- When it is due, in UTC. -/
  dueAt : Option Moment

/-- A started workflow on record. -/
structure WorkflowRecord where
  /-- Its identifier. -/
  id : String
  /-- The workflow. -/
  workflowId : String
  /-- The data. -/
  data : Fields
  /-- The users it is assigned to. -/
  assignees : List String

/-- The records. -/
structure Records where
  /-- The notifications. -/
  notifications : List NotificationRecord
  /-- The assignments. -/
  assignments : List AssignmentRecord
  /-- The workflows. -/
  workflows : List WorkflowRecord
  /-- How many identifiers of assignments are taken. -/
  assignmentIds : Nat

namespace Records

/-- No records. -/
def empty : Records := ⟨[], [], [], 0⟩

/-- The most characters of a title. -/
def titleLength : Nat := 255

/-- Records a notification. -/
def notify (r : Records) (userId title message : String) (data : Fields) (channels : List String) :
    Records × Value :=
  let id := identifier "ntf" (r.notifications.length + 1)
  let title := String.ofList (title.toList.take titleLength)
  ({ r with notifications := r.notifications ++ [⟨id, userId, title, message, data, channels⟩] },
    .object [("notification_id", .text id)])

/-- Records a started workflow. -/
def startWorkflow (r : Records) (workflowId : String) (data : Fields) (assignees : List String) :
    Records × Value :=
  let id := identifier "wfr" (r.workflows.length + 1)
  ({ r with workflows := r.workflows ++ [⟨id, workflowId, data, assignees⟩] },
    .object [("workflow_run_id", .text id)])

/-- Records an assignment to each of some users. If the time at which it is due cannot be written in
UTC, nothing is recorded but an identifier is taken. -/
def assign (r : Records) (entityId : String) (assignees : List String) (kind : AssignmentKind)
    (priority : Urgency) (dueDate : Option Moment) : Records × Outcome Value :=
  match dueDate.mapM Moment.normalize with
  | .error f =>
    if assignees.isEmpty then (r, .ok (.object [("assignment_ids", .list [])]))
    else ({ r with assignmentIds := r.assignmentIds + 1 }, .error (.time f))
  | .ok dueAt =>
    let made := assignees.zipIdx.map fun (user, n) =>
      AssignmentRecord.mk (identifier "asg" (r.assignmentIds + n + 1)) entityId kind user priority
        dueAt
    ({ r with
        assignments := r.assignments ++ made
        assignmentIds := r.assignmentIds + made.length },
      .ok (.object [("assignment_ids", .texts (made.map (·.id)))]))

/-- The payload of a notification on record. -/
def notificationValue (r : NotificationRecord) : Value :=
  .object [("id", .text r.id), ("user_id", .text r.userId), ("title", .text r.title),
    ("message", .text r.message), ("data_json", .object r.data),
    ("channels_json", .texts r.channels), ("read_at", .null)]

/-- The payload of an assignment on record, which is open; the time has no offset. -/
def assignmentValue (r : AssignmentRecord) : Value :=
  .object [("id", .text r.id), ("entity_id", .text r.entityId),
    ("assignment_type", .ofName r.kind), ("assignee_user_id", .text r.assignee),
    ("priority", .ofName r.priority), ("status", .text "open"),
    ("due_at", .ofOption (fun m => .moment { m with offset := none }) r.dueAt)]

/-- The payload of a workflow on record, which is started. -/
def workflowValue (r : WorkflowRecord) : Value :=
  .object [("id", .text r.id), ("workflow_id", .text r.workflowId), ("status", .text "started"),
    ("data_json", .object r.data), ("assignees_json", .texts r.assignees)]

/-- The payload of the records of a kind. -/
def rows (r : Records) (kind : String) : Value :=
  match kind with
  | "notifications" => .list (r.notifications.map notificationValue)
  | "assignments" => .list (r.assignments.map assignmentValue)
  | _ => .list (r.workflows.map workflowValue)

end Records

end Rulebook
