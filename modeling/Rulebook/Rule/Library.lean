import Rulebook.Failure
import Rulebook.Rule.Basic
import Rulebook.Text.Lowercase
/-!
# The library of rule templates

A template makes the draft of a rule from a few settings. What the settings hold is checked when the
draft is read, like any other payload.
-/

namespace Rulebook

/-- A template for rules. -/
inductive RuleTemplate where
  /-- A daily mail. -/
  | dailyDigest
  /-- Assignment of new files to reviewers. -/
  | fileAutoAssign
  /-- Notification about reviews with a low score. -/
  | qcFailureAlert
deriving DecidableEq, Repr

namespace RuleTemplate

/-- The templates in the order of their names. -/
def all : List RuleTemplate := [dailyDigest, fileAutoAssign, qcFailureAlert]

/-- The name of a template. -/
def name : RuleTemplate → String
  | dailyDigest => "daily_digest"
  | fileAutoAssign => "file_auto_assign"
  | qcFailureAlert => "qc_failure_alert"

/-- The template of a name, in which case and blanks at the ends do not matter. -/
def ofName? (name : String) : Option RuleTemplate :=
  all.find? (·.name == Text.lower (Text.trim name))

/-- The value of a setting that must not be absent, null or empty. -/
def required (t : RuleTemplate) (config : Fields) (key : String) : Outcome Value :=
  match Fields.get? config key with
  | none | some .null | some (.text "") | some (.list []) =>
    .error (.settingRequired t.name key)
  | some v => .ok v

/-- The value of a setting, or another value if it is absent. -/
def setting (config : Fields) (key : String) (absent : Value) : Value :=
  (Fields.get? config key).getD absent

/-- A list of receivers; one alone may be given without a list. -/
def receivers : Value → Value
  | .text s => .list [.text s]
  | v => v

/-- A trigger on events. -/
def eventTrigger (name eventType : String) : Value :=
  .object [("id", .text "trigger_1"), ("type", .text "event"), ("name", .text name),
    ("event_type", .text eventType)]

/-- The only action of a template. -/
def soleAction (kind name : String) (config : Fields) : Value :=
  .list [.object [("id", .text "action_1"), ("type", .text kind), ("name", .text name),
    ("order", .int 1), ("config", .object config)]]

/-- The fields of a draft, without tenant and author. -/
def fields (t : RuleTemplate) (config : Fields) : Outcome (Fields × Fields) :=
  match t with
  | fileAutoAssign => do
    let reviewer ← t.required config "reviewer_id"
    .ok ([("name", .text "Auto-assign Files"),
      ("description", .text "Automatically assign new files to reviewers based on criteria"),
      ("priority", .int 1),
      ("triggers", .list [eventTrigger "File Uploaded" "file.uploaded"]),
      ("conditions", .list []),
      ("actions", soleAction "assignment" "Assign to Reviewer"
        [("assign_to", reviewer), ("assignment_type", .text "file"),
          ("entity_id", .text "\x7b\x7bfileId\x7d\x7d"),
          ("priority", setting config "priority" (.text "medium"))]),
      ("settings", .object [("max_executions_per_day", .int 100), ("cooldown_period", .int 5),
        ("retry_attempts", .int 3), ("timeout_seconds", .int 30),
        ("run_in_parallel", .bool true)])],
      [("category", .text "files"), ("tags", .texts ["files", "assignment"])])
  | qcFailureAlert => do
    let recipients ← t.required config "recipients"
    let threshold := setting config "score_threshold" (.int 70)
    .ok ([("name", .text "QC Failure Alert"),
      ("description", .text "Notify the QC leads when a review scores below the threshold."),
      ("priority", .int 5),
      ("triggers", .list [eventTrigger "QC Completed" "qc.completed"]),
      ("conditions", .list [.object [("field", .text "score"), ("operator", .text "less_than"),
        ("value", threshold)]]),
      ("actions", soleAction "notification" "Alert QC Leads"
        [("type", setting config "channel" (.text "in_app")),
          ("recipients", receivers recipients),
          ("title", .text "QC failure on \x7b\x7bfileId\x7d\x7d"),
          ("template", .text ("File \x7b\x7bfileId\x7d\x7d scored \x7b\x7bscore\x7d\x7d (threshold " ++
            threshold.display ++ ")."))]),
      ("settings", .object [("max_executions_per_day", .int 500), ("retry_attempts", .int 1)])],
      [("category", .text "qc"), ("tags", .texts ["qc", "alert"])])
  | dailyDigest => do
    let recipients ← t.required config "recipients"
    .ok ([("name", .text "Daily Automation Digest"),
      ("description", .text "Email a daily summary to the listed recipients."),
      ("priority", .int 0),
      ("triggers", .list [.object [("id", .text "trigger_1"), ("type", .text "schedule"),
        ("name", .text "Every day"),
        ("schedule", .object [("type", .text "interval"),
          ("expression", setting config "interval" (.text "1d"))])]]),
      ("conditions", .list []),
      ("actions", soleAction "email" "Send Digest"
        [("to", receivers recipients),
          ("subject", setting config "subject" (.text "Daily automation digest")),
          ("body", setting config "body" (.text "Your daily automation digest is ready."))]),
      ("settings", .object [("max_executions_per_day", .int 5)])],
      [("category", .text "system"), ("tags", .texts ["digest"])])

/-- The draft of a rule of a tenant from the template of a name. -/
def draft (ids : FreshIds) (name : String) (config : Fields) (tenantId createdBy : String) :
    Outcome RuleDraft :=
  match ofName? name with
  | none => .error (.templateNotFound name (all.map RuleTemplate.name))
  | some t => do
    let (fs, metadata) ← t.fields config
    let metadata := metadata ++ [("created_by", .text createdBy)]
    let payload := fs ++ [("tenant_id", .text tenantId), ("metadata", .object metadata)]
    (RuleDraft.read ids (.object payload)).toExcept.mapError .invalid

end RuleTemplate

end Rulebook
