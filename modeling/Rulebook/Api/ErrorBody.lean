import Rulebook.Value.Basic
import Rulebook.Numeric.Decimal
/-!
# Bodies of error responses

Every error response has the same form: a code, a wording, the request it answers, and, where there
are any, particulars. For the documentation each status has examples.
-/

namespace Rulebook

/-- A particular of an error. -/
structure ErrorDetail where
  /-- What it is about. -/
  field : String
  /-- Its wording. -/
  message : String
  /-- Its kind. -/
  kind : String

/-- The body of an error response. -/
structure ErrorBody where
  /-- The code of the error. -/
  code : String
  /-- Its wording. -/
  message : String
  /-- The request. -/
  requestId : String
  /-- The path of the request. -/
  path : String
  /-- The particulars. -/
  details : Option (List ErrorDetail)

namespace ErrorBody

/-- The payload of a particular. -/
def detailValue (d : ErrorDetail) : Value :=
  .object [("field", .text d.field), ("message", .text d.message), ("type", .text d.kind)]

/-- The payload of a body. -/
def toValue (b : ErrorBody) : Value :=
  .object [("error", .object [("code", .text b.code), ("message", .text b.message),
    ("request_id", .text b.requestId), ("path", .text b.path),
    ("details", .ofOption (fun ds => .list (ds.map detailValue)) b.details)])]

/-- An example: code, wording and path. -/
structure Example where
  /-- The code. -/
  code : String
  /-- The wording. -/
  message : String
  /-- The path. -/
  path : String

/-- The examples of a status; those without any of their own share one. -/
def examples (status : Int) : List Example :=
  match status with
  | 400 =>
    [⟨"bad_request", "X-Tenant-ID header is required", "/automations/rules"⟩,
      ⟨"automation_error", "Template 'daily_digest' requires config key 'recipients'",
        "/automations/templates/daily_digest"⟩]
  | 404 =>
    [⟨"rule_not_found", "Automation rule 'rule_123' not found", "/automations/rules/rule_123"⟩,
      ⟨"execution_not_found", "Automation execution 'exec_123' not found",
        "/automations/executions/exec_123"⟩,
      ⟨"template_not_found", "Unknown template 'nope'. Available: daily_digest",
        "/automations/templates/nope"⟩]
  | 409 =>
    [⟨"rule_inactive", "Automation rule 'rule_123' is inactive",
      "/automations/rules/rule_123/execute"⟩]
  | 422 => [⟨"validation_error", "Validation failed", "/automations/rules"⟩]
  | 429 => [⟨"rate_limit_exceeded", "Rate limit exceeded", "/automations/rules/rule_123/execute"⟩]
  | 500 => [⟨"internal_error", "Internal server error", "/automations/events"⟩]
  | _ => [⟨"http_error", "HTTP error", "/automations"⟩]

/-- An example as documented. -/
def Example.toValue (e : Example) : Value :=
  .object [("summary", .text e.message),
    ("value", ErrorBody.toValue ⟨e.code, e.message, "request-id", e.path, none⟩)]

/-- The documentation of a status. -/
def documented (status : Int) : Value :=
  let es := examples status
  let shown := Value.object (es.map fun e => (e.code, e.toValue))
  .object [("description", .text ((es.head?.map (·.message)).getD "")),
    ("content", .object [("application/json", .object [("examples", shown)])])]

/-- The documentation of several statuses. -/
def documentation (statuses : List Int) : Value :=
  .object (Fields.ofPairs (statuses.map fun s => (Decimal.intText s, documented s)))

end ErrorBody

end Rulebook
