import Rulebook.Api.ErrorBody
import Rulebook.Api.Request
import Rulebook.Failure
import Rulebook.Log
/-!
# Responses

A request is answered by a response, or refused for a cause that decides the status and the body of
the response. A failure that has no code is a fault within: it is logged, and the response says no
more than that.
-/

namespace Rulebook

/-- A response. -/
structure ApiResponse where
  /-- The status. -/
  status : Nat
  /-- The headers. -/
  headers : List (String × String)
  /-- The body. -/
  body : Value

/-- Why a request is refused. -/
inductive Refusal where
  /-- For a reason that only the status and a wording tell. -/
  | plain (status : Nat) (message : String)
  /-- Parts of the request are invalid. -/
  | invalid (issues : List Issue)
  /-- What it asks for failed. -/
  | failed (f : Failure)

mutual

/-- The value as it is written in a response: numbers that are not finite become null. -/
def Value.sent : Value → Value
  | .float x =>
    match Binary64.view x with
    | .finite _ => .float x
    | _ => .null
  | .list l => .list (sentItems l)
  | .object fs => .object (sentFields fs)
  | v => v

/-- The items as they are written in a response. -/
def sentItems : List Value → List Value
  | [] => []
  | v :: l => v.sent :: sentItems l

/-- The fields as they are written in a response. -/
def sentFields : List (String × Value) → List (String × Value)
  | [] => []
  | (k, v) :: fs => (k, v.sent) :: sentFields fs

end

/-- A step as it is written in the place of an issue. -/
def Key.shown : Key → String
  | .name s => s
  | .index n => Decimal.intText n

/-- An issue as a particular of an error. The body is not named in its place. -/
def Issue.detail (i : Issue) : ErrorDetail :=
  let steps := (i.place.map Key.shown).filter (· != "body")
  ⟨if steps.isEmpty then "body" else ".".intercalate steps, i.flaw.message, i.flaw.kind⟩

/-- The code of a status. -/
def statusCode (status : Nat) : String :=
  match status with
  | 400 => "bad_request"
  | 401 => "unauthorized"
  | 403 => "forbidden"
  | 404 => "not_found"
  | 409 => "conflict"
  | 422 => "validation_error"
  | 429 => "rate_limited"
  | _ => "http_error"

/-- The status of a failure that has a code. -/
def Failure.status : Failure → Nat
  | .ruleNotFound _ => 404
  | .executionNotFound _ => 404
  | .templateNotFound _ _ => 404
  | .ruleInactive _ => 409
  | .rateLimited _ _ => 429
  | _ => 400

/-- The particulars of a failure. -/
def Failure.details : Failure → Option (List ErrorDetail)
  | .rateLimited _ (some id) =>
    if id.isEmpty then none else some [⟨"execution_id", id, "rate_limit_exceeded"⟩]
  | _ => none

/-- Whether a refusal is a fault within. -/
def Refusal.fault? : Refusal → Option Failure
  | .failed f => if f.code?.isSome then none else some f
  | _ => none

/-- The response to a request of this identifier and path that is refused. -/
def Refusal.response (requestId path : String) (x : Refusal) : ApiResponse :=
  let body (code message : String) (details : Option (List ErrorDetail)) : Value :=
    ErrorBody.toValue ⟨code, message, requestId, path, details⟩
  match x with
  | .plain status message => ⟨status, [], body (statusCode status) message none⟩
  | .invalid issues =>
    ⟨422, [], body "validation_error" "Validation failed" (some (issues.map Issue.detail))⟩
  | .failed f =>
    match f.code? with
    | some code => ⟨f.status, [], body code f.message f.details⟩
    | none => ⟨500, [], body "internal_error" "Internal server error" none⟩

/-- The name of the header with the identifier of a request. -/
def requestIdHeader : String := "x-request-id"

namespace ApiRequest

/-- The identifier of a request: what its header says, or else a fresh one. -/
def identifier (r : ApiRequest) (fresh : String) : String :=
  ((r.header? requestIdHeader).filter (!·.isEmpty)).getD fresh

/-- The note of a request. -/
def note (r : ApiRequest) (status : Nat) : LogEntry :=
  ⟨.info, "request", [("method", .text r.method), ("path", .text r.shownPath),
    ("tenant_id", .ofOption .text (r.header? "x-tenant-id")), ("status_code", .int status)]⟩

/-- The note of a fault within. -/
def faultNote (r : ApiRequest) (f : Failure) : LogEntry :=
  ⟨.error, "unhandled_exception", [("path", .text r.shownPath), ("error", .text f.message)]⟩

/-- The response to a request and the notes of it. The response names the identifier of the request,
unless there was a fault within. -/
def conclude (r : ApiRequest) (requestId : String) (answer : Except Refusal ApiResponse) :
    ApiResponse × List LogEntry :=
  let named (a : ApiResponse) : ApiResponse × List LogEntry :=
    ({ a with headers := a.headers ++ [(requestIdHeader, requestId)] }, [r.note a.status])
  match answer with
  | .ok a => named a
  | .error x =>
    let a := x.response requestId r.shownPath
    match x.fault? with
    | some f => (a, [r.note a.status, r.faultNote f])
    | none => named a

end ApiRequest

end Rulebook
