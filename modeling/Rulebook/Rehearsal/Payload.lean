import Rulebook.File.Listing
import Rulebook.Rehearsal.Registry
import Rulebook.Rehearsal.Services
/-!
# Payloads of rehearsals

What is laid out for a rehearsal may be written as a payload.
-/

namespace Rulebook

/-- The words in which a payload speaks of failures. -/
structure FailureWords where
  /-- How a script or a reading fails with a text. -/
  plain : String → Failure
  /-- How the calls of a service fail. -/
  fault : Fields → Failure
  /-- How a web address answers. -/
  web : Fields → Outcome ServiceReply

/-- The reading of a payload. -/
def Reading.ofValue (w : FailureWords) (v : Value) : Reading :=
  match v with
  | .object fs =>
    match Fields.get? fs "$raise" with
    | some t => .error (w.plain t.display)
    | none => .ok (some fs)
  | _ => .ok none

/-- The readings of a payload, if it has any. -/
def Readings.ofFields? (w : FailureWords) (fs : Fields) : Option Readings :=
  match Fields.value fs "readings" with
  | .object rules =>
    some ⟨rules.map fun (k, _) => (k, (Fields.items rules k).map (Reading.ofValue w))⟩
  | _ => none

/-- The verdicts of a payload. -/
def Verdict.ofFields (w : FailureWords) (fs : Fields) : List (String × Verdict) :=
  (Fields.fields fs "execute").filterMap fun (k, v) =>
    match v with
    | .null => none
    | .text "limited" => some (k, .limited true)
    | .text "limited_no_id" => some (k, .limited false)
    | _ => some (k, .fails (w.plain "boom"))

/-- What stands for each service in a field. -/
def byService {α : Type} (fs : Fields) (f : Value → α) : List (Service × α) :=
  fs.filterMap fun (k, v) => (Service.names.lookup k).map fun s => (s, f v)

/-- The fault plan of a payload. -/
def FaultPlan.ofFields (w : FailureWords) (fs : Fields) : FaultPlan :=
  ⟨(Fields.intOr fs "after" 0).toNat, w.fault fs⟩

/-- The files of a payload, if it has any. -/
def filesOf? (address : String) (fs : Fields) : Option FileStore :=
  match Fields.value fs "files" with
  | .object files => some (.ofListing address files (Fields.fields fs "outside"))
  | _ => none

namespace Cast

/-- The cast of a payload. -/
def ofFields (w : FailureWords) (fs : Fields) : Cast :=
  let named := (Fields.texts fs "without").filterMap fun t => Service.names.lookup t
  { absent := if (filesOf? "" fs).isSome then named else .files :: named
    faults := byService (Fields.fields fs "fail") fun v => .ofFields w v.fields
    results := byService (Fields.fields fs "returns") id
    web := (Fields.items fs "http").map fun v => w.web v.fields
    unhandled := (Fields.texts fs "without_handlers").filterMap ActionKind.ofName?
    opensWeb := (Fields.value fs "own_client").isTruthy
    webTimeout := ((Fields.get? fs "webhook_timeout").filter (!·.isNull)).getD (.float 30)
    polls := (Readings.ofFields? w fs).isSome
    mail := none
    scriptFailure := w.plain }

/-- The cast where mail is sent and records are kept in earnest. -/
def inEarnest (c : Cast) (settings : Settings) (server : MailServer) : Cast :=
  { c with
    absent := .tables :: c.absent.filter (· == .scripts)
    webTimeout := .float settings.webhookTimeout
    mail := some (settings.mail, server) }

end Cast

/-- The mail server of a payload: it refuses one command. -/
def MailServer.ofFields (fs : Fields) : MailServer := fun c =>
  if Fields.text fs "fail_on" == c.word then some (Fields.text fs "message") else none

/-- The scene of a payload. -/
def Scene.ofFields (w : FailureWords) (address : String) (fs : Fields) : Scene :=
  ⟨[], [], [], 0, filesOf? address fs, .empty, (Readings.ofFields? w fs).getD ⟨[]⟩⟩

/-- The payload of what is written down. -/
def Recorded.toValue : Recorded → Value
  | .call c => c.toValue
  | .mail c => c.toValue

/-- The payload of a call of a rule. -/
def Occasion.toValue (ruleId : String) (o : Occasion) : Value :=
  .object [("target", .text "execute"), ("rule_id", .text ruleId), ("data", .object o.data),
    ("context", o.context.toValue), ("triggered_by", .text o.triggeredBy)]

end Rulebook
