import Rulebook.Action.Plan
import Rulebook.Action.Records
import Rulebook.File.Store
import Rulebook.Mail.Delivery
import Rulebook.Rehearsal.Readings
/-!
# Rehearsed services

Services for trying out rules where nothing of the world outside is touched. Calls are written down,
and each is answered as laid out beforehand. Mail, notifications, assignments and workflows may
instead go the way they go in earnest, up to a mail server that is itself rehearsed; files always do.
-/

namespace Rulebook

/-- The calls of a service that fail. -/
structure FaultPlan where
  /-- How many calls succeed before. -/
  after : Nat
  /-- How the others fail. -/
  failure : Failure

/-- What is laid out for a rehearsal. -/
structure Cast where
  /-- The services that are not there. -/
  absent : List Service
  /-- The services that fail. -/
  faults : List (Service × FaultPlan)
  /-- The services that answer something else than usual. -/
  results : List (Service × Value)
  /-- The answers of web addresses in turn, the last one again and again. -/
  web : List (Outcome ServiceReply)
  /-- The kinds of actions that cannot be run. -/
  unhandled : List ActionKind
  /-- Whether each call of a web address opens a connection of its own. -/
  opensWeb : Bool
  /-- The seconds that a web address may take. -/
  webTimeout : Value
  /-- Whether conditions can be polled. -/
  polls : Bool
  /-- How mail is sent where records are kept. -/
  mail : Option (MailSettings × MailServer)
  /-- How a script fails that says so. -/
  scriptFailure : String → Failure

/-- What is written down. -/
inductive Recorded where
  /-- A call of a service. -/
  | call (c : ServiceCall)
  /-- A command to the mail server. -/
  | mail (c : MailCommand)

/-- The state of rehearsed services. -/
structure Scene where
  /-- What is written down, in order. -/
  calls : List Recorded
  /-- The calls of each service so far. -/
  used : List Service
  /-- The scripts that counted a failure, once for each. -/
  stumbled : List String
  /-- How many web addresses were called. -/
  webCalls : Nat
  /-- The files, if there are any. -/
  files : Option FileStore
  /-- The records. -/
  records : Records
  /-- The readings of polled conditions. -/
  readings : Readings

namespace Cast

/-- The service that a call is for; calls of web addresses need none. -/
def serviceOf : ServiceCall → Option Service
  | .notify .. => some .notifications
  | .sendMail .. => some .mail
  | .openWeb _ | .callWeb .. => none
  | .insertRow .. | .updateRows .. | .deleteRows .. | .selectRows .. => some .tables
  | .moveFile .. | .copyFile .. | .deleteFile _ | .renameFile .. => some .files
  | .startWorkflow .. => some .workflows
  | .assign .. => some .assignments
  | .runScript .. => some .scripts

/-- The usual answer to a call. -/
def usual : ServiceCall → Value
  | .notify .. => .object [("notification_id", .text "n")]
  | .sendMail .. => .object [("delivery_status", .text "sent")]
  | .selectRows .. => .object [("rows", .list []), ("count", .int 0)]
  | .insertRow .. | .updateRows .. | .deleteRows .. => .object [("affected_rows", .int 1)]
  | .startWorkflow .. => .object [("workflow_run_id", .text "wfr")]
  | .assign _ assignees _ _ _ =>
    .object [("assignment_ids",
      .texts ((List.range assignees.length).map fun (n : Nat) => "asg_" ++ Decimal.intText n))]
  | .runScript script _ parameters =>
    .object [("script", .text script), ("parameters", .object parameters)]
  | _ => .null

/-- The word that a script begins with and what follows its first colon. -/
def scriptParts (script : String) : String × String :=
  let cs := script.toList
  (String.ofList (cs.takeWhile (· != ':')), String.ofList ((cs.dropWhile (· != ':')).drop 1))

/-- A number of seconds in microseconds. -/
def micros (seconds : String) : Int :=
  ((Decimal.ofText? seconds.toList).bind fun x => Binary64.scaledToInt? x 1000000).getD 0

/-- Runs a script, which says itself what comes of it. -/
def play (c : Cast) (s : Scene) (script : String) (result : Value) : Scene × Answer :=
  let (word, rest) := scriptParts script
  let answer (v : Value) : Answer := .now (.ok (.value ((c.results.lookup .scripts).getD v)))
  match word with
  | "sleep" =>
    (s, .later (micros rest) (.ok (.value ((c.results.lookup .scripts).getD result))))
  | "sleepfail" => (s, .later (micros rest) (.error (c.scriptFailure "failed after sleep")))
  | "fail" => (s, .now (.error (c.scriptFailure rest)))
  | "flaky" =>
    let count := s.stumbled.count script + 1
    if count ≤ ((Decimal.ofText? rest.toList).bind fun x => Binary64.scaledToInt? x 1).getD 0 then
      ({ s with stumbled := s.stumbled ++ [script] },
        .now (.error (c.scriptFailure ("flaky failure " ++ Decimal.intText count))))
    else (s, answer result)
  | "none" => (s, answer .null)
  | "empty" => (s, answer (.object []))
  | "text" => (s, answer (.text "text"))
  | "list" => (s, answer (.list [.int 1]))
  | _ => (s, answer result)

/-- Answers a call of a service that is rehearsed. -/
def rehearse (c : Cast) (s : Scene) (service : Service) (call : ServiceCall) : Scene × Answer :=
  let before := s.used.count service
  let s := { s with calls := s.calls ++ [.call call], used := s.used ++ [service] }
  match (c.faults.lookup service).filter fun f => f.after ≤ before, call with
  | some f, _ => (s, .now (.error f.failure))
  | none, .runScript script _ _ => c.play s script (usual call)
  | none, _ => (s, .now (.ok (.value ((c.results.lookup service).getD (usual call)))))

/-- Answers a call of a web address. -/
def answerWeb (c : Cast) (s : Scene) (call : ServiceCall) : Scene × Answer :=
  let s := { s with calls := s.calls ++ [.call call] }
  match call with
  | .callWeb .. =>
    let reply := (c.web[s.webCalls]?).getD (c.web.getLast?.getD (.ok (.response 200 "\x7b\x7d")))
    ({ s with webCalls := s.webCalls + 1 }, .now reply)
  | _ => (s, .now (.ok (.value .null)))

/-- Answers a call of the file store. -/
def handleFile (s : Scene) (store : FileStore) (call : ServiceCall) : Scene × Answer :=
  let done (r : FileStore × Except FileFault FileAnswer) : Scene × Answer :=
    ({ s with files := some r.1 },
      .now ((r.2.mapError .file).map fun a => .value (.object a.toFields)))
  match call with
  | .moveFile source destination => done (store.move source destination)
  | .copyFile source destination => done (store.copy source destination)
  | .deleteFile source => done (store.delete source)
  | .renameFile source destination => done (store.rename source destination)
  | _ => (s, .now (.ok (.value .null)))

/-- Sends a mail in earnest. -/
def post (s : Scene) (settings : MailSettings) (server : MailServer) (receivers : List String)
    (subject body : String) (cc bcc : List String) : Scene × Answer :=
  match Mail.write settings receivers cc bcc subject body with
  | .error e => (s, .now (.error (.mail e)))
  | .ok mail =>
    let (given, delivery) := settings.deliver server mail
    let s := { s with calls := s.calls ++ given.map .mail }
    match delivery.fault with
    | some text => (s, .now (.error (.action text none)))
    | none => (s, .now (.ok (.value (.object [("delivery_status", .text delivery.name)]))))

/-- Keeps a record of what a call asks for. -/
def keep (s : Scene) (call : ServiceCall) : Option (Scene × Answer) :=
  let kept (r : Records × Value) : Scene × Answer :=
    ({ s with records := r.1 }, .now (.ok (.value r.2)))
  match call with
  | .notify userId title message data channels =>
    some (kept (s.records.notify userId title message data channels))
  | .startWorkflow workflowId data assignees =>
    some (kept (s.records.startWorkflow workflowId data assignees))
  | .assign entityId assignees kind priority dueDate =>
    let (records, r) := s.records.assign entityId assignees kind priority dueDate
    some ({ s with records }, .now (r.map .value))
  | _ => none

/-- Answers a call where mail is sent and records are kept in earnest. -/
def act (s : Scene) (mail : MailSettings × MailServer) (call : ServiceCall) :
    Option (Scene × Answer) :=
  match call with
  | .sendMail receivers subject body cc bcc => some (post s mail.1 mail.2 receivers subject body cc bcc)
  | call => keep s call

/-- Answers a call. -/
def serve (c : Cast) (s : Scene) (call : ServiceCall) : Scene × Answer :=
  match serviceOf call, s.files with
  | none, _ => c.answerWeb s call
  | some .files, some store => handleFile s store call
  | some service, _ => ((c.mail.bind fun m => act s m call).getD (c.rehearse s service call))

/-- Takes a reading of a polled condition. -/
def take (s : Scene) (r : Rule) : Scene × Reading :=
  let (readings, reading) := s.readings.take r.id
  ({ s with readings }, reading)

/-- The services of a rehearsal. -/
def services (c : Cast) : Services Scene where
  offers service := !c.absent.contains service
  handles kind := !c.unhandled.contains kind
  opensWeb := c.opensWeb
  webTimeout := c.webTimeout
  serve := c.serve
  source := if c.polls then some take else none

/-- Waits for the replies of a run of an action; `limit` is the most of them. -/
def await (c : Cast) : Nat → Attempt → Scene → Scene × Outcome Value
  | _, .over result, s => (s, result)
  | 0, .waits _, s => (s, .ok .null)
  | limit + 1, .waits w, s =>
    let (s, a) := c.services.resume w s
    c.await limit a s

/-- Runs an action to its end. -/
def perform (c : Cast) (action : ActionConfig) (triggerData : Fields) (context : ExecutionContext)
    (s : Scene) : Scene × Outcome Value :=
  let (s, a) := c.services.attempt action triggerData context s
  match a with
  | .over result => (s, result)
  | .waits w => c.await (w.rest.length + 1) (.waits w) s

end Cast

end Rulebook
