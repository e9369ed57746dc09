import Rulebook.Path
/-!
# Routes

A route is a method and a pattern of path segments. The first route that a request fits says what
it asks for; if only the path fits, the methods of the first such route are named.
-/

namespace Rulebook

/-- What a request asks for. -/
inductive Endpoint where
  /-- A page for people. -/
  | page
  /-- What the application is. -/
  | front
  /-- Whether the application runs. -/
  | health
  /-- Whether the application can work. -/
  | ready
  /-- A new rule. -/
  | createRule
  /-- The rules. -/
  | listRules
  /-- A rule. -/
  | rule (ruleId : String)
  /-- A new definition of a rule. -/
  | updateRule (ruleId : String)
  /-- Putting a rule out of use. -/
  | deactivateRule (ruleId : String)
  /-- A rule from a template. -/
  | template (name : String)
  /-- The execution of a rule. -/
  | executeRule (ruleId : String)
  /-- What an event leads to. -/
  | event
  /-- What the call of a webhook leads to. -/
  | webhook (webhookId : String)
  /-- The executions. -/
  | executions
  /-- An execution. -/
  | execution (executionId : String)
  /-- The end of an execution. -/
  | cancel (executionId : String)
  /-- The metrics. -/
  | metrics
deriving DecidableEq, Repr

/-- A part of a pattern. -/
inductive Segment where
  /-- This name. -/
  | name (s : String)
  /-- Any name. -/
  | any

/-- A route. -/
structure Route where
  /-- The methods. -/
  methods : List String
  /-- The pattern. -/
  pattern : List Segment
  /-- What is asked for, by the names that stand where any may. -/
  endpoint : List String → Endpoint

/-- Where a request leads. -/
inductive Routing where
  /-- To what it asks for. -/
  | found (e : Endpoint)
  /-- Nowhere with its method; these are possible. -/
  | wrongMethod (allowed : List String)
  /-- To another path. -/
  | moved (path : String)
  /-- Nowhere. -/
  | nowhere

namespace Route

/-- The names that stand where any may, if the segments fit the pattern. -/
def fit : List Segment → List String → Option (List String)
  | [], [] => some []
  | .name s :: ps, t :: ts => if s = t then fit ps ts else none
  | .any :: ps, t :: ts => if t.isEmpty then none else (fit ps ts).map (t :: ·)
  | _, _ => none

/-- A pattern as a text, in which an asterisk stands for any name. -/
def patternOf (path : String) : List Segment :=
  (Path.parts '/' path).map fun s => if s = "*" then .any else .name s

/-- A route with a single method and a pattern with no place for a name. -/
def fixed (method path : String) (e : Endpoint) : Route := ⟨[method], patternOf path, fun _ => e⟩

/-- A route with a single method and a pattern with a place for a name. -/
def named (method path : String) (e : String → Endpoint) : Route :=
  ⟨[method], patternOf path, fun names => e (names.headD "")⟩

/-- The route of a page. -/
def pageAt (path : String) : Route := ⟨["GET", "HEAD"], patternOf path, fun _ => .page⟩

/-- The routes, in the order in which they are tried. -/
def all : List Route := [
  pageAt "/docs", pageAt "/docs/oauth2-redirect", pageAt "/redoc",
  fixed "POST" "/automations/rules" .createRule,
  fixed "GET" "/automations/rules" .listRules,
  named "GET" "/automations/rules/*" .rule,
  named "PUT" "/automations/rules/*" .updateRule,
  named "POST" "/automations/rules/*/deactivate" .deactivateRule,
  named "POST" "/automations/templates/*" .template,
  named "POST" "/automations/rules/*/execute" .executeRule,
  fixed "POST" "/automations/events" .event,
  named "POST" "/automations/webhooks/*" .webhook,
  fixed "GET" "/automations/executions" .executions,
  named "GET" "/automations/executions/*" .execution,
  named "POST" "/automations/executions/*/cancel" .cancel,
  fixed "GET" "/automations/metrics" .metrics,
  fixed "GET" "/" .front,
  fixed "GET" "/health" .health,
  fixed "GET" "/ready" .ready]

/-- The routes whose patterns a path fits, each with what is asked for there. -/
def fitting (path : String) : List (Route × Endpoint) :=
  all.filterMap fun r => (fit r.pattern (Path.parts '/' path)).map fun names => (r, r.endpoint names)

/-- The path with the slashes at its end taken away, or with one if there is none. -/
def turned (path : String) : String :=
  if path.endsWith "/" then String.ofList (path.toList.reverse.dropWhile (· == '/')).reverse
  else path ++ "/"

/-- Where a request leads. A path that fits nothing may fit with or without a slash at its end. -/
def find (method path : String) : Routing :=
  match fitting path with
  | [] =>
    if path != "/" && !(fitting (turned path)).isEmpty then .moved (turned path) else .nowhere
  | (first, e) :: rest =>
    match ((first, e) :: rest).find? fun (r, _) => r.methods.contains method with
    | some (_, e) => .found e
    | none => .wrongMethod first.methods

end Route

end Rulebook
