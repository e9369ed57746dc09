import Rulebook.Api.Handler
import Rulebook.Rehearsal.Timeline
/-!
# Rehearsed requests

Requests are handled on a timeline, one after the other: each waits for the executions that it leads
to.
-/

namespace Rulebook

/-- The entry with the identifier of the request in which it was written. -/
def LogEntry.within (requestId : String) (e : LogEntry) : LogEntry :=
  { e with fields := ("request_id", .text requestId) :: e.fields }

namespace Timeline

/-- Waits until an order is done. -/
def complete (c : Cast) (t : Timeline) : OrderState → Timeline × Outcome Value
  | .done v => (t, .ok v)
  | .called tenantId l =>
    let (t, r) := t.await c l
    (t, r.bind fun id => (t.engine.getExecution id (some tenantId)).map Execution.toValue)
  | .dispatched p =>
    let (t, ids) := t.finish c patience p
    (t, .ok (dispatchValue ids))

/-- Carries out an order. -/
def fulfil (c : Cast) (t : Timeline) (o : Order) : Timeline × Outcome Value :=
  let now := t.now
  match t.work fun e => e.perform (o.start c.services now) with
  | (t, .error f) => (t, .error f)
  | (t, .ok s) => t.complete c s

/-- Writes notes. -/
def note (t : Timeline) (notes : List LogEntry) : Timeline :=
  { t with engine := { t.engine with log := t.engine.log ++ notes } }

/-- Handles a request. What is written meanwhile names the request. -/
def receive (c : Cast) (site : Site) (t : Timeline) (r : ApiRequest) : Timeline × ApiResponse :=
  let before := t.engine.log
  let t : Timeline := { t with engine := { t.engine with log := [] } }
  let (t, answer) : Timeline × Except Refusal ApiResponse := match r.decide site with
    | .answer a => (t, .ok a)
    | .refuse x => (t, .error x)
    | .order o =>
      let (t, result) := t.fulfil c o
      (t, (result.mapError .failed).map o.response)
  let id := r.identifier site.requestId
  let (response, notes) := r.conclude id answer
  let log := (t.engine.log ++ notes).map (·.within id)
  ({ t with engine := { t.engine with log := before ++ log } }, response)

end Timeline

end Rulebook
