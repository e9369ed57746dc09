import Rulebook.Failure
/-!
# Periods

A period runs from its start up to, but not including, its end.
-/

namespace Rulebook

/-- A period. -/
structure Period where
  /-- The first point in time. -/
  start : Moment
  /-- The first point in time that no longer belongs to it. -/
  stop : Moment
deriving DecidableEq, Repr

namespace Period

/-- Whether a moment belongs to the period. The end is looked at only if the start has passed. -/
def contains (p : Period) (m : Moment) : Except TimeFault Bool := do
  if ← m.before p.start then .ok false else m.before p.stop

/-- Reads the ends of a period without comparing them. -/
def readEnds : Schema Period := Schema.model "MetricsPeriod" fun fs =>
  Period.mk <$> Schema.required fs "start" Schema.moment <*> Schema.required fs "end" Schema.moment

/-- The wording of a period that ends before it starts. -/
def orderText : String := "Metrics period end must not precede start"

/-- Reads a period. -/
def read (v : Value) : Outcome Period := do
  let p ← (readEnds v).toExcept.mapError .invalid
  if ← (p.stop.before p.start).mapError .time then .error (.invalid [⟨[], .rule orderText⟩])
  else .ok p

/-- The payload of a period. -/
def toValue (p : Period) : Value := .object [("start", .moment p.start), ("end", .moment p.stop)]

end Period

end Rulebook
