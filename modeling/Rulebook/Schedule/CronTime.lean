import Rulebook.Schedule.Cron
/-!
# The times of a cron expression

`Cron.next?` finds the first matching instant from a given one on. The search looks at the fields
from the year down to the second. A field that needs a larger value is set to it, and the finer ones
to their least values; one that has no larger value makes a coarser field advance by one. Clock
changes show in the search: a reading that the clocks skip is replaced by one after the gap.
-/

namespace Rulebook

/-- What the clocks of a zone show, field by field. -/
structure ClockReading where
  /-- The date. -/
  date : Date
  /-- The hour. -/
  hour : Int
  /-- The minute. -/
  minute : Int
  /-- The second. -/
  second : Int
deriving DecidableEq, Repr

namespace ClockReading

/-- The reading of a number of seconds since the start of year 1. -/
def ofSeconds (wall : Int) : ClockReading :=
  ⟨Date.ofDays (wall / 86400), wall % 86400 / 3600, wall % 3600 / 60, wall % 60⟩

/-- The seconds since the start of year 1. -/
def toSeconds (r : ClockReading) : Int :=
  r.date.toDays * 86400 + r.hour * 3600 + r.minute * 60 + r.second

/-- The value of a field. -/
def value (r : ClockReading) : CronField → Int
  | .year => r.date.year
  | .month => r.date.month
  | .day => r.date.day
  | .weekday => r.date.weekday
  | .hour => r.hour
  | .minute => r.minute
  | .second => r.second

/-- The last day of the month. -/
def monthEnd (r : ClockReading) : Int := daysInMonth r.date.year r.date.month

/-- The greatest value that a field can have in this month. -/
def greatest (r : ClockReading) : CronField → Int
  | .day => r.monthEnd
  | f => f.greatest

/-- The reading with a field set and the finer ones at their least values. The day of the week
cannot be set. -/
def set (r : ClockReading) (f : CronField) (v : Int) : ClockReading :=
  match f with
  | .year => ⟨⟨v, 1, 1⟩, 0, 0, 0⟩
  | .month => ⟨⟨r.date.year, v, 1⟩, 0, 0, 0⟩
  | .day => ⟨⟨r.date.year, r.date.month, v⟩, 0, 0, 0⟩
  | .weekday => r
  | .hour => ⟨r.date, v, 0, 0⟩
  | .minute => ⟨r.date, r.hour, v, 0⟩
  | .second => ⟨r.date, r.hour, r.minute, v⟩

/-- Advances a field by one, or, where it has its greatest value, the next coarser one; the day of
the week advances with the day. Gives the field that was advanced. -/
def advance? (r : ClockReading) (f : CronField) : Option (ClockReading × CronField) :=
  let step (f : CronField) (otherwise : Option (ClockReading × CronField)) :=
    if r.value f = r.greatest f then otherwise else some (r.set f (r.value f + 1), f)
  let year := step .year none
  let month := step .month year
  let day := step .day month
  match f with
  | .year => year
  | .month => month
  | .day | .weekday => day
  | .hour => step .hour day
  | .minute => step .minute (step .hour day)
  | .second => step .second (step .minute (step .hour day))

end ClockReading

namespace CronField

/-- The field that advances when this one has no larger value. -/
def coarser : CronField → CronField
  | year => year
  | month => year
  | day => month
  | weekday => day
  | hour => day
  | minute => hour
  | second => minute

end CronField

namespace Cron

/-- Where a search stands. -/
inductive Search where
  /-- The coarser fields match at the instant; this one is looked at next. -/
  | looking (instant : Int) (field : CronField)
  /-- All fields match. -/
  | found (instant : Int)
  /-- There is no later match. -/
  | exhausted

/-- The least value of a field from its present one on that satisfies a term. -/
def candidate? (c : Cron) (r : ClockReading) (f : CronField) : Option Int :=
  (c.terms f).foldl (fun best term =>
    match best, term.next? (r.value f) f.least (r.greatest f) r.monthEnd with
    | some b, some v => some (min b v)
    | none, found => found
    | best, none => best) none

/-- The next look after a field is advanced; the instant moves by as much as the reading. -/
def advanced (instant : Int) (r : ClockReading) (f : CronField) : Search :=
  match r.advance? f with
  | some (later, field) => .looking (instant + (later.toSeconds - r.toSeconds)) field
  | none => .exhausted

/-- Looks at one field. -/
def look (c : Cron) (instant : Int) (f : CronField) : Search :=
  let r := ClockReading.ofSeconds (c.zone.wallAt instant)
  let matched (instant : Int) : Search :=
    match f.finer? with
    | some next => .looking instant next
    | none => .found instant
  match c.candidate? r f with
  | none => advanced instant r f.coarser
  | some v =>
    if v ≤ r.value f then matched instant
    else if f = .weekday then advanced instant r f
    else matched (c.zone.instantOf (r.set f v).toSeconds (c.zone.isRepeated instant))

/-- Looks at fields until the search ends or the fuel is used up. -/
def search (c : Cron) : Nat → Search → Option Int
  | 0, _ => none
  | _, .exhausted => none
  | _, .found instant => some instant
  | fuel + 1, .looking instant f => search c fuel (c.look instant f)

/-- More looks than a search can take: each day of the years up to 9999 is visited at most once
before the hour matches, with fewer than 32 looks. -/
def searchFuel : Nat := Nat.pow 2 27

/-- The first matching instant from `instant` on, in whole seconds of UTC. -/
def next? (c : Cron) (instant : Int) : Option Int := c.search searchFuel (.looking instant .year)

/-- The first whole second that is not before a moment, in UTC, if the clock that shows the moment, UTC
and the zone can all show it. -/
def firstSecond (c : Cron) (m : Moment) : Except TimeFault Int :=
  -- a fraction of a second counts as a whole one
  let instant := -(-m.instant / microsPerSecond)
  let readings := [instant + m.offset.getD 0, instant, c.zone.wallAt instant]
  if readings.all fun wall => Moment.inRange (wall * microsPerSecond) then .ok instant
  else .error .outOfRange

/-- The first match that is not before a moment. -/
def nextFrom (c : Cron) (m : Moment) : Outcome (Option Moment) := do
  match c.next? (← (c.firstSecond m).mapError .time) with
  | none => .ok none
  | some instant =>
    let micros := instant * microsPerSecond
    if Moment.inRange micros then .ok (some (Moment.utc micros)) else .error (.time .outOfRange)

end Cron

end Rulebook
