import Rulebook.Time.Date
/-!
# Points in time

A `Moment` is a reading of a wall clock, in microseconds, with the clock's offset from UTC where
that is known. Moments with an offset are ordered by the instant they name, those without one by
their reading; the two kinds cannot be compared. Years run from 1 to 9999, and arithmetic that
leaves this range fails.
-/

namespace Rulebook

/-- Microseconds in a second. -/
def microsPerSecond : Int := 1000000

/-- Microseconds in a minute. -/
def microsPerMinute : Int := 60 * microsPerSecond

/-- Microseconds in an hour. -/
def microsPerHour : Int := 60 * microsPerMinute

/-- Microseconds in a day. -/
def microsPerDay : Int := 24 * microsPerHour

/-- A point in time as shown by a clock. -/
structure Moment where
  /-- The clock's reading: microseconds since the start of year 1. -/
  wall : Int
  /-- How far the clock is ahead of UTC, in seconds; `none` if unknown. -/
  offset : Option Int
deriving DecidableEq, Repr, Inhabited

/-- Why a computation with times fails. -/
inductive TimeFault where
  /-- The result lies outside the years 1 to 9999. -/
  | outOfRange
  /-- A length of time is too large to be represented. -/
  | spanTooLong
  /-- A moment with an offset meets one without. -/
  | mixedOffsets
  /-- A division by a length of zero. -/
  | zeroInterval
deriving DecidableEq, Repr

namespace Moment

/-- The first reading after the last representable one. -/
def endOfTime : Int := daysBeforeYear 10000 * microsPerDay

/-- Whether the reading lies in the years 1 to 9999. -/
def inRange (wall : Int) : Bool := 0 ≤ wall && wall < endOfTime

/-- The moment of a UTC clock with the given reading. -/
def utc (wall : Int) : Moment := ⟨wall, some 0⟩

/-- The moment with a date and a time of day in microseconds. -/
def ofDate (d : Date) (micros : Int) (offset : Option Int) : Moment :=
  ⟨d.toDays * microsPerDay + micros, offset⟩

/-- The offset in microseconds, taken as zero if unknown. -/
def offsetMicros (m : Moment) : Int := m.offset.getD 0 * microsPerSecond

/-- The instant in microseconds of UTC; a clock without a known offset is read as UTC. -/
def instant (m : Moment) : Int := m.wall - m.offsetMicros

/-- Whether the offset is known. -/
def isAware (m : Moment) : Bool := m.offset.isSome

/-- The day shown by the clock. -/
def date (m : Moment) : Date := Date.ofDays (m.wall / microsPerDay)

/-- The time of day in microseconds. -/
def timeOfDay (m : Moment) : Int := m.wall % microsPerDay

/-- The same instant on a UTC clock. -/
def toUtc (m : Moment) : Except TimeFault Moment :=
  if inRange m.instant then .ok (utc m.instant) else .error .outOfRange

/-- The day on which the instant falls in UTC; without a known offset, the day shown. -/
def utcDay (m : Moment) : Except TimeFault Date :=
  if m.isAware then m.toUtc.map date else .ok m.date

/-- The moment on a UTC clock, an unknown offset being read as UTC. -/
def normalize (m : Moment) : Except TimeFault Moment :=
  if m.isAware then m.toUtc else .ok (utc m.wall)

/-- The longest representable length of time, in microseconds. -/
def maxSpan : Int := 1000000000 * microsPerDay - 1

/-- Shifts the clock's reading. -/
def add (m : Moment) (micros : Int) : Except TimeFault Moment :=
  if inRange (m.wall + micros) then .ok { m with wall := m.wall + micros } else .error .outOfRange

/-- The microseconds from the second moment to the first. -/
def since (later earlier : Moment) : Except TimeFault Int :=
  if later.isAware = earlier.isAware then .ok (later.instant - earlier.instant)
  else .error .mixedOffsets

/-- Whether the first moment precedes the second. -/
def before (a b : Moment) : Except TimeFault Bool :=
  (a.since b).map (· < 0)

/-- Whether two moments are the same point in time. -/
def same (a b : Moment) : Bool := a.isAware == b.isAware && a.instant == b.instant

/-- The time of day, with six decimals of a second where these are not zero. -/
def timeText (m : Moment) : String :=
  let t := m.timeOfDay
  let micros := t % microsPerSecond
  let clock := Date.padded 2 (t / microsPerHour) ++ ":" ++
    Date.padded 2 (t / microsPerMinute % 60) ++ ":" ++ Date.padded 2 (t / microsPerSecond % 60)
  if micros = 0 then clock else clock ++ "." ++ Date.padded 6 micros

/-- The offset as sign, hours and minutes, with seconds where these are not zero. -/
def offsetText (seconds : Int) : String :=
  let sign := if seconds < 0 then "-" else "+"
  let n : Int := seconds.natAbs
  let short := sign ++ Date.padded 2 (n / 3600) ++ ":" ++ Date.padded 2 (n / 60 % 60)
  if n % 60 = 0 then short else short ++ ":" ++ Date.padded 2 (n % 60)

/-- Date, separator, time and, where known, the numeric offset. -/
def textWith (separator : String) (m : Moment) : String :=
  m.date.text ++ separator ++ m.timeText ++ (m.offset.map offsetText).getD ""

/-- The ISO form with a numeric offset. -/
def isoText (m : Moment) : String := m.textWith "T"

/-- The ISO form in which UTC is written `Z`. -/
def text (m : Moment) : String :=
  m.date.text ++ "T" ++ m.timeText ++
    match m.offset with
    | none => ""
    | some 0 => "Z"
    | some n => offsetText n

end Moment

end Rulebook
