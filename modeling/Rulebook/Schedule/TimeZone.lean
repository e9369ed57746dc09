import Rulebook.Time.Moment
/-!
# Time zones

A zone has a standard offset from UTC and, in some years, daylight saving time, when its clocks are
one hour ahead of that. A reading that the clocks show twice at the end of daylight saving time
names its earlier occurrence unless the later one is asked for; a reading that they skip at the
start is taken with the offset before the change, so that it names an instant after the gap, unless
the later one is asked for.
-/

namespace Rulebook

/-- A day on which clocks change, by its place in the month. -/
inductive ChangeDay where
  /-- The given day of the month. -/
  | on (day : Int)
  /-- The first Sunday not before the given day of the month. -/
  | sundayFrom (day : Int)
  /-- The last Sunday of the month. -/
  | lastSunday
deriving DecidableEq, Repr

/-- The date in a year and month. -/
def ChangeDay.inMonth (year month : Int) : ChangeDay → Date
  | .on day => ⟨year, month, day⟩
  | .sundayFrom day => ⟨year, month, day + (6 - Date.weekday ⟨year, month, day⟩)⟩
  | .lastSunday =>
    let last : Date := ⟨year, month, daysInMonth year month⟩
    ⟨year, month, last.day - (last.weekday + 1) % 7⟩

/-- When daylight saving time is in force in a range of years. -/
structure DaylightRule where
  /-- The first year. -/
  first : Int
  /-- The last year; `none` if the rule is still in force. -/
  last : Option Int
  /-- Month and day of its start. -/
  start : Int × ChangeDay
  /-- Month and day of its end. -/
  stop : Int × ChangeDay

/-- A time zone. -/
structure TimeZone where
  /-- The offset from UTC in seconds while daylight saving time is not in force. -/
  standard : Int
  /-- When clocks go forward: seconds of UTC after the start of the day. -/
  startsAt : Int
  /-- When clocks go back: seconds of UTC after the start of the day. -/
  endsAt : Int
  /-- The years with daylight saving time. -/
  daylight : List DaylightRule

namespace TimeZone

/-- What daylight saving time adds to the offset, in seconds. -/
def advance : Int := 3600

/-- A zone whose offset never changes. -/
def fixed (offset : Int) : TimeZone := ⟨offset, 0, 0, []⟩

/-- Coordinated universal time. -/
def utc : TimeZone := fixed 0

/-- Central European Time, since 1970. -/
def berlin : TimeZone :=
  ⟨3600, 3600, 3600,
    [⟨1980, some 1980, (4, .on 6), (9, .lastSunday)⟩,
      ⟨1981, some 1995, (3, .lastSunday), (9, .lastSunday)⟩,
      ⟨1996, none, (3, .lastSunday), (10, .lastSunday)⟩]⟩

/-- Eastern Time, since 1967. -/
def newYork : TimeZone :=
  ⟨-5 * 3600, 7 * 3600, 6 * 3600,
    [⟨1967, some 1973, (4, .lastSunday), (10, .lastSunday)⟩,
      ⟨1974, some 1974, (1, .on 6), (10, .lastSunday)⟩,
      ⟨1975, some 1975, (2, .on 23), (10, .lastSunday)⟩,
      ⟨1976, some 1986, (4, .lastSunday), (10, .lastSunday)⟩,
      ⟨1987, some 2006, (4, .sundayFrom 1), (10, .lastSunday)⟩,
      ⟨2007, none, (3, .sundayFrom 8), (11, .sundayFrom 1)⟩]⟩

/-- The zone of a name in the catalogue. -/
def ofName? : String → Option TimeZone
  | "UTC" | "Etc/UTC" | "GMT" | "Etc/GMT" => some utc
  | "Europe/Berlin" => some berlin
  | "America/New_York" => some newYork
  | "Asia/Kolkata" => some (fixed (5 * 3600 + 1800))
  | "Asia/Tokyo" => some (fixed (9 * 3600))
  | "Etc/GMT+5" => some (fixed (-5 * 3600))
  | _ => none

/-- The rule in force in a year. -/
def ruleIn? (z : TimeZone) (year : Int) : Option DaylightRule :=
  z.daylight.find? fun r => r.first ≤ year && (r.last.map fun last => decide (year ≤ last)).getD true

/-- The second of UTC, counted from the start of year 1, at which a change happens. -/
def changeAt (year : Int) (change : Int × ChangeDay) (second : Int) : Int :=
  (change.2.inMonth year change.1).toDays * 86400 + second

/-- The offset in force at an instant, both in seconds. -/
def offsetAt (z : TimeZone) (instant : Int) : Int :=
  if z.daylight.isEmpty then z.standard
  else
    let year := (Date.ofDays (instant / 86400)).year
    match z.ruleIn? year with
    | some r =>
      if changeAt year r.start z.startsAt ≤ instant ∧ instant < changeAt year r.stop z.endsAt then
        z.standard + advance
      else z.standard
    | none => z.standard

/-- What the zone's clocks show at an instant. -/
def wallAt (z : TimeZone) (instant : Int) : Int := instant + z.offsetAt instant

/-- Whether the clocks showed the same reading an hour before the instant. -/
def isRepeated (z : TimeZone) (instant : Int) : Bool :=
  z.offsetAt (instant - advance) == z.offsetAt instant + advance

/-- The instant at which the clocks show a reading, of two instants the later one if `later`. The
offset is the one in force at the reading taken as daylight saving time, or as standard time if
`later`: that instant precedes a change exactly when the offset before the change applies. -/
def instantOf (z : TimeZone) (wall : Int) (later : Bool) : Int :=
  wall - z.offsetAt (wall - z.standard - if later then 0 else advance)

end TimeZone

end Rulebook
