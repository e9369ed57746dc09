import Rulebook.Numeric.Decimal
/-!
# Calendar dates

Dates of the Gregorian calendar, extended backwards to year 1, and their numbering by days:
day 0 is 1 January of year 1, a Monday.
-/

namespace Rulebook

/-- Whether the year has a 29 February. -/
def isLeapYear (year : Int) : Bool :=
  year % 4 == 0 && (year % 100 != 0 || year % 400 == 0)

/-- The number of days of a month; months are numbered from 1. -/
def daysInMonth (year month : Int) : Int :=
  if month = 2 then (if isLeapYear year then 29 else 28)
  else if month = 4 ∨ month = 6 ∨ month = 9 ∨ month = 11 then 30 else 31

/-- The days of a year before the given month. -/
def daysBeforeMonth (year month : Int) : Int :=
  (List.range 12).foldl (fun (days : Int) (m : Nat) =>
    if (m : Int) + 1 < month then days + daysInMonth year ((m : Int) + 1) else days) 0

/-- The days before 1 January of a year. -/
def daysBeforeYear (year : Int) : Int :=
  let y := year - 1
  y * 365 + y / 4 - y / 100 + y / 400

/-- A date, by year, month and day of the month. -/
structure Date where
  /-- The year. -/
  year : Int
  /-- The month, from 1. -/
  month : Int
  /-- The day of the month, from 1. -/
  day : Int
deriving DecidableEq, Repr, Inhabited

namespace Date

/-- The first year with a date. -/
def minYear : Int := 1

/-- The last year with a date. -/
def maxYear : Int := 9999

/-- Whether month and day exist in the calendar. -/
def isValid (d : Date) : Bool :=
  1 ≤ d.month && d.month ≤ 12 && 1 ≤ d.day && d.day ≤ daysInMonth d.year d.month

/-- The number of the day. -/
def toDays (d : Date) : Int :=
  daysBeforeYear d.year + daysBeforeMonth d.year d.month + (d.day - 1)

/-- The month and day of a day counted from the start of its year. -/
def ofYearDay (year : Int) (dayOfYear : Int) : Date :=
  let month := ((List.range 12).filter fun (m : Nat) =>
    daysBeforeMonth year ((m : Int) + 1) ≤ dayOfYear).length
  ⟨year, month, dayOfYear - daysBeforeMonth year month + 1⟩

/-- The date of a day number. -/
def ofDays (days : Int) : Date :=
  -- the estimate is at most one year too early or too late
  let guess := days * 400 / 146097 + 1
  let year :=
    if days < daysBeforeYear guess then guess - 1
    else if daysBeforeYear (guess + 1) ≤ days then guess + 1
    else guess
  ofYearDay year (days - daysBeforeYear year)

/-- The day of the week, Monday being 0. -/
def weekday (d : Date) : Int := d.toDays % 7

/-- The year and the number of the ISO week, which belongs to the year of its Thursday. -/
def isoWeek (d : Date) : Int × Int :=
  let thursday := d.toDays - d.weekday + 3
  let year := (ofDays thursday).year
  (year, (thursday - daysBeforeYear year) / 7 + 1)

/-- A nonnegative number with leading zeros up to the given width. -/
def padded (width : Nat) (n : Int) : String :=
  String.ofList (Decimal.padZeros width (Decimal.digitChars n.toNat))

/-- Four digits of the year, two of the month and two of the day, with hyphens. -/
def text (d : Date) : String :=
  padded 4 d.year ++ "-" ++ padded 2 d.month ++ "-" ++ padded 2 d.day

end Date

end Rulebook
