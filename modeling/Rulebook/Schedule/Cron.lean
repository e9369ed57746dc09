import Rulebook.Failure
import Rulebook.Schedule.TimeZone
import Rulebook.Text.Lowercase
/-!
# Cron expressions

A cron expression has five fields: minute, hour, day of the month, month and day of the week, which
is counted from Monday as 0. A field lists terms with commas between them: `*` or `*/n`, a number, a
range `a-b` or `a-b/n`, `a/n`, the name of a month or of a day of the week or a range of such names,
and `last` for the last day of the month. All numbers may be written in decimal digits of any
script. An instant matches if each field has a term that the zone's clocks satisfy then.
-/

namespace Rulebook

/-- The parts of a clock reading, from the year down to the second. -/
inductive CronField where
  /-- The year. -/
  | year
  /-- The month. -/
  | month
  /-- The day of the month. -/
  | day
  /-- The day of the week, Monday being 0. -/
  | weekday
  /-- The hour. -/
  | hour
  /-- The minute. -/
  | minute
  /-- The second. -/
  | second
deriving DecidableEq, Repr

namespace CronField

/-- The name of a field. -/
def name : CronField → String
  | year => "year"
  | month => "month"
  | day => "day"
  | weekday => "day_of_week"
  | hour => "hour"
  | minute => "minute"
  | second => "second"

/-- The least value of a field. -/
def least : CronField → Int
  | year => 1970
  | month => 1
  | day => 1
  | weekday => 0
  | hour => 0
  | minute => 0
  | second => 0

/-- The greatest value of a field. -/
def greatest : CronField → Int
  | year => 9999
  | month => 12
  | day => 31
  | weekday => 6
  | hour => 23
  | minute => 59
  | second => 59

/-- The next finer field. -/
def finer? : CronField → Option CronField
  | year => some month
  | month => some day
  | day => some weekday
  | weekday => some hour
  | hour => some minute
  | minute => some second
  | second => none

end CronField

/-- A term of a field. -/
inductive CronTerm where
  /-- Every value, or every one at a multiple of the step from the least. -/
  | every (step : Option Int)
  /-- The values from the first to the last, or to the greatest, at multiples of the step. -/
  | range (first : Int) (last step : Option Int)
  /-- The last day of the month. -/
  | lastDay
deriving DecidableEq, Repr

namespace CronTerm

/-- The number that digits stand for. -/
def number (digits : List Char) : Int := (Text.numeral? digits).getD 0

/-- Reads digits after a mark: `some none` if the mark is absent. -/
def marked? (mark : Char) : List Char → Option (Option Int × List Char)
  | c :: rest =>
    if c = mark then
      let digits := rest.takeWhile Text.isDecimal
      if digits.isEmpty then none else some (some (number digits), rest.dropWhile Text.isDecimal)
    else some (none, c :: rest)
  | [] => some (none, [])

/-- Reads `*` with an optional step. -/
def every? : List Char → Option CronTerm
  | '*' :: rest =>
    match marked? '/' rest with
    | some (step, []) => some (every step)
    | _ => none
  | _ => none

/-- Reads a number or a range of numbers. -/
def numbers? (cs : List Char) : Option (Int × Option Int × Option Int) := do
  let digits := cs.takeWhile Text.isDecimal
  if digits.isEmpty then none
  else
    let (last, rest) ← marked? '-' (cs.dropWhile Text.isDecimal)
    let (step, rest) ← marked? '/' rest
    if rest.isEmpty then some (number digits, last, step) else none

/-- A range with its parts in order, a lone number being its own last one. -/
def ofRange (first : Int) (last step : Option Int) : Except CronFault CronTerm :=
  if step = some 0 then .error .zeroStep
  else
    let last := if last.isNone ∧ step.isNone then some first else last
    if (last.map fun l => decide (l < first)).getD false then .error .backwards
    else .ok (range first last step)

/-- Letters of names, with the four characters that are letters `i`, `s` or `k` in another case. -/
def isNameLetter (c : Char) : Bool :=
  c.isAlpha || c.toNat == 0x130 || c.toNat == 0x131 || c.toNat == 0x17f || c.toNat == 0x212a

/-- The months in order. -/
def months : List String :=
  ["jan", "feb", "mar", "apr", "may", "jun", "jul", "aug", "sep", "oct", "nov", "dec"]

/-- The days of the week in order. -/
def weekdays : List String := ["mon", "tue", "wed", "thu", "fri", "sat", "sun"]

/-- The position of a name in a list, in any case of letters. -/
def position? (names : List String) (name : String) : Option Int :=
  (names.findIdx? (· == Text.lower name)).map fun i => (i : Int)

/-- Reads a name or a range of names at the start of a term; what follows does not matter. -/
def names? (cs : List Char) : Option (String × Option String) :=
  let first := cs.takeWhile isNameLetter
  if first.isEmpty then none
  else
    let last := match cs.dropWhile isNameLetter with
      | '-' :: rest => rest.takeWhile isNameLetter
      | _ => []
    some (String.ofList first, if last.isEmpty then none else some (String.ofList last))

/-- The range between two names that are numbered from `base`. -/
def ofNames (names : List String) (base : Int) (unknown : String → CronFault) (first : String)
    (last : Option String) : Except CronFault CronTerm := do
  let find (name : String) : Except CronFault Int :=
    match position? names name with
    | some i => .ok (base + i)
    | none => .error (unknown name)
  let firstNumber ← find first
  let lastNumber ← match last with
    | some name => (find name).map some
    | none => .ok none
  ofRange firstNumber lastNumber none

/-- Whether a term begins with `last`, in any case of letters. -/
def startsWithLast (cs : List Char) : Bool :=
  let fold (c : Char) : Char := if c.toNat == 0x17f then 's' else c.toLower
  (cs.take 4).map fold == ['l', 'a', 's', 't']

/-- Checks that the values of a term belong to its field. -/
def checked (field : CronField) (text : String) (term : CronTerm) : Except CronFault CronTerm :=
  let total := field.greatest - field.least
  let tooLong (step : Option Int) (range : Int) : Option CronFault :=
    match step with
    | some s => if range < s then some (.stepTooLong text s range) else none
    | none => none
  match term with
  | every step =>
    match tooLong step total with
    | some fault => .error fault
    | none => .ok term
  | range first last step =>
    -- a last value of zero counts as none when the step is compared
    let stop := match last with
      | some 0 => field.greatest
      | some l => l
      | none => field.greatest
    match tooLong step total with
    | some fault => .error fault
    | none =>
      if first < field.least then .error (.tooLow text first field.least)
      else if (last.map fun l => decide (field.greatest < l)).getD false then
        .error (.tooHigh text (last.getD 0) field.greatest)
      else match tooLong step (stop - first) with
        | some fault => .error fault
        | none => .ok term
  | lastDay => .ok term

/-- Reads a term. -/
def read (field : CronField) (text : String) : Except CronFault CronTerm :=
  let cs := text.toList
  match every? cs with
  | some (.every (some 0)) => .error .zeroStep
  | some term => checked field text term
  | none =>
    match numbers? cs with
    | some (first, last, step) => (ofRange first last step).bind (checked field text)
    | none =>
      match field, names? cs with
      | .month, some (first, last) =>
        (ofNames months 1 .badMonth first last).bind (checked field text)
      | .weekday, some (first, last) =>
        (ofNames weekdays 0 .badWeekday first last).bind (checked field text)
      | .day, _ =>
        if startsWithLast cs then .ok lastDay else .error (.unrecognized text field.name)
      | _, _ => .error (.unrecognized text field.name)

/-- The least value from `current` on that satisfies the term, where the field's values lie between
the bounds and `monthEnd` is the last day of the month. -/
def next? (term : CronTerm) (current least greatest monthEnd : Int) : Option Int :=
  let upTo (first last : Int) (step : Option Int) : Option Int :=
    let start := max current first
    let value := match step with
      | some s => start + (s - (start - first)) % s
      | none => start
    if value ≤ last then some value else none
  match term with
  | every step => upTo least greatest step
  | range first last step =>
    upTo (max least first) ((last.map (min greatest ·)).getD greatest) step
  | lastDay => some monthEnd

end CronTerm

/-- A cron expression and the zone whose clocks it is about. -/
structure Cron where
  /-- Terms of the minute. -/
  minute : List CronTerm
  /-- Terms of the hour. -/
  hour : List CronTerm
  /-- Terms of the day of the month. -/
  day : List CronTerm
  /-- Terms of the month. -/
  month : List CronTerm
  /-- Terms of the day of the week. -/
  weekday : List CronTerm
  /-- The zone. -/
  zone : TimeZone

namespace Cron

/-- The texts between blanks. -/
def words (cs : List Char) : List String :=
  ((cs.splitBy fun a b => Text.isBlank a == Text.isBlank b).filter
    fun word => !word.all Text.isBlank).map String.ofList

/-- Reads the terms of a field. -/
def readField (field : CronField) (text : String) : Except CronFault (List CronTerm) :=
  (Path.splitAt ',' text.toList).mapM fun term => CronTerm.read field (String.ofList term)

/-- The zone of a name. Blanks around it do not matter, no name at all means UTC, which may be
written in any case of letters. -/
def readZone (name : String) : Except CronFault TimeZone :=
  let key := Text.trim name
  if key.isEmpty || key.map Char.toUpper == "UTC" then .ok .utc
  else match TimeZone.ofName? key with
    | some zone => .ok zone
    | none => .error (.unknownZone key)

/-- Reads an expression for a zone. -/
def readWith (expression timezone : String) : Except CronFault Cron :=
  match words expression.toList with
  | [minute, hour, day, month, weekday] => do
    let zone ← readZone timezone
    let month ← readField .month month
    let day ← readField .day day
    let weekday ← readField .weekday weekday
    let hour ← readField .hour hour
    let minute ← readField .minute minute
    .ok { minute, hour, day, month, weekday, zone }
  | other => .error (.fieldCount other.length)

/-- Reads an expression for a zone. -/
def read (expression timezone : String) : Except ScheduleError Cron :=
  (readWith expression timezone).mapError (.badCron expression timezone)

/-- The terms of a field. Years are not restricted, and matching instants begin a minute. -/
def terms (c : Cron) : CronField → List CronTerm
  | .year => [.every none]
  | .month => c.month
  | .day => c.day
  | .weekday => c.weekday
  | .hour => c.hour
  | .minute => c.minute
  | .second => [.range 0 (some 0) none]

end Cron

end Rulebook
