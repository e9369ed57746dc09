import Rulebook.Schema.Checked
/-!
# Reading points in time

A point in time is written as date, separator, time and optional offset; as a date alone, which
means its first instant on a clock without a known offset; or as a number of seconds since the start
of 1970 in UTC, which is taken as milliseconds if it exceeds twenty thousand millions. A day is
written in the same ways, with a point in time at its start.
-/

namespace Rulebook.Schema.MomentText

/-- A part of a text that is not what it has to be. -/
abbrev Reading (α : Type) := Except String α

/-- A digit, or the reason why it is none. -/
def digitOr (reason : String) (c : Char) : Reading Int :=
  match Decimal.digit? c with
  | some d => .ok d
  | none => .error reason

/-- Two digits, or the reason why there are none. -/
def twoDigits (reason : String) : List Char → Reading (Int × List Char)
  | a :: b :: r => do
    let a ← digitOr reason a
    let b ← digitOr reason b
    .ok (10 * a + b, r)
  | _ => .error reason

/-- What stands after the end. -/
def extraCharacters : String := "unexpected extra characters at the end of the input"

/-- Reads year, month and day and gives the rest. The length of the text is counted in bytes. -/
def date (bytes : Nat) (cs : List Char) : Reading (Date × List Char) :=
  if bytes < 10 then .error "input is too short"
  else match cs with
    | y1 :: y2 :: y3 :: y4 :: s1 :: m1 :: m2 :: s2 :: d1 :: d2 :: rest => do
      let y1 ← digitOr "invalid character in year" y1
      let y2 ← digitOr "invalid character in year" y2
      let y3 ← digitOr "invalid character in year" y3
      let y4 ← digitOr "invalid character in year" y4
      if s1 ≠ '-' then .error "invalid date separator, expected `-`"
      let m1 ← digitOr "invalid character in month" m1
      let m2 ← digitOr "invalid character in month" m2
      if s2 ≠ '-' then .error "invalid date separator, expected `-`"
      let d1 ← digitOr "invalid character in day" d1
      let d2 ← digitOr "invalid character in day" d2
      let d : Date := ⟨((y1 * 10 + y2) * 10 + y3) * 10 + y4, m1 * 10 + m2, d1 * 10 + d2⟩
      if d.month < 1 ∨ 12 < d.month then .error "month value is outside expected range of 1-12"
      else if !d.isValid then .error "day value is outside expected range"
      else .ok (d, rest)
    | y :: _ =>
      if (Decimal.digit? y).isNone then .error "invalid character in year"
      else .error "invalid character in day"
    | [] => .error "input is too short"

/-- The seconds of an offset; less than a day. -/
def offset : List Char → Reading Int
  | [] => .error "invalid timezone sign"
  | sign :: r =>
    if sign == 'Z' || sign == 'z' then if r.isEmpty then .ok 0 else .error extraCharacters
    else
      -- the mathematical minus sign is accepted besides the hyphen
      let negative := sign == '-' || sign == '\u2212'
      if sign != '+' && !negative then .error "invalid timezone sign"
      else do
        let (h, r) ← twoDigits "invalid timezone hour" r
        let (m, r) ← twoDigits "invalid timezone minute" (if r.head? == some ':' then r.tail else r)
        if 59 < m then .error "timezone minute value is outside expected range of 0-59"
        else if 23 < h then .error "timezone offset must be less than 24 hours"
        else if !r.isEmpty then .error extraCharacters
        else
          let n := (h * 60 + m) * 60
          .ok (if negative then -n else n)

/-- The microseconds of a fraction; digits after the sixth are cut off. -/
def fraction (cs : List Char) : Reading (Int × List Char) :=
  let ds := cs.takeWhile Decimal.isDigit
  if ds.isEmpty then .error "second fraction digits missing after `.`"
  else
    let six := (ds ++ List.replicate 6 '0').take 6
    .ok ((Decimal.ofDigits six : Int), cs.dropWhile Decimal.isDigit)

/-- The seconds and their fraction, in microseconds, if there are any, and the rest. -/
def seconds : List Char → Reading (Int × List Char)
  | ':' :: r => do
    let (s, r) ← twoDigits "invalid character in second" r
    if 59 < s then .error "second value is outside expected range of 0-59"
    else match r with
      | '.' :: f | ',' :: f => (fraction f).map fun (micros, r) => (s * microsPerSecond + micros, r)
      | r => .ok (s * microsPerSecond, r)
  | r => .ok (0, r)

/-- The microseconds of a time of day and the rest. -/
def time (cs : List Char) : Reading (Int × List Char) :=
  if cs.length < 5 then .error "input is too short"
  else do
    let (h, r) ← twoDigits "invalid character in hour" cs
    if r.head? != some ':' then .error "invalid time separator, expected `:`"
    else
      let (m, r) ← twoDigits "invalid character in minute" r.tail
      if 23 < h then .error "hour value is outside expected range of 0-23"
      else if 59 < m then .error "minute value is outside expected range of 0-59"
      else (seconds r).map fun (micros, r) => ((h * 60 + m) * microsPerMinute + micros, r)

/-- Date, separator, time and offset, which together are the whole text. -/
def full (bytes : Nat) (cs : List Char) : Reading (Date × Int × Option Int) := do
  let (d, r) ← date bytes cs
  match r with
  | [] => .error "invalid datetime separator, expected `T`, `t`, `_` or space"
  | c :: r =>
    if c ≠ 'T' ∧ c ≠ 't' ∧ c ≠ ' ' ∧ c ≠ '_' then
      .error "invalid datetime separator, expected `T`, `t`, `_` or space"
    else
      let (micros, r) ← time r
      if r.isEmpty then .ok (d, micros, none)
      else (offset r).map fun n => (d, micros, some n)

/-- The day number of the start of 1970. -/
def epochDays : Int := daysBeforeYear 1970

/-- The point in time so many seconds and microseconds after the start of 1970. -/
def ofSeconds (seconds micros : Int) : Reading Moment :=
  if seconds < -11676096000 then
    .error "dates before 1600 are not supported as unix timestamps"
  else if 253402300799 < seconds then
    .error "dates after 9999 are not supported as unix timestamps"
  else .ok (Moment.utc ((epochDays * 86400 + seconds) * microsPerSecond + micros))

/-- The point in time of a number of seconds, or milliseconds if it is large. -/
def ofTimestamp (n micros : Int) : Reading Moment :=
  if n.natAbs ≤ 20000000000 then
    ofSeconds (n + micros / microsPerSecond) (micros % microsPerSecond)
  else
    let total := n % 1000 * 1000 + micros
    ofSeconds (n / 1000 + total / microsPerSecond) (total % microsPerSecond)

/-- Turns a reason into an issue. -/
def orBad {α : Type} (r : Reading α) : Checked α :=
  match r with
  | .ok a => .valid a
  | .error reason => .fail (.badMoment reason)

/-- The point in time that an integer stands for. -/
def ofNumber (n : Int) : Checked Moment := orBad (ofTimestamp n 0)

/-- The point in time that a number stands for. -/
def ofFloat (x : Float) : Checked Moment :=
  match Binary64.view x with
  | .nan => .fail (.badMoment "NaN values not permitted")
  | .infinite true => orBad (ofTimestamp (-(Nat.pow 2 63 : Int)) 0)
  | .infinite false => orBad (ofTimestamp (Nat.pow 2 63 - 1) 0)
  | .finite e =>
    let whole := e.truncate
    let floor := if e.negative && !e.isInteger then whole - 1 else whole
    let rest := e.num - e.num / e.den * e.den
    -- the fraction is that of the absolute value
    let micros : Int := (2 * rest * 1000000 + e.den) / (2 * e.den) |> Int.ofNat
    orBad (ofTimestamp floor micros)

/-- An optional sign and digits. -/
def integer? (cs : List Char) : Option Int :=
  let (negative, ds) := match cs with
    | '-' :: r => (true, r)
    | '+' :: r => (false, r)
    | r => (false, r)
  if ds.isEmpty || !ds.all Decimal.isDigit then none
  else
    let n : Int := Decimal.ofDigits ds
    some (if negative then -n else n)

/-- An integer or a number with a fraction, as a whole part and microseconds. -/
def timestamp? (cs : List Char) : Option (Int × Int) :=
  match integer? cs with
  | some n => some (n, 0)
  | none =>
    match cs.dropWhile (· ≠ '.') with
    | '.' :: f => do
      let n ← integer? (cs.takeWhile (· ≠ '.'))
      let (micros, r) ← (fraction f).toOption
      if r.isEmpty && f.length ≤ 6 then some (n, micros) else none
    | _ => none

/-- The reason why there is no date before year 1. -/
def yearZero : String := "year 0 is out of range"

/-- Reads a point in time from a text. -/
def read (s : String) : Checked Moment :=
  let cs := s.toList
  let bytes := s.utf8ByteSize
  match full bytes cs with
  | .ok (d, micros, offset) =>
    if d.year < 1 then .fail (.badMoment yearZero) else .valid (Moment.ofDate d micros offset)
  | .error _ =>
    match (timestamp? cs).bind fun (n, micros) => (ofTimestamp n micros).toOption with
    | some m => .valid m
    | none =>
      match date bytes cs with
      | .ok (d, []) =>
        if d.year < 1 then .fail (.badMoment yearZero) else .valid (Moment.ofDate d 0 none)
      | .ok _ => .fail (.badMomentOrDate extraCharacters)
      | .error reason => .fail (.badMomentOrDate reason)

/-- The day of a point in time that is the first instant of its day. -/
def dayOf (m : Moment) : Checked Date :=
  if m.timeOfDay = 0 then .valid m.date else .fail .inexactDay

/-- Reads a day from a text: a date alone, or a point in time at the start of the day. -/
def readDay (s : String) : Checked Date :=
  let cs := s.toList
  let bytes := s.utf8ByteSize
  match date bytes cs with
  | .ok (d, []) => if d.year < 1 then .fail (.badDay yearZero) else .valid d
  | _ =>
    match full bytes cs with
    | .ok (d, micros, offset) =>
      if d.year < 1 then .fail (.badDay yearZero) else dayOf (Moment.ofDate d micros offset)
    | .error reason =>
      match timestamp? cs with
      | some (n, micros) =>
        match ofTimestamp n micros with
        | .ok m => dayOf m
        | .error reason => .fail (.badDay reason)
      | none => .fail (.badDay reason)

/-- The reason in an issue about a point in time is one about a day. -/
def ofMoment : Checked Moment → Checked Date
  | .valid m => dayOf m
  | .invalid issues => .invalid (issues.map fun i =>
      match i.flaw with
      | .badMoment reason => { i with flaw := .badDay reason }
      | _ => i)

end Rulebook.Schema.MomentText
