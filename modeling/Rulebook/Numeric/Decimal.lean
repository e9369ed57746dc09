import Rulebook.Numeric.Binary64
/-!
# Decimal text of numbers

`shortest` finds the fewest decimal digits that read back as the same binary64 number, and of those
the nearest; `Layout` says how digits and power of ten are written. `ofText?` reads a decimal
numeral.
-/

namespace Rulebook.Decimal

/-- The number `digits * 10 ^ scale`. -/
structure Scaled where
  /-- The significant digits as a natural number. -/
  digits : Nat
  /-- The power of ten of the last digit. -/
  scale : Int
deriving DecidableEq, Repr

/-- The decimal digits of a natural number, most significant first. -/
def digitChars (n : Nat) : List Char := Nat.toDigits 10 n

/-- Drops zeros from the end of the digits, at most `fuel` of them. -/
def Scaled.strip : Nat → Scaled → Scaled
  | 0, s => s
  | fuel + 1, s =>
    if s.digits ≠ 0 ∧ s.digits % 10 = 0 then strip fuel ⟨s.digits / 10, s.scale + 1⟩ else s

/-- The power of ten of the leading digit of `num / den`: the largest `p` with `10 ^ p ≤ num / den`. -/
def magnitude (num den : Nat) : Int :=
  -- the two digit counts give `p` or `p + 1`
  let p : Int := ((digitChars num).length : Int) - (digitChars den).length
  if den * Nat.pow 10 p.toNat ≤ num * Nat.pow 10 (-p).toNat then p else p - 1

/-- Of the two neighbours of `num / den` on the grid `10 ^ scale`, the one that reads back as `x`;
if both do, the nearer, and of two equally near ones the even. -/
def neighbour? (x : Float) (num den : Nat) (scale : Int) : Option Scaled :=
  let n := num * Nat.pow 10 (-scale).toNat
  let d := den * Nat.pow 10 scale.toNat
  let low := n / d
  let readsBack (k : Nat) : Bool := Binary64.ofDecimal k scale == x
  match readsBack low, readsBack (low + 1) with
  | true, true => some ⟨roundHalfEven n d, scale⟩
  | true, false => some ⟨low, scale⟩
  | false, true => some ⟨low + 1, scale⟩
  | false, false => none

/-- The fewest digits that read back as the positive number `x`, whose exact value is `num / den`. -/
def shortest (x : Float) (num den : Nat) : Scaled :=
  let p := magnitude num den
  let found := (List.range 17).findSome? fun (k : Nat) => neighbour? x num den (p - (k : Int))
  (found.getD ⟨0, 0⟩).strip 400

/-- How a decimal number is written. -/
structure Layout where
  /-- The least power of ten of the leading digit that is written without an exponent. -/
  leastPositional : Int
  /-- The first power of ten of the leading digit that is written with an exponent again. -/
  firstScientific : Int
  /-- The least number of digits of an exponent. -/
  exponentDigits : Nat
  /-- Whether a single digit before an exponent is followed by `.0`. -/
  pointBeforeExponent : Bool

/-- Numbers from `0.0001` up to `10 ^ 16` are positional and keep a `.0`; exponents have a sign and
at least two digits. -/
def plain : Layout := ⟨-4, 16, 2, false⟩

/-- Puts zeros in front up to the given width. -/
def padZeros (width : Nat) (ds : List Char) : List Char :=
  List.replicate (width - ds.length) '0' ++ ds

/-- Writes a positive decimal number. -/
def Layout.write (l : Layout) (s : Scaled) : List Char :=
  let ds := digitChars s.digits
  let lead : Int := s.scale + ds.length - 1
  if l.leastPositional ≤ lead ∧ lead < l.firstScientific then
    if lead < 0 then
      ['0', '.'] ++ List.replicate (-lead - 1).toNat '0' ++ ds
    else if 0 ≤ s.scale then
      ds ++ List.replicate s.scale.toNat '0' ++ ['.', '0']
    else
      ds.take (lead.toNat + 1) ++ '.' :: ds.drop (lead.toNat + 1)
  else
    let fraction := match ds with
      | d :: e :: r => d :: '.' :: e :: r
      | short => if l.pointBeforeExponent then short ++ ['.', '0'] else short
    let sign := if lead < 0 then '-' else '+'
    fraction ++ 'e' :: sign :: padZeros l.exponentDigits (digitChars lead.natAbs)

/-- The text of a number: the shortest digits in the plain layout, `inf`, `-inf` or `nan`. -/
def text (x : Float) : String :=
  match Binary64.view x with
  | .nan => "nan"
  | .infinite negative => if negative then "-inf" else "inf"
  | .finite e =>
    let body := if e.mantissa = 0 then ['0', '.', '0']
      else plain.write (shortest x.abs e.num e.den)
    String.ofList (if e.negative then '-' :: body else body)

/-- The positive number `num / den` with at most the given number of significant digits. -/
def significant (count num den : Nat) : Scaled :=
  let scale := magnitude num den - (count : Int) + 1
  Scaled.strip 400 ⟨roundHalfEven (num * Nat.pow 10 (-scale).toNat) (den * Nat.pow 10 scale.toNat), scale⟩

/-- The value of an ASCII digit. -/
def digit? (c : Char) : Option Nat :=
  if '0' ≤ c ∧ c ≤ '9' then some (c.toNat - '0'.toNat) else none

/-- Whether the character is an ASCII digit. -/
def isDigit (c : Char) : Bool := (digit? c).isSome

/-- The number that ASCII digits stand for; other characters count as zero. -/
def ofDigits (ds : List Char) : Nat :=
  ds.foldl (fun n c => 10 * n + (digit? c).getD 0) 0

/-- The parts of an unsigned decimal numeral: the digits before and after the point, whether there
is a point, and the exponent. -/
structure Numeral where
  /-- Digits before the point. -/
  whole : List Char
  /-- Digits after the point. -/
  fraction : List Char
  /-- Whether a point is written. -/
  hasPoint : Bool
  /-- The written exponent. -/
  exponent : Option Int
deriving DecidableEq, Repr

/-- The number that a numeral stands for, rounded to the nearest binary64 number. -/
def Numeral.value (n : Numeral) : Float :=
  -- an exponent of more than a million is cut, since the value is then zero or infinite anyway
  let e := max (-1000000) (min 1000000 (n.exponent.getD 0))
  Binary64.ofDecimal (ofDigits (n.whole ++ n.fraction)) (e - n.fraction.length)

/-- Splits an exponent mark, an optional sign and digits off the front. -/
def takeExponent? : List Char → Option (Int × List Char)
  | c :: r =>
    if c = 'e' ∨ c = 'E' then
      let (negative, body) := match r with
        | '-' :: b => (true, b)
        | '+' :: b => (false, b)
        | b => (false, b)
      let ds := body.takeWhile isDigit
      if ds.isEmpty then none
      else
        let n : Int := ofDigits ds
        some (if negative then -n else n, body.dropWhile isDigit)
    else none
  | [] => none

/-- Reads an unsigned numeral with at least one digit and gives the rest of the text. -/
def takeNumeral? (cs : List Char) : Option (Numeral × List Char) :=
  let whole := cs.takeWhile isDigit
  let (hasPoint, fraction, rest) := match cs.dropWhile isDigit with
    | '.' :: r => (true, r.takeWhile isDigit, r.dropWhile isDigit)
    | r => (false, [], r)
  if whole.isEmpty && fraction.isEmpty then none
  else match takeExponent? rest with
    | some (e, r) => some (⟨whole, fraction, hasPoint, some e⟩, r)
    | none => some (⟨whole, fraction, hasPoint, none⟩, rest)

/-- Removes underscores that stand between two digits; fails if one stands elsewhere. -/
def dropSeparators? : Option Char → List Char → Option (List Char)
  | _, [] => some []
  | before, '_' :: r =>
    match before, r with
    | some b, a :: _ => if isDigit b && isDigit a then dropSeparators? (some '_') r else none
    | _, _ => none
  | _, c :: r => (dropSeparators? (some c) r).map (c :: ·)

/-- The names of the numbers that have no digits. -/
def named? (cs : List Char) : Option Float :=
  match String.ofList (cs.map Char.toLower) with
  | "inf" | "infinity" => some (1.0 / 0.0)
  | "nan" => some (0.0 / 0.0)
  | _ => none

/-- Reads a whole decimal numeral: an optional sign, then digits with an optional point and
exponent, where single underscores may stand between digits, or a named number. -/
def ofText? (cs : List Char) : Option Float := do
  let cs ← dropSeparators? none cs
  let (negative, body) := match cs with
    | '-' :: r => (true, r)
    | '+' :: r => (false, r)
    | r => (false, r)
  let x ← match named? body with
    | some x => some x
    | none => match takeNumeral? body with
      | some (n, []) => some n.value
      | _ => none
  some (if negative then -x else x)

/-- The text of an integer in decimal. -/
def intText (n : Int) : String :=
  if n < 0 then String.ofList ('-' :: digitChars n.natAbs) else String.ofList (digitChars n.natAbs)

end Rulebook.Decimal
