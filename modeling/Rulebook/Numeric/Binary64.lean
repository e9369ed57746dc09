/-!
# The exact value of a binary64 number

`Binary64.view` decodes a `Float` into sign, mantissa and power of two. `Binary64.nearest?` goes the
other way: it rounds a quotient of naturals to the nearest binary64 number, ties to the even
mantissa. Every conversion of the library between integers, decimals and `Float` passes through
these two.
-/

namespace Rulebook

/-- The quotient `num / den` rounded to the nearest natural number, a half going to the even one. -/
def roundHalfEven (num den : Nat) : Nat :=
  let q := num / den
  let r := num % den
  if den < 2 * r ∨ (2 * r = den ∧ q % 2 = 1) then q + 1 else q

namespace Binary64

/-- The number `mantissa * 2 ^ exponent`, negated if `negative`. -/
structure Exact where
  /-- The sign, which is kept for zero too. -/
  negative : Bool
  /-- The absolute value in units of `2 ^ exponent`. -/
  mantissa : Nat
  /-- The power of two of one unit. -/
  exponent : Int
deriving DecidableEq, Repr

/-- What a bit pattern stands for. -/
inductive View where
  /-- A finite number. -/
  | finite (x : Exact)
  /-- An infinity. -/
  | infinite (negative : Bool)
  /-- Not a number. -/
  | nan
deriving DecidableEq, Repr

/-- Decodes sign, exponent and fraction of a bit pattern. -/
def view (x : Float) : View :=
  let bits := x.toBits.toNat
  let negative := bits / Nat.pow 2 63 == 1
  let biased : Nat := bits / Nat.pow 2 52 % 2048
  let fraction : Nat := bits % Nat.pow 2 52
  if biased = 2047 then
    if fraction = 0 then .infinite negative else .nan
  else if biased = 0 then .finite ⟨negative, fraction, -1074⟩
  else .finite ⟨negative, fraction + Nat.pow 2 52, (biased : Int) - 1075⟩

namespace Exact

/-- Numerator of the absolute value. -/
def num (x : Exact) : Nat := x.mantissa * Nat.pow 2 x.exponent.toNat

/-- Denominator of the absolute value, a power of two. -/
def den (x : Exact) : Nat := Nat.pow 2 (-x.exponent).toNat

/-- The integer part, rounded towards zero. -/
def truncate (x : Exact) : Int :=
  let n : Int := (x.num / x.den : Nat)
  if x.negative then -n else n

/-- Whether the number has no fractional part. -/
def isInteger (x : Exact) : Bool := x.num % x.den == 0

/-- Compares with an integer, without rounding either side. -/
def compareInt (x : Exact) (n : Int) : Ordering :=
  let signed : Int := if x.negative then -(x.num : Int) else x.num
  compare signed (n * (x.den : Int))

/-- The nearest integer, a half going to the even one. -/
def roundToInt (x : Exact) : Int :=
  let n : Int := (roundHalfEven x.num x.den : Nat)
  if x.negative then -n else n

end Exact

/-- The nonnegative binary64 number with the given mantissa and exponent; `mantissa ≤ 2 ^ 53`, and
`exponent` is -1074 if the mantissa is below `2 ^ 52`. -/
def assemble? (mantissa : Nat) (exponent : Int) : Option Float :=
  let bits := if mantissa < Nat.pow 2 52 then mantissa
    else (exponent + 1074).toNat * Nat.pow 2 52 + mantissa
  if bits < 2047 * Nat.pow 2 52 then some (Float.ofBits bits.toUInt64) else none

/-- The binary64 number nearest to `num / den`, a tie going to the even mantissa, or `none` if it
lies beyond the largest finite one. -/
def nearest? (num den : Nat) : Option Float :=
  if num = 0 ∨ den = 0 then some 0
  else
    let guess : Int := max ((num.log2 : Int) - den.log2 - 53) (-1074)
    let scaled (e : Int) : Nat × Nat := (num * Nat.pow 2 (-e).toNat, den * Nat.pow 2 e.toNat)
    let exponent :=
      let (n, d) := scaled guess
      if n / d < Nat.pow 2 53 then guess else guess + 1
    let (n, d) := scaled exponent
    assemble? (roundHalfEven n d) exponent

/-- The nearest number to a signed quotient. -/
def nearestSigned? (num : Int) (den : Nat) : Option Float :=
  if num < 0 then (nearest? num.natAbs den).map (- ·) else nearest? num.natAbs den

/-- The nearest number to an integer, or `none` if the integer is too large. -/
def ofInt? (n : Int) : Option Float := nearestSigned? n 1

/-- The nearest number to `digits * 10 ^ scale`; infinite if that is too large. -/
def ofDecimal (digits : Nat) (scale : Int) : Float :=
  -- beyond 400 places the value is infinite or zero whatever the digits, so powers stay small
  if digits = 0 then 0
  else
    let magnitude := (digits.log2 : Int) * 3 / 10 + scale
    if 400 < magnitude then 1.0 / 0.0
    else if magnitude < -400 then 0
    else ((nearest? (digits * Nat.pow 10 scale.toNat) (Nat.pow 10 (-scale).toNat)).getD (1.0 / 0.0))

/-- Rounds to the given number of decimal places: the exact value goes to the nearest decimal, a
half to the even one, and that decimal to the nearest binary64 number. -/
def roundPlaces (x : Float) (places : Nat) : Float :=
  match view x with
  | .finite e =>
    let y := (nearest? (roundHalfEven (e.num * Nat.pow 10 places) e.den) (Nat.pow 10 places)).getD x
    if e.negative then -y else y
  | _ => x

/-- The integer nearest to a multiple of a finite number; of two, the even one. -/
def scaledToInt? (x : Float) (factor : Nat) : Option Int :=
  match view x with
  | .finite e =>
    let n : Int := roundHalfEven (e.num * factor) e.den
    some (if e.negative then -n else n)
  | _ => none

/-- Whether the number is finite and has no fractional part. -/
def isInteger (x : Float) : Bool :=
  match view x with
  | .finite e => e.isInteger
  | _ => false

end Binary64

end Rulebook
