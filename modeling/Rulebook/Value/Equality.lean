import Rulebook.Value.Basic
/-!
# Equality and order of values

`Value.agrees` compares by content: numbers by their exact value whatever their kind, truth values
as the numbers 0 and 1, lists element by element, objects by their fields in any order.
`Value.equals` is the comparison of conditions, which in addition keeps truth values and numbers
apart at the top.
-/

namespace Rulebook

/-- Why a number cannot be read or converted. -/
inductive NumberFault where
  /-- A character of the text counts as a digit but has no decimal value. -/
  | noDecimalValue (text : String)
  /-- A numeral has too many digits. -/
  | tooManyDigits (count : Nat)
  /-- An integer lies beyond the largest binary64 number. -/
  | tooLargeForFloat
deriving DecidableEq, Repr

/-- A number of either kind. -/
inductive Number where
  /-- An integer. -/
  | int (n : Int)
  /-- A binary64 number. -/
  | float (x : Float)

/-- Whether two numbers have the same exact value. -/
def Number.same : Number → Number → Bool
  | .int m, .int n => m == n
  | .float x, .float y => x == y
  | .int n, .float x => floatIs x n
  | .float x, .int n => floatIs x n
where
  /-- Whether a binary64 number is exactly an integer. -/
  floatIs (x : Float) (n : Int) : Bool :=
    match Binary64.view x with
    | .finite e => e.compareInt n == .eq
    | _ => false

namespace Value

/-- The value as a number; truth values count as 0 and 1. -/
def number? : Value → Option Number
  | .int n => some (.int n)
  | .float x => some (.float x)
  | .bool b => some (.int (if b then 1 else 0))
  | _ => none

/-- Whether the value is a truth value. -/
def isBool : Value → Bool
  | .bool _ => true
  | _ => false

/-- Whether the value is a number, truth values excepted. -/
def isNumber : Value → Bool
  | .int _ => true
  | .float _ => true
  | _ => false

/-- Compares two values other than lists and objects. -/
def agreesFlat (v w : Value) : Bool :=
  match v, w with
  | .null, .null => true
  | .text s, .text t => s == t
  | .moment m, .moment n => m.same n
  | _, _ =>
    match v.number?, w.number? with
    | some m, some n => m.same n
    | _, _ => false

mutual

/-- Whether two values have the same content. -/
def agrees : Value → Value → Bool
  | .list l, .list r => agreesAll l r
  | .object fs, .object gs => fs.length == gs.length && agreesFields fs gs
  | v, w => agreesFlat v w

/-- Whether two lists have the same content, element by element. -/
def agreesAll : List Value → List Value → Bool
  | [], [] => true
  | v :: l, w :: r => agrees v w && agreesAll l r
  | _, _ => false

/-- Whether each of the fields is matched by a field of the other object. -/
def agreesFields : List (String × Value) → Fields → Bool
  | [], _ => true
  | (k, v) :: fs, gs =>
    (match Fields.get? gs k with
      | some w => agrees v w
      | none => false) && agreesFields fs gs

end

/-- Equality as conditions see it: a truth value equals no number. -/
def equals (v w : Value) : Bool :=
  v.isBool == w.isBool && v.isNumber == w.isNumber && agrees v w

end Value

end Rulebook
