import Rulebook.Text.Character
import Rulebook.Value.Equality
/-!
# Cells of tables

A cell holds null, an integer of 64 bits, a binary64 number or a text. Each kind of column has a
preferred kind of content: what is stored there or compared with it is converted where that loses
nothing.
-/

namespace Rulebook

/-- The content of a cell. -/
inductive Cell where
  /-- Nothing. -/
  | null
  /-- An integer. -/
  | int (n : Int)
  /-- A binary64 number. -/
  | real (x : Float)
  /-- A text. -/
  | text (s : String)

namespace Cell

/-- Whether two cells have the same content; a null has none. -/
def same : Cell → Cell → Bool
  | .int m, .int n => m == n
  | .real x, .real y => x == y
  | .int n, .real x => Number.same.floatIs x n
  | .real x, .int n => Number.same.floatIs x n
  | .text s, .text t => s == t
  | _, _ => false

/-- Whether the cell is null. -/
def isNull : Cell → Bool
  | .null => true
  | _ => false

/-- Whether an integer fits into a cell. -/
def fits (n : Int) : Bool := -(Nat.pow 2 63 : Int) ≤ n && n < Nat.pow 2 63

/-- A number with at most 15 significant digits. -/
def realText (x : Float) : String :=
  match Binary64.view x with
  | .nan => ""
  | .infinite negative => if negative then "-Inf" else "Inf"
  | .finite e =>
    if e.mantissa = 0 then "0.0"
    else
      let body := Decimal.Layout.write ⟨-4, 15, 2, true⟩ (Decimal.significant 15 e.num e.den)
      String.ofList (if e.negative then '-' :: body else body)

/-- Blanks around numerals. -/
def isNumeralBlank (c : Char) : Bool := c == ' ' || (9 ≤ c.toNat && c.toNat ≤ 13)

/-- The integer of a number without a fraction, if it fits. -/
def wholeNumber? (x : Float) : Option Int :=
  match Binary64.view x with
  | .finite e => if e.isInteger && fits e.truncate then some e.truncate else none
  | _ => none

/-- The number that a text stands for, whole numbers being integers. -/
def numeral? (s : String) : Option Cell := do
  let cs := Text.trimBy isNumeralBlank s.toList
  let (negative, body) := match cs with
    | '-' :: r => (true, r)
    | '+' :: r => (false, r)
    | r => (false, r)
  let (n, rest) ← Decimal.takeNumeral? body
  if !rest.isEmpty then none
  else
    let whole : Int := Decimal.ofDigits n.whole
    let whole := if negative then -whole else whole
    if !n.hasPoint && n.exponent.isNone && fits whole then some (.int whole)
    else
      let x := if negative then -n.value else n.value
      some ((wholeNumber? x).elim (.real x) .int)

end Cell

/-- The kinds of columns. -/
inductive ColumnKind where
  /-- Integers. -/
  | integer
  /-- Texts. -/
  | text
  /-- Binary64 numbers. -/
  | real
  /-- Truth values, kept as 0 and 1. -/
  | bool
deriving DecidableEq, Repr

namespace ColumnKind

/-- Converts content to what the column prefers. -/
def prefer (k : ColumnKind) (c : Cell) : Cell :=
  match k, c with
  | .text, .int n => .text (Decimal.intText n)
  | .text, .real x => .text (Cell.realText x)
  | .text, c => c
  | .real, .int n => .real ((Binary64.ofInt? n).getD 0)
  -- zero has no sign in a table
  | .real, .real x => .real (if x == 0 then 0 else x)
  | _, .real x => (Cell.wholeNumber? x).elim (.real x) .int
  | _, .text s => (Cell.numeral? s).getD (.text s)
  | _, c => c

/-- What a cell of the column stands for. -/
def valueOf : ColumnKind → Cell → Value
  | _, .null => .null
  | .bool, .int n => .bool (n != 0)
  | .bool, .real x => .bool (x != 0)
  | .bool, .text s => .bool !s.isEmpty
  | _, .int n => .int n
  | _, .real x => .float x
  | _, .text s => .text s

end ColumnKind

/-- Why a value cannot be handed to a table. -/
inductive CellFault where
  /-- It cannot be converted to what its column holds. -/
  | notConvertible
  /-- It is a list, an object or a time. -/
  | unsupported
  /-- It is an integer of more than 64 bits. -/
  | tooLong
deriving DecidableEq, Repr

namespace Cell

/-- The content that a value stands for. -/
def ofValue : Value → Except CellFault Cell
  | .null => .ok .null
  | .bool b => .ok (.int (if b then 1 else 0))
  | .int n => if fits n then .ok (.int n) else .error .tooLong
  | .float x => .ok (if x.isNaN then .null else .real x)
  | .text s => .ok (.text s)
  | _ => .error .unsupported

end Cell

namespace ColumnKind

/-- Converts a value of a column of numbers or truth values before it is handed over. -/
def convert (k : ColumnKind) (v : Value) : Except CellFault Value :=
  match k, v with
  | _, .null => .ok .null
  | .real, .float x => .ok (.float x)
  | .real, .bool b => .ok (.float (if b then 1 else 0))
  | .real, .int n => match Binary64.ofInt? n with
    | some x => .ok (.float x)
    | none => .error .notConvertible
  | .real, .text s =>
    match Decimal.ofText? (Text.trimBy Text.isBlank s.toList) with
    | some x => .ok (.float x)
    | none => .error .notConvertible
  | .real, _ => .error .notConvertible
  | .bool, .bool b => .ok (.bool b)
  | .bool, .int n => if n = 0 ∨ n = 1 then .ok (.int n) else .error .notConvertible
  | .bool, .float x => if x == 0 ∨ x == 1 then .ok (.int (if x == 0 then 0 else 1))
      else .error .notConvertible
  | .bool, _ => .error .notConvertible
  | _, v => .ok v

/-- Converts a value with which cells of the column are compared: only a value of the column's own
kind, or one of no kind, is converted. -/
def convertForComparison (k : ColumnKind) (v : Value) : Except CellFault Value :=
  match k, v with
  | .real, .float _ | .real, .list _ | .real, .object _ | .real, .moment _ => k.convert v
  | .bool, .list _ | .bool, .object _ | .bool, .moment _ => k.convert v
  | _, v => .ok v

end ColumnKind

end Rulebook
