import Rulebook.Text.Character
import Rulebook.Value.Equality
import Rulebook.Value.Literal
/-!
# Field paths

A path names a place inside a value by segments with dots between them: the name of a field in an
object, the position of an item in a list. Blanks around segments and a leading `$.` mean nothing.
`resolve` gives the value at the place, or `none` if there is no such place, which is not the same
as a null value there.
-/

namespace Rulebook

/-- Why a path has no segments. -/
inductive PathError where
  /-- Nothing but blanks is left of it. -/
  | empty
  /-- A segment is blank. -/
  | malformed (path : String)
deriving DecidableEq, Repr

/-- The wording of a path error. -/
def PathError.message : PathError → String
  | .empty => "Empty field path"
  | .malformed path => "Malformed field path '" ++ path ++ "'"

/-- Why a path cannot be followed. -/
inductive LookupError where
  /-- It has no segments. -/
  | path (e : PathError)
  /-- A segment for a list looks like a number and is none. -/
  | index (f : NumberFault)
deriving DecidableEq, Repr

namespace Path

/-- Splits a text at each occurrence of a character. -/
def splitAt (separator : Char) : List Char → List (List Char)
  | [] => [[]]
  | c :: r =>
    if c = separator then [] :: splitAt separator r
    else match splitAt separator r with
      | s :: rest => (c :: s) :: rest
      | [] => [[c]]

/-- The parts of a text between the occurrences of a character. -/
def parts (separator : Char) (s : String) : List String := (splitAt separator s.toList).map String.ofList

/-- The path without blanks at its ends and without a leading `$.`. -/
def normalize (path : List Char) : List Char :=
  match Text.trimBy Text.isBlank path with
  | '$' :: '.' :: r => r
  | cs => cs

/-- The segments of a path. -/
def segments (path : String) : Except PathError (List String) :=
  match normalize path.toList with
  | [] => .error .empty
  | cs =>
    let parts := splitAt '.' cs
    if parts.any (·.all Text.isBlank) then .error (.malformed path)
    else .ok (parts.map fun part => String.ofList (Text.trimBy Text.isBlank part))

/-- The most digits of a position. -/
def maxDigits : Nat := 4300

/-- The position that a segment stands for; `none` if it does not consist of digits. -/
def index? (segment : String) : Except NumberFault (Option Nat) :=
  let cs := segment.toList
  if cs.isEmpty || !cs.all Text.isDigitSign then .ok none
  else match Text.numeral? cs with
    | none => .error (.noDecimalValue segment)
    | some n => if maxDigits < cs.length then .error (.tooManyDigits cs.length) else .ok (some n)

/-- Follows segments into a value. -/
def follow : List String → Value → Except NumberFault (Option Value)
  | [], v => .ok (some v)
  | s :: rest, .object fs =>
    match Fields.get? fs s with
    | some v => follow rest v
    | none => .ok none
  | s :: rest, .list items => do
    match ← index? s with
    | none => .ok none
    | some n =>
      match items[n]? with
      | some v => follow rest v
      | none => .ok none
  | _ :: _, _ => .ok none

/-- The value at a path. -/
def resolve (data : Value) (path : String) : Except LookupError (Option Value) :=
  match segments path with
  | .error e => .error (.path e)
  | .ok parts => (follow parts data).mapError .index

end Path

/-- The wording of a number fault. -/
def NumberFault.message : NumberFault → String
  | .noDecimalValue text => "invalid literal for int() with base 10: " ++ Text.quoted text
  | .tooManyDigits n =>
    "Exceeds the limit (4300 digits) for integer string conversion: value has " ++
      Decimal.intText n ++ " digits; use sys.set_int_max_str_digits() to increase the limit"
  | .tooLargeForFloat => "int too large to convert to float"

end Rulebook
