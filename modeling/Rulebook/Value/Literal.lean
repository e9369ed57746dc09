import Rulebook.Text.Printable
import Rulebook.Value.Basic
/-!
# Literal and plain text of values

`Value.literal` writes a value with quoted texts and the words `None`, `True` and `False`.
`Value.plain` is the text of a value inside messages: texts as they are, whole numbers without a
fraction, lists joined by commas, objects in literal form.
-/

namespace Rulebook

namespace Text

/-- The last hexadecimal digits of a number, as many as asked for. -/
def hex (width n : Nat) : List Char :=
  Decimal.padZeros width (Nat.toDigits 16 n)

/-- A character inside quotes: backslash, the quote and unprintable characters are escaped. -/
def quoteChar (quote c : Char) : List Char :=
  if c = quote ∨ c = '\\' then ['\\', c]
  else if c = '\n' then ['\\', 'n']
  else if c = '\r' then ['\\', 'r']
  else if c = '\t' then ['\\', 't']
  else if isPrintable c then [c]
  else if c.toNat < 0x100 then '\\' :: 'x' :: hex 2 c.toNat
  else if c.toNat < 0x10000 then '\\' :: 'u' :: hex 4 c.toNat
  else '\\' :: 'U' :: hex 8 c.toNat

/-- The quote for a text: the single one, unless the text has single quotes and no double ones. -/
def quoteFor (cs : List Char) : Char :=
  if cs.contains '\'' && !cs.contains '"' then '"' else '\''

/-- A text in quotes. -/
def quoted (s : String) : String :=
  let q := quoteFor s.toList
  String.ofList (q :: s.toList.flatMap (quoteChar q) ++ [q])

end Text

namespace Value

/-- The text of a value that is neither text, list nor object. -/
def literalFlat : Value → String
  | .null => "None"
  | .bool true => "True"
  | .bool false => "False"
  | .int n => Decimal.intText n
  | .float x => Decimal.text x
  | .moment m => m.textWith " "
  | .text s => Text.quoted s
  | _ => ""

mutual

/-- The literal form of a value. -/
def literal : Value → String
  | .list l => "[" ++ literalItems l ++ "]"
  | .object fs => "\x7b" ++ literalFields fs ++ "\x7d"
  | v => literalFlat v

/-- The literal forms of the items, with commas. -/
def literalItems : List Value → String
  | [] => ""
  | [v] => literal v
  | v :: w :: l => literal v ++ ", " ++ literalItems (w :: l)

/-- The fields in literal form, with commas. -/
def literalFields : List (String × Value) → String
  | [] => ""
  | [(k, v)] => Text.quoted k ++ ": " ++ literal v
  | (k, v) :: f :: fs => Text.quoted k ++ ": " ++ literal v ++ ", " ++ literalFields (f :: fs)

end

/-- The text of a value as it stands in a message: a text itself, anything else in literal form. -/
def display : Value → String
  | .text s => s
  | v => v.literal

/-- The plain text of a number: whole numbers have no fraction. -/
def plainFloat (x : Float) : String :=
  match Binary64.view x with
  | .finite e => if e.isInteger then Decimal.intText e.truncate else Decimal.text x
  | _ => Decimal.text x

mutual

/-- The plain text of a value. -/
def plain : Value → String
  | .null => "null"
  | .bool true => "true"
  | .bool false => "false"
  | .float x => plainFloat x
  | .text s => s
  | .list l => plainItems l
  | v => literal v

/-- The plain texts of the items, joined by commas. -/
def plainItems : List Value → String
  | [] => ""
  | [v] => plain v
  | v :: w :: l => plain v ++ "," ++ plainItems (w :: l)

end

end Value

end Rulebook
