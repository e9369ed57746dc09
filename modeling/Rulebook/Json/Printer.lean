import Rulebook.Value.Literal
/-!
# JSON text of values

ASCII text with a blank after each comma and colon. Characters outside ASCII are escaped as UTF-16
units; times are written as texts.
-/

namespace Rulebook.Json

/-- An escape of one UTF-16 unit. -/
def escapeUnit (n : Nat) : List Char := '\\' :: 'u' :: Text.hex 4 n

/-- A character inside a JSON text. -/
def escapeChar (c : Char) : List Char :=
  if c = '"' then ['\\', '"']
  else if c = '\\' then ['\\', '\\']
  else if c = '\n' then ['\\', 'n']
  else if c = '\r' then ['\\', 'r']
  else if c = '\t' then ['\\', 't']
  else if c.toNat = 0x8 then ['\\', 'b']
  else if c.toNat = 0xc then ['\\', 'f']
  else if 0x20 ≤ c.toNat ∧ c.toNat < 0x7f then [c]
  else if c.toNat < 0x10000 then escapeUnit c.toNat
  else
    let n := c.toNat - 0x10000
    escapeUnit (0xd800 + n / 0x400) ++ escapeUnit (0xdc00 + n % 0x400)

/-- A text in JSON form. -/
def quoteText (s : String) : String :=
  String.ofList ('"' :: s.toList.flatMap escapeChar ++ ['"'])

/-- A number in JSON form; numbers that are not finite have names. -/
def floatText (x : Float) : String :=
  match Binary64.view x with
  | .nan => "NaN"
  | .infinite false => "Infinity"
  | .infinite true => "-Infinity"
  | .finite _ => Decimal.text x

/-- A value that is neither list nor object in JSON form. -/
def printFlat : Value → String
  | .null => "null"
  | .bool true => "true"
  | .bool false => "false"
  | .int n => Decimal.intText n
  | .float x => floatText x
  | .text s => quoteText s
  | .moment m => quoteText (m.textWith " ")
  | _ => ""

mutual

/-- A value in JSON form. -/
def print : Value → String
  | .list l => "[" ++ printItems l ++ "]"
  | .object fs => "\x7b" ++ printFields fs ++ "\x7d"
  | v => printFlat v

/-- The items in JSON form, with commas. -/
def printItems : List Value → String
  | [] => ""
  | [v] => print v
  | v :: w :: l => print v ++ ", " ++ printItems (w :: l)

/-- The fields in JSON form, with commas. -/
def printFields : List (String × Value) → String
  | [] => ""
  | [(k, v)] => quoteText k ++ ": " ++ print v
  | (k, v) :: f :: fs => quoteText k ++ ": " ++ print v ++ ", " ++ printFields (f :: fs)

end

end Rulebook.Json
