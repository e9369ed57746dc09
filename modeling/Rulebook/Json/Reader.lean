import Rulebook.Text.Character
import Rulebook.Value.Basic
/-!
# Reading JSON

`read` accepts one JSON value with blanks around it. Besides standard JSON it reads the names `NaN`,
`Infinity` and `-Infinity`. Numerals with a point or an exponent become binary64 numbers, all others
integers. Of two fields with the same name the last wins, in the place of the first. An error names
its cause and the position of the offending character.
-/

namespace Rulebook.Json

/-- What is wrong with a text. -/
inductive Flaw where
  /-- No value starts here. -/
  | expectingValue
  /-- A field has no name. -/
  | expectingName
  /-- A name is not followed by a colon. -/
  | expectingColon
  /-- An item is followed neither by a comma nor by the end. -/
  | expectingComma
  /-- The value is followed by something else. -/
  | extraData
  /-- A text has no end; the position is that of its start. -/
  | unterminated
  /-- A control character stands in a text. -/
  | controlCharacter
  /-- An unknown character follows a backslash. -/
  | badEscape
  /-- Four hexadecimal digits are missing. -/
  | badUnit
  /-- The text starts with a byte order mark. -/
  | byteOrderMark
  /-- An integer has too many digits. -/
  | tooManyDigits (count : Nat)
deriving DecidableEq, Repr

/-- The wording of a flaw. -/
def Flaw.message : Flaw → String
  | .expectingValue => "Expecting value"
  | .expectingName => "Expecting property name enclosed in double quotes"
  | .expectingColon => "Expecting ':' delimiter"
  | .expectingComma => "Expecting ',' delimiter"
  | .extraData => "Extra data"
  | .unterminated => "Unterminated string starting at"
  | .controlCharacter => "Invalid control character at"
  | .badEscape => "Invalid \\escape"
  | .badUnit => "Invalid \\uXXXX escape"
  | .byteOrderMark => "Unexpected UTF-8 BOM (decode using utf-8-sig)"
  | .tooManyDigits n =>
    "Exceeds the limit (4300 digits) for integer string conversion: value has " ++
      Decimal.intText n ++ " digits; use sys.set_int_max_str_digits() to increase the limit"

/-- A flaw and where it is, given by the characters that remain from there. -/
structure Failure where
  /-- The cause. -/
  flaw : Flaw
  /-- The number of characters from the flaw to the end of the text. -/
  remaining : Nat
deriving DecidableEq, Repr

/-- A flaw at an offset from the start of a text. -/
structure Error where
  /-- The cause. -/
  flaw : Flaw
  /-- The number of characters before it. -/
  position : Nat
deriving DecidableEq, Repr

/-- Cause, line, column and position. -/
def Error.message (e : Error) (text : List Char) : String :=
  match e.flaw with
  | .tooManyDigits _ => e.flaw.message
  | _ =>
    let before := text.take e.position
    let line := before.count '\n' + 1
    let column := (before.reverse.takeWhile (· ≠ '\n')).length + 1
    e.flaw.message ++ ": line " ++ Decimal.intText line ++ " column " ++ Decimal.intText column ++
      " (char " ++ Decimal.intText e.position ++ ")"

/-- Whether the character is a blank of JSON. -/
def isSpace (c : Char) : Bool := c == ' ' || c == '\t' || c == '\n' || c == '\r'

/-- The text without the blanks in front. -/
def skip (cs : List Char) : List Char := cs.dropWhile isSpace

/-- The number written by four hexadecimal digits at the start of a text. -/
def unit? : List Char → Option Nat
  | a :: b :: c :: d :: _ => do
    let a ← Text.hexValue? a
    let b ← Text.hexValue? b
    let c ← Text.hexValue? c
    let d ← Text.hexValue? d
    some (((a * 16 + b) * 16 + c) * 16 + d)
  | _ => none

/-- The character that a backslash and this character stand for. -/
def escape? (c : Char) : Option Char :=
  match c with
  | '"' => some '"'
  | '\\' => some '\\'
  | '/' => some '/'
  | 'b' => some (Char.ofNat 8)
  | 'f' => some (Char.ofNat 12)
  | 'n' => some '\n'
  | 'r' => some '\r'
  | 't' => some '\t'
  | _ => none

/-- The character of a code unit; a lone half of a pair becomes the replacement character. -/
def unitChar (n : Nat) : Char :=
  if 0xd800 ≤ n ∧ n < 0xe000 then Char.ofNat 0xfffd else Char.ofNat n

/-- The second half of a pair at the start of a text, if one follows the given first half. -/
def lowHalf? (n : Nat) (cs : List Char) : Option Nat :=
  if 0xd800 ≤ n ∧ n < 0xdc00 then
    match cs with
    | '\\' :: 'u' :: r =>
      match unit? r with
      | some m => if 0xdc00 ≤ m ∧ m < 0xe000 ∧ 4 < r.length then some m else none
      | none => none
    | _ => none
  else none

/-- Reads the characters of a text up to its closing quote. `start` is the input from the opening
quote on; `skipped` is the number of characters that belong to an escape already read. -/
def readText (start : List Char) (skipped : Nat) (acc : List Char) :
    List Char → Except Failure (String × List Char)
  | [] => .error ⟨.unterminated, start.length⟩
  | c :: r =>
    match skipped with
    | k + 1 => readText start k acc r
    | 0 =>
      if c = '"' then .ok (String.ofList acc.reverse, r)
      else if c = '\\' then
        match r with
        | [] => .error ⟨.unterminated, start.length⟩
        | 'u' :: s =>
          match (if 4 < s.length then unit? s else none) with
          | none => .error ⟨.badUnit, r.length⟩
          | some n =>
            match lowHalf? n (s.drop 4) with
            | some m =>
              let c := Char.ofNat (0x10000 + (n - 0xd800) * 0x400 + (m - 0xdc00))
              readText start 11 (c :: acc) r
            | none => readText start 5 (unitChar n :: acc) r
        | e :: _ =>
          match escape? e with
          | some d => readText start 1 (d :: acc) r
          | none => .error ⟨.badEscape, r.length + 1⟩
      else if c.toNat < 0x20 then .error ⟨.controlCharacter, r.length + 1⟩
      else readText start 0 (c :: acc) r

/-- The most digits of an integer. -/
def maxDigits : Nat := 4300

/-- Reads a numeral; `none` if no digit stands where one has to. -/
def readNumber? (cs : List Char) : Option (Except Failure (Value × List Char)) :=
  let (negative, body) := match cs with
    | '-' :: r => (true, r)
    | r => (false, r)
  let digits := match body with
    | '0' :: _ => ['0']
    | r => r.takeWhile Decimal.isDigit
  let rest := body.drop digits.length
  if digits.isEmpty then none
  else
    let (fraction, rest) := match rest with
      | '.' :: r =>
        let ds := r.takeWhile Decimal.isDigit
        if ds.isEmpty then (none, rest) else (some ds, r.dropWhile Decimal.isDigit)
      | _ => (none, rest)
    let (exponent, rest) := match Decimal.takeExponent? rest with
      | some (e, r) => (some e, r)
      | none => (none, rest)
    match fraction, exponent with
    | none, none =>
      if maxDigits < digits.length then some (.error ⟨.tooManyDigits digits.length, cs.length⟩)
      else
        let n : Int := Decimal.ofDigits digits
        some (.ok (.int (if negative then -n else n), rest))
    | _, _ =>
      let x := (Decimal.Numeral.mk digits (fraction.getD []) fraction.isSome exponent).value
      some (.ok (.float (if negative then -x else x), rest))

/-- The rest of a text after the given characters. -/
def dropFront? : List Char → List Char → Option (List Char)
  | [], cs => some cs
  | a :: as, c :: cs => if a = c then dropFront? as cs else none
  | _ :: _, [] => none

/-- The values that have names, and their names. -/
def names : List (String × Value) := [
  ("null", .null), ("true", .bool true), ("false", .bool false), ("NaN", .float (0.0 / 0.0)),
  ("Infinity", .float (1.0 / 0.0)), ("-Infinity", .float (-1.0 / 0.0))]

/-- Reads a named value or a numeral. -/
def readAtom (cs : List Char) : Except Failure (Value × List Char) :=
  match names.findSome? fun (name, v) => (dropFront? name.toList cs).map fun r => (v, r) with
  | some found => .ok found
  | none => (readNumber? cs).getD (.error ⟨.expectingValue, cs.length⟩)

mutual

/-- Reads a value that starts here. Each call consumes a character, so the length of the text is
enough fuel. -/
def readValue : Nat → List Char → Except Failure (Value × List Char)
  | 0, cs => .error ⟨.expectingValue, cs.length⟩
  | fuel + 1, cs =>
    match cs with
    | '"' :: r => do
      let (s, r) ← readText cs 0 [] r
      .ok (.text s, r)
    | '[' :: r =>
      match skip r with
      | ']' :: s => .ok (.list [], s)
      | s => readItems fuel [] s
    | '\x7b' :: r =>
      match skip r with
      | '\x7d' :: s => .ok (.object [], s)
      | s => readFields fuel [] s
    | _ => readAtom cs

/-- Reads the items of a list up to its end. -/
def readItems : Nat → List Value → List Char → Except Failure (Value × List Char)
  | 0, _, cs => .error ⟨.expectingValue, cs.length⟩
  | fuel + 1, acc, cs => do
    let (v, r) ← readValue fuel cs
    match skip r with
    | ',' :: s => readItems fuel (v :: acc) (skip s)
    | ']' :: s => .ok (.list (v :: acc).reverse, s)
    | s => .error ⟨.expectingComma, s.length⟩

/-- Reads the fields of an object up to its end. -/
def readFields : Nat → Fields → List Char → Except Failure (Value × List Char)
  | 0, _, cs => .error ⟨.expectingName, cs.length⟩
  | fuel + 1, acc, cs =>
    match cs with
    | '"' :: r => do
      let (name, r) ← readText cs 0 [] r
      match skip r with
      | ':' :: s =>
        let (v, r) ← readValue fuel (skip s)
        let acc := Fields.insert acc name v
        match skip r with
        | ',' :: s => readFields fuel acc (skip s)
        | '\x7d' :: s => .ok (.object acc, s)
        | s => .error ⟨.expectingComma, s.length⟩
      | s => .error ⟨.expectingColon, s.length⟩
    | _ => .error ⟨.expectingName, cs.length⟩

end

/-- Reads one value with nothing but blanks around it. -/
def readChars (cs : List Char) : Except Error Value :=
  let result : Except Failure Value :=
    match cs with
    | '\ufeff' :: _ => .error ⟨.byteOrderMark, cs.length⟩
    | _ => do
      let (v, r) ← readValue (cs.length + 1) (skip cs)
      match skip r with
      | [] => .ok v
      | s => .error ⟨.extraData, s.length⟩
  match result with
  | .ok v => .ok v
  | .error f => .error ⟨f.flaw, cs.length - f.remaining⟩

/-- Reads a JSON text. -/
def read (s : String) : Except Error Value := readChars s.toList

end Rulebook.Json
