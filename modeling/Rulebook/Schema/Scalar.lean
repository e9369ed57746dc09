import Rulebook.Schema.Checked
import Rulebook.Schema.MomentText
import Rulebook.Text.Character
import Rulebook.Value.Equality
/-!
# Readers of simple values

Numbers and truth values are read leniently: from numerals and words in texts, and from numbers of
the other kind where nothing is lost.
-/

namespace Rulebook

/-- A reader of payloads. -/
abbrev Schema (α : Type) := Value → Checked α

/-- A finite type whose members have names. -/
class Enumeration (α : Type) where
  /-- The members, in the order in which they are listed. -/
  members : List α
  /-- The name of a member. -/
  name : α → String

namespace Schema

variable {α : Type}

/-- Anything. -/
def any : Schema Value := .valid

/-- A text. -/
def text : Schema String
  | .text s => .valid s
  | _ => .fail .notText

/-- A text whose length lies between the bounds. -/
def textOfLength (least : Nat) (most : Option Nat) : Schema String := fun v =>
  (text v).andThen fun s =>
    match most with
    | some n =>
      if n < s.length then .fail (.tooLong n)
      else if s.length < least then .fail (.tooShort least) else .valid s
    | none => if s.length < least then .fail (.tooShort least) else .valid s

/-- White space at the ends of numerals. -/
def isNumeralSpace (c : Char) : Bool :=
  Text.isBlank c && !(0x1c ≤ c.toNat && c.toNat < 0x20)

/-- Removes single underscores between other characters. -/
def dropUnderscores? (cs : List Char) : Option (List Char) :=
  let bad := cs.head? == some '_' || cs.getLast? == some '_' ||
    (cs.zip cs.tail).any fun (a, b) => a == '_' && b == '_'
  if bad then none else some (cs.filter (· ≠ '_'))

/-- The numeral without a fraction that consists of zeros. -/
def dropZeroFraction (cs : List Char) : List Char :=
  match cs.dropWhile (· ≠ '.') with
  | '.' :: zeros => if zeros.all (· == '0') then cs.takeWhile (· ≠ '.') else cs
  | _ => cs

/-- Reads the numeral of an integer. -/
def integerText? (cs : List Char) : Option Int := do
  let (negative, body) := match cs with
    | '-' :: r => (true, r)
    | '+' :: r => (false, r)
    | r => (false, r)
  let ds ← dropUnderscores? (dropZeroFraction body)
  if ds.isEmpty || !ds.all Decimal.isDigit then none
  else
    let n : Int := Decimal.ofDigits ds
    some (if negative then -n else n)

/-- The most characters of the numeral of an integer. -/
def maxNumeral : Nat := 4300

/-- The least and the first excluded integer that a whole binary64 number may stand for. -/
def wordBound : Int := Nat.pow 2 63

/-- The integer that a number stands for. -/
def integerOfFloat (x : Float) : Checked Int :=
  match Binary64.view x with
  | .finite e =>
    if !e.isInteger then .fail .fractional
    else if -wordBound < e.truncate && e.truncate < wordBound then .valid e.truncate
    else .fail .integerTooLong
  | _ => .fail .notFinite

/-- An integer. -/
def int : Schema Int
  | .int n => .valid n
  | .bool b => .valid (if b then 1 else 0)
  | .float x => integerOfFloat x
  | .text s =>
    let cs := Text.trimBy isNumeralSpace s.toList
    if maxNumeral < cs.length then .fail .integerTooLong
    else match integerText? cs with
      | some n => .valid n
      | none => .fail .notIntegerText
  | _ => .fail .notInteger

/-- An integer between the bounds. -/
def intBetween (least : Int) (most : Option Int) : Schema Int := fun v =>
  (int v).andThen fun n =>
    match most with
    | some m =>
      if m < n then .fail (.above (Decimal.intText m))
      else if n < least then .fail (.below (Decimal.intText least)) else .valid n
    | none => if n < least then .fail (.below (Decimal.intText least)) else .valid n

/-- Reads a numeral with an optional fraction and exponent. -/
def floatText? (cs : List Char) : Option Float :=
  let plain (cs : List Char) : Option Float := do
    let (negative, body) := match cs with
      | '-' :: r => (true, r)
      | '+' :: r => (false, r)
      | r => (false, r)
    let x ← match Decimal.named? body with
      | some x => some x
      | none => match Decimal.takeNumeral? body with
        | some (n, []) => some n.value
        | _ => none
    some (if negative then -x else x)
  match plain (Text.trimBy isNumeralSpace cs) with
  | some x => some x
  | none => (dropUnderscores? cs).bind plain

/-- A binary64 number. -/
def float : Schema Float
  | .float x => .valid x
  | .int n =>
    match Binary64.ofInt? n with
    | some x => .valid x
    | none => .fail .notNumber
  | .bool b => .valid (if b then 1 else 0)
  | .text s =>
    match floatText? s.toList with
    | some x => .valid x
    | none => .fail .notNumberText
  | _ => .fail .notNumber

/-- A number above zero and at most the given integer. -/
def positiveUpTo (most : Int) : Schema Float := fun v =>
  (float v).andThen fun x =>
    -- a value that is not a number passes neither comparison
    if !(x ≤ Float.ofInt most) then .fail (.above (Decimal.intText most))
    else if !(0 < x) then .fail (.notAbove "0") else .valid x

/-- The words for truth values. -/
def boolWord? (s : String) : Option Bool :=
  match String.ofList (s.toList.map Char.toLower) with
  | "1" | "on" | "t" | "true" | "y" | "yes" => some true
  | "0" | "off" | "f" | "false" | "n" | "no" => some false
  | _ => none

/-- The truth value of an integer, 0 or 1. -/
def boolOfInt (n : Int) : Checked Bool :=
  if n = 0 then .valid false else if n = 1 then .valid true else .fail .notBoolText

/-- A truth value. -/
def bool : Schema Bool
  | .bool b => .valid b
  | .text s =>
    match boolWord? s with
    | some b => .valid b
    | none => .fail .notBoolText
  | .int n => if -wordBound ≤ n && n < wordBound then boolOfInt n else .fail .notBool
  | .float x =>
    match integerOfFloat x with
    | .valid n => boolOfInt n
    | .invalid _ => .fail .notBool
  | _ => .fail .notBool

/-- A point in time: one already, or a text or a number of seconds that stands for one. -/
def moment : Schema Moment
  | .moment m => .valid m
  | .text s => Schema.MomentText.read s
  | .int n => Schema.MomentText.ofNumber n
  | .float x => Schema.MomentText.ofFloat x
  | _ => .fail .notMoment

/-- A day: a date, or a point in time at its start. -/
def day : Schema Date
  | .text s => Schema.MomentText.readDay s
  | .int n => Schema.MomentText.ofMoment (Schema.MomentText.ofNumber n)
  | .float x => Schema.MomentText.ofMoment (Schema.MomentText.ofFloat x)
  | .moment m => Schema.MomentText.dayOf m
  | _ => .fail .notDay

/-- One of the names of a finite type. -/
def named [Enumeration α] : Schema α := fun v =>
  let names := (Enumeration.members : List α).map Enumeration.name
  match v with
  | .text s =>
    match (Enumeration.members : List α).find? fun a => Enumeration.name a == s with
    | some a => .valid a
    | none => .fail (.notAllowed names)
  | _ => .fail (.notAllowed names)

/-- The given name and no other. -/
def constant (name : String) : Schema Unit := fun v =>
  match v with
  | .text s => if s == name then .valid () else .fail (.notAllowed [name])
  | _ => .fail (.notAllowed [name])

/-- Null, or a value of the given kind. -/
def optional (s : Schema α) : Schema (Option α)
  | .null => .valid none
  | v => (s v).map some

/-- A list; the reader of an item is given its position. -/
def listOf (item : Nat → Schema α) : Schema (List α)
  | .list l => Checked.all item 0 l
  | _ => .fail .notList

/-- A list with at least so many items. -/
def listOfAtLeast (least : Nat) (item : Nat → Schema α) : Schema (List α) := fun v =>
  (listOf item v).andThen fun l =>
    if l.length < least then .fail (.tooFewItems least l.length) else .valid l

/-- A list of texts. -/
def texts : Schema (List String) := listOf fun _ => text

/-- An object with any fields. -/
def object : Schema Fields
  | .object fs => .valid fs
  | _ => .fail .notObject

/-- Reads every field of an object and collects the issues of all. -/
def allFields (read : Schema α) : Fields → Checked (List (String × α))
  | [] => .valid []
  | (k, v) :: fs =>
    .apply (.map (fun a l => (k, a) :: l) ((read v).within (.name k))) (allFields read fs)

/-- An object whose fields are texts. -/
def textFields : Schema (List (String × String)) := fun v =>
  (object v).andThen (allFields text)

/-- An object of the named model. -/
def model (name : String) (read : Fields → Checked α) : Schema α
  | .object fs => read fs
  | _ => .fail (.notModel name)

/-- A required field. -/
def required (fs : Fields) (name : String) (s : Schema α) : Checked α :=
  match Fields.get? fs name with
  | some v => (s v).within (.name name)
  | none => .invalid [⟨[.name name], .missing⟩]

/-- A field that may be absent. -/
def defaulted (fs : Fields) (name : String) (s : Schema α) (absent : α) : Checked α :=
  match Fields.get? fs name with
  | some v => (s v).within (.name name)
  | none => .valid absent

/-- One of several variants, selected by the field `type`. -/
def tagged (variants : List (String × (Fields → Checked α))) : Schema α
  | .object fs =>
    match Fields.get? fs "type" with
    | none => .fail .noTag
    | some tag =>
      match variants.find? fun (name, _) => tag.text? == some name with
      | some (name, read) => (read fs).within (.name name)
      | none => .fail (.badTag tag.display (variants.map (·.1)))
  | _ => .fail .notRecord

end Schema

end Rulebook
