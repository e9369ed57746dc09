import Rulebook.Value.Literal
/-!
# Checked reading of payloads

Reading a payload gives a value or the list of everything that is wrong with it, each issue with its
place. `Checked` is applicative: the issues of all parts of a record are collected in the order of
the fields. `Checked.andThen` is for rules about a whole record, which are looked at only when all
parts are valid.
-/

namespace Rulebook

/-- A step from a value to a part of it. -/
inductive Key where
  /-- A field, or a tag that selects a variant. -/
  | name (s : String)
  /-- An item of a list. -/
  | index (n : Nat)
deriving DecidableEq, Repr

/-- What can be wrong with a part of a payload. -/
inductive Flaw where
  /-- A required field is absent. -/
  | missing
  /-- Not a text. -/
  | notText
  /-- A text with fewer characters than required. -/
  | tooShort (least : Nat)
  /-- A text with more characters than allowed. -/
  | tooLong (most : Nat)
  /-- A list with fewer items than required. -/
  | tooFewItems (least actual : Nat)
  /-- Not an integer. -/
  | notInteger
  /-- A text that is not the numeral of an integer. -/
  | notIntegerText
  /-- A numeral of an integer that is too long. -/
  | integerTooLong
  /-- A number with a fraction where an integer is required. -/
  | fractional
  /-- An infinity or no number where a finite one is required. -/
  | notFinite
  /-- Not a number. -/
  | notNumber
  /-- A text that is not a numeral. -/
  | notNumberText
  /-- Not a truth value. -/
  | notBool
  /-- A text or number that does not stand for a truth value. -/
  | notBoolText
  /-- A number below the bound, which is allowed itself. -/
  | below (bound : String)
  /-- A number above the bound, which is allowed itself. -/
  | above (bound : String)
  /-- A number that has to exceed the bound. -/
  | notAbove (bound : String)
  /-- Not an object. -/
  | notObject
  /-- Not a list. -/
  | notList
  /-- Not an object, where one of the named model is required. -/
  | notModel (model : String)
  /-- Not an object, where a variant is to be selected or a body is read. -/
  | notRecord
  /-- Not one of the allowed names. -/
  | notAllowed (names : List String)
  /-- No tag to select a variant by. -/
  | noTag
  /-- A tag of no variant. -/
  | badTag (tag : String) (tags : List String)
  /-- A rule about a whole record is broken. -/
  | rule (text : String)
  /-- Not a point in time. -/
  | notMoment
  /-- A text that is not a point in time. -/
  | badMoment (reason : String)
  /-- A text that is neither a point in time nor a date. -/
  | badMomentOrDate (reason : String)
  /-- Not a day. -/
  | notDay
  /-- A text or number that stands for no day. -/
  | badDay (reason : String)
  /-- A point in time that is not the start of a day. -/
  | inexactDay
  /-- A body that is not JSON. -/
  | notJson
deriving DecidableEq, Repr

namespace Flaw

/-- Quoted names with commas, the last one joined by `or`. -/
def alternatives (names : List String) : String :=
  let quoted := names.map fun n => "'" ++ n ++ "'"
  match quoted.reverse with
  | [] => ""
  | [n] => n
  | last :: before => ", ".intercalate before.reverse ++ " or " ++ last

/-- A count with its noun. -/
def counted (n : Nat) (noun : String) : String :=
  Decimal.intText n ++ " " ++ noun ++ (if n = 1 then "" else "s")

/-- The kind of a flaw, as programs tell them apart. -/
def kind : Flaw → String
  | missing => "missing"
  | notText => "string_type"
  | tooShort _ => "string_too_short"
  | tooLong _ => "string_too_long"
  | tooFewItems _ _ => "too_short"
  | notInteger => "int_type"
  | notIntegerText => "int_parsing"
  | integerTooLong => "int_parsing_size"
  | fractional => "int_from_float"
  | notFinite => "finite_number"
  | notNumber => "float_type"
  | notNumberText => "float_parsing"
  | notBool => "bool_type"
  | notBoolText => "bool_parsing"
  | below _ => "greater_than_equal"
  | above _ => "less_than_equal"
  | notAbove _ => "greater_than"
  | notObject => "dict_type"
  | notList => "list_type"
  | notModel _ => "model_type"
  | notRecord => "model_attributes_type"
  | notAllowed _ => "literal_error"
  | noTag => "union_tag_not_found"
  | badTag _ _ => "union_tag_invalid"
  | rule _ => "value_error"
  | notMoment => "datetime_type"
  | badMoment _ => "datetime_parsing"
  | badMomentOrDate _ => "datetime_from_date_parsing"
  | notDay => "date_type"
  | badDay _ => "date_from_datetime_parsing"
  | inexactDay => "date_from_datetime_inexact"
  | notJson => "json_invalid"

/-- The wording of a flaw. -/
def message : Flaw → String
  | missing => "Field required"
  | notText => "Input should be a valid string"
  | tooShort n => "String should have at least " ++ counted n "character"
  | tooLong n => "String should have at most " ++ counted n "character"
  | tooFewItems n k => "List should have at least " ++ counted n "item" ++
      " after validation, not " ++ Decimal.intText k
  | notInteger => "Input should be a valid integer"
  | notIntegerText => "Input should be a valid integer, unable to parse string as an integer"
  | integerTooLong => "Unable to parse input string as an integer, exceeded maximum size"
  | fractional => "Input should be a valid integer, got a number with a fractional part"
  | notFinite => "Input should be a finite number"
  | notNumber => "Input should be a valid number"
  | notNumberText => "Input should be a valid number, unable to parse string as a number"
  | notBool => "Input should be a valid boolean"
  | notBoolText => "Input should be a valid boolean, unable to interpret input"
  | below b => "Input should be greater than or equal to " ++ b
  | above b => "Input should be less than or equal to " ++ b
  | notAbove b => "Input should be greater than " ++ b
  | notObject => "Input should be a valid dictionary"
  | notList => "Input should be a valid list"
  | notModel m => "Input should be a valid dictionary or instance of " ++ m
  | notRecord => "Input should be a valid dictionary or object to extract fields from"
  | notAllowed names => "Input should be " ++ alternatives names
  | noTag => "Unable to extract tag using discriminator 'type'"
  | badTag tag tags => "Input tag '" ++ tag ++
      "' found using 'type' does not match any of the expected tags: " ++
      ", ".intercalate (tags.map fun t => "'" ++ t ++ "'")
  | rule text => "Value error, " ++ text
  | notMoment => "Input should be a valid datetime"
  | badMoment r => "Input should be a valid datetime, " ++ r
  | badMomentOrDate r => "Input should be a valid datetime or date, " ++ r
  | notDay => "Input should be a valid date"
  | badDay r => "Input should be a valid date or datetime, " ++ r
  | inexactDay => "Datetimes provided to dates should have zero time - e.g. be exact dates"
  | notJson => "JSON decode error"

end Flaw

/-- A flaw and its place. -/
structure Issue where
  /-- The steps from the payload to the place. -/
  place : List Key
  /-- What is wrong there. -/
  flaw : Flaw
deriving DecidableEq, Repr

/-- The result of reading: a value, or what is wrong. -/
inductive Checked (α : Type) where
  /-- The payload is valid. -/
  | valid (a : α)
  /-- The payload has issues. -/
  | invalid (issues : List Issue)

namespace Checked

variable {α β : Type}

/-- Applies a function to a valid result. -/
def map (f : α → β) : Checked α → Checked β
  | valid a => valid (f a)
  | invalid is => invalid is

/-- Applies a checked function to a checked argument; the issues of both are collected. -/
def apply : Checked (α → β) → Checked α → Checked β
  | valid f, valid a => valid (f a)
  | valid _, invalid is => invalid is
  | invalid is, valid _ => invalid is
  | invalid is, invalid js => invalid (is ++ js)

instance : Applicative Checked where
  pure := valid
  seq f a := apply f (a ())

/-- A further reading of a valid result. -/
def andThen (c : Checked α) (f : α → Checked β) : Checked β :=
  match c with
  | valid a => f a
  | invalid is => invalid is

/-- A single flaw at the present place. -/
def fail (f : Flaw) : Checked α := invalid [⟨[], f⟩]

/-- Moves the issues to a part. -/
def within (k : Key) : Checked α → Checked α
  | valid a => valid a
  | invalid is => invalid (is.map fun i => { i with place := k :: i.place })

/-- The value, if valid. -/
def value? : Checked α → Option α
  | valid a => some a
  | invalid _ => none

/-- The result with issues as errors. -/
def toExcept : Checked α → Except (List Issue) α
  | valid a => .ok a
  | invalid is => .error is

/-- Reads every item of a list and collects the issues of all. -/
def all (read : Nat → α → Checked β) (first : Nat) : List α → Checked (List β)
  | [] => valid []
  | a :: l =>
    apply (map List.cons ((read first a).within (.index first))) (all read (first + 1) l)

end Checked

end Rulebook
