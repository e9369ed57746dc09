import Rulebook.Value.Basic
/-!
# Conditions
-/

namespace Rulebook

/-- How a condition compares a field with its value. -/
inductive Operator where
  /-- Same content. -/
  | equals
  /-- Different content. -/
  | notEquals
  /-- A larger number. -/
  | greaterThan
  /-- A smaller number. -/
  | lessThan
  /-- A list with the value as an item, or a text with it as a part. -/
  | contains
  /-- A text with the value at its start. -/
  | startsWith
  /-- A text with the value at its end. -/
  | endsWith
  /-- An item of the value. -/
  | isIn
  /-- No item of the value. -/
  | notIn
  /-- Present and not null. -/
  | exists
  /-- Absent or null. -/
  | notExists
deriving DecidableEq, Repr

namespace Operator

/-- All operators. -/
def all : List Operator :=
  [equals, notEquals, greaterThan, lessThan, contains, startsWith, endsWith, isIn, notIn, .exists,
    notExists]

/-- The name of an operator. -/
def name : Operator → String
  | equals => "equals"
  | notEquals => "not_equals"
  | greaterThan => "greater_than"
  | lessThan => "less_than"
  | contains => "contains"
  | startsWith => "starts_with"
  | endsWith => "ends_with"
  | isIn => "in"
  | notIn => "not_in"
  | .exists => "exists"
  | notExists => "not_exists"

/-- The operator of that name. -/
def ofName? (s : String) : Option Operator := all.find? (·.name == s)

end Operator

/-- How a condition joins those before it. -/
inductive Connective where
  /-- Both must hold. -/
  | and
  /-- One must hold. -/
  | or
deriving DecidableEq, Repr

namespace Connective

/-- The name of a connective. -/
def name : Connective → String
  | .and => "and"
  | .or => "or"

/-- Joins two truth values. -/
def apply : Connective → Bool → Bool → Bool
  | .and, a, b => a && b
  | .or, a, b => a || b

end Connective

/-- A test of one field. -/
structure Condition where
  /-- Its identifier. -/
  id : String
  /-- The path of the field. -/
  field : String
  /-- The comparison. -/
  operator : Operator
  /-- What the field is compared with. -/
  value : Value
  /-- How the result joins those of earlier conditions. -/
  connective : Connective
  /-- The group in which the condition is joined, if any. -/
  group : Option String

/-- The group of a condition; an empty name is no group. -/
def Condition.groupName? (c : Condition) : Option String :=
  match c.group with
  | some g => if g.isEmpty then none else some g
  | none => none

end Rulebook
