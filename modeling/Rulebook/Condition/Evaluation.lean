import Rulebook.Condition.Basic
import Rulebook.Log
import Rulebook.Path
/-!
# Evaluation of conditions

A condition resolves its path in the data and compares. A malformed path or an unknown operator
makes it false and leaves a note in the log; a number that cannot be converted is a fault of the
whole evaluation. Conditions without a group are joined from the left, starting from true; those of
one group are joined among themselves, starting from the first; all must hold in the end.
-/

namespace Rulebook

/-- Why a condition is void. -/
inductive ConditionError where
  /-- Its path has no segments. -/
  | path (e : PathError)
  /-- Its operator is unknown. -/
  | unsupportedOperator (name : String)
deriving DecidableEq, Repr

/-- The wording of a condition error. -/
def ConditionError.message : ConditionError → String
  | .path e => e.message
  | .unsupportedOperator name => "Unsupported operator '" ++ name ++ "'"

namespace Text

/-- Maps decimal digits of all scripts to ASCII. -/
def asciiDigit (c : Char) : Char :=
  match decimalValue? c with
  | some d => Char.ofNat (48 + d)
  | none => c

/-- Whether the second text starts with the first. -/
def startsWith (p s : List Char) : Bool := p.isPrefixOf s

/-- Whether the second text ends with the first. -/
def endsWith (p s : List Char) : Bool := p.reverse.isPrefixOf s.reverse

/-- Whether the first text occurs in the second. -/
def occursIn (p : List Char) : List Char → Bool
  | [] => p.isEmpty
  | c :: r => p.isPrefixOf (c :: r) || occursIn p r

end Text

namespace Value

/-- The number that a value is compared as: blank texts count as zero, texts are read as decimal
numerals, and what is not a number has none. -/
def measure? : Value → Except NumberFault (Option Float)
  | .int n =>
    match Binary64.ofInt? n with
    | some x => .ok (some x)
    | none => .error .tooLargeForFloat
  | .float x => .ok (some x)
  | .bool b => .ok (some (if b then 1 else 0))
  | .text s =>
    if Text.allBlank s then .ok (some 0)
    else .ok (Decimal.ofText? ((Text.trimBy Text.isBlank s.toList).map Text.asciiDigit))
  | _ => .ok none

end Value

namespace Condition

/-- Compares the measures of two values; false if one of them has none. -/
def compareMeasures (less : Float → Float → Bool) (actual : Option Value) (expected : Value) :
    Except NumberFault Bool := do
  let left ← match actual with
    | some v => v.measure?
    | none => .ok none
  let right ← expected.measure?
  match left, right with
  | some x, some y => .ok (less x y)
  | _, _ => .ok false

/-- Whether a field, absent if `none`, stands in the relation to the expected value. -/
def holds (actual : Option Value) (operator : Operator) (expected : Value) :
    Except NumberFault Bool :=
  let present := match actual with
    | some v => !v.isNull
    | none => false
  let same := match actual with
    | some v => v.equals expected
    | none => false
  let asTexts (test : List Char → List Char → Bool) := match actual with
    | some v => test expected.plain.toList v.plain.toList
    | none => false
  let member? : Option Bool := match expected with
    | .list items => some (items.any fun item => (actual.map (·.equals item)).getD false)
    | _ => none
  match operator with
  | .exists => .ok present
  | .notExists => .ok !present
  | .equals => .ok same
  | .notEquals => .ok !same
  | .greaterThan => compareMeasures (fun x y => y < x) actual expected
  | .lessThan => compareMeasures (fun x y => x < y) actual expected
  | .contains =>
    match actual with
    | some (.list items) => .ok (items.any (·.equals expected))
    | _ => .ok (asTexts Text.occursIn)
  | .startsWith => .ok (asTexts Text.startsWith)
  | .endsWith => .ok (asTexts Text.endsWith)
  | .isIn => .ok (member?.getD false)
  | .notIn => .ok ((member?.map (!·)).getD false)

/-- The outcome of a condition given by the names in it: a truth value, or why it is void. -/
def judge (data : Value) (field operator : String) (expected : Value) :
    Except NumberFault (Except ConditionError Bool) :=
  match Path.resolve data field with
  | .error (.index f) => .error f
  | .error (.path e) => .ok (.error (.path e))
  | .ok actual =>
    match Operator.ofName? operator with
    | some op => (holds actual op expected).map .ok
    | none => .ok (.error (.unsupportedOperator operator))

/-- The outcome of a condition. -/
def outcome (c : Condition) (data : Value) : Except NumberFault (Except ConditionError Bool) :=
  match Path.resolve data c.field with
  | .error (.index f) => .error f
  | .error (.path e) => .ok (.error (.path e))
  | .ok actual => (holds actual c.operator c.value).map .ok

/-- Whether a condition holds; a void one does not. -/
def holdsIn (c : Condition) (data : Value) : Except NumberFault Bool :=
  (c.outcome data).map fun
    | .ok b => b
    | .error _ => false

/-- The note about a void condition. -/
def voidNote (field operator : Value) (e : ConditionError) : LogEntry :=
  ⟨.debug, "condition.invalid",
    [("field", field), ("operator", operator), ("error", .text e.message)]⟩

/-- The results of the groups, in the order of their first conditions. -/
def joinGroup (groups : List (String × Bool)) (g : String) (k : Connective) (b : Bool) :
    List (String × Bool) :=
  if groups.any (·.1 == g) then
    groups.map fun (h, a) => if h == g then (h, k.apply a b) else (h, a)
  else groups ++ [(g, b)]

/-- Joins the results of conditions. -/
def combine (results : List (Condition × Bool)) : Bool :=
  let step := fun (acc : Bool × List (String × Bool)) (r : Condition × Bool) =>
    match r.1.groupName? with
    | some g => (acc.1, joinGroup acc.2 g r.1.connective r.2)
    | none => (r.1.connective.apply acc.1 r.2, acc.2)
  let (overall, groups) := results.foldl step (true, [])
  overall && groups.all (·.2)

/-- Whether the conditions hold together. -/
def allHold (conditions : List Condition) (data : Value) : Except NumberFault Bool := do
  let results ← conditions.mapM fun c => (c.holdsIn data).map fun b => (c, b)
  .ok (combine results)

/-- The notes that an evaluation leaves: one for each void condition before the first fault. -/
def notes (data : Value) : List Condition → List LogEntry
  | [] => []
  | c :: rest =>
    match c.outcome data with
    | .error _ => []
    | .ok (.ok _) => notes data rest
    | .ok (.error e) => voidNote (.text c.field) (.text c.operator.name) e :: notes data rest

end Condition

end Rulebook
