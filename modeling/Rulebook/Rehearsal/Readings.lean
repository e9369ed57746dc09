import Rulebook.Failure
/-!
# Rehearsed readings

Readings of polled conditions that are laid out beforehand. Each poll of a rule takes its next
reading; when they are used up there is nothing to read.
-/

namespace Rulebook

/-- A reading of a polled condition: data, nothing, or a failure. -/
abbrev Reading := Outcome (Option Fields)

/-- The readings that are left for each rule. -/
structure Readings where
  /-- The rules with their readings in order. -/
  left : List (String × List Reading)

/-- Takes the next reading of a rule. -/
def Readings.take (x : Readings) (ruleId : String) : Readings × Reading :=
  match x.left.lookup ruleId with
  | some (reading :: rest) =>
    (⟨x.left.map fun (k, l) => if k == ruleId then (k, rest) else (k, l)⟩, reading)
  | _ => (x, .ok none)

end Rulebook
