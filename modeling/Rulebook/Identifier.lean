import Rulebook.Time.Date
/-!
# Identifiers

Identifiers are numbered within their kind, so that no two of one kind are the same.
-/

namespace Rulebook

/-- The fewest digits of an identifier. -/
def identifierDigits : Nat := 4

/-- The identifier of a kind with a number. -/
def identifier (kind : String) (number : Nat) : String :=
  kind ++ "_" ++ Date.padded identifierDigits number

end Rulebook
