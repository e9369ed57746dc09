/-!
# Patterns

A pattern says which texts fit it. A character stands for itself, a point for any character but a
line feed, and a star behind one of these for any number of it. A character with another meaning
stands for itself behind a backslash. A pattern begins where the text begins; it ends where the text
ends, or before a line feed that ends the text.
-/

namespace Rulebook.Pattern

/-- The characters that are escaped. -/
def special : List Char :=
  ['(', ')', '[', ']', '\x7b', '\x7d', '?', '*', '+', '-', '|', '^', '$', '\\', '.', '&', '~', '#',
    ' ', '\t', '\n', '\r', '\x0b', '\x0c']

/-- The pattern that a text alone fits. -/
def escape : List Char → List Char
  | [] => []
  | c :: text => if special.contains c then '\\' :: c :: escape text else c :: escape text

/-- The pattern with each escaped star in it made into a run of characters of one line. -/
def openStars : List Char → List Char
  | '\\' :: '*' :: r => '.' :: '*' :: openStars r
  | c :: r => c :: openStars r
  | [] => []

/-- A sign of a pattern. -/
inductive Sign where
  /-- A character that stands for itself. -/
  | itself (c : Char)
  /-- Any character but a line feed. -/
  | any
  /-- Any number of what stands before. -/
  | star
  /-- A sign with another meaning. -/
  | other
deriving DecidableEq, Repr

/-- The meaning of a character that is not escaped. -/
def Sign.ofChar (c : Char) : Sign :=
  if c = '.' then .any
  else if c = '*' then .star
  else if special.contains c then .other
  else .itself c

/-- The signs of a pattern. -/
def signs : List Char → List Sign
  | '\\' :: c :: r => .itself c :: signs r
  | c :: r => .ofChar c :: signs r
  | [] => []

/-- What a part of a pattern stands for: one character, or any number of them. -/
structure Part where
  /-- The character; none if it may be any but a line feed. -/
  char? : Option Char
  /-- Whether any number of them fits. -/
  repeated : Bool
deriving DecidableEq, Repr

/-- The parts that signs make up, if none of them has another meaning. -/
def parts : List Sign → Option (List Part)
  | [] => some []
  | .itself c :: .star :: r => (parts r).map (⟨some c, true⟩ :: ·)
  | .itself c :: r => (parts r).map (⟨some c, false⟩ :: ·)
  | .any :: .star :: r => (parts r).map (⟨none, true⟩ :: ·)
  | .any :: r => (parts r).map (⟨none, false⟩ :: ·)
  | _ => none

namespace Part

/-- Whether the part stands for a character. -/
def takes (p : Part) (c : Char) : Bool :=
  match p.char? with
  | some d => c == d
  | none => c != '\n'

/-- What is left of a text behind each run of characters that the part stands for. -/
def rests (p : Part) : List Char → List (List Char)
  | [] => [[]]
  | c :: r => (c :: r) :: if p.takes c then p.rests r else []

end Part

/-- Whether a text fits the parts of a pattern. -/
def fits : List Part → List Char → Bool
  | [], text => text.isEmpty || text == ['\n']
  | p :: more, text =>
    if p.repeated then (p.rests text).any (fits more)
    else match text with
      | c :: r => p.takes c && fits more r
      | [] => false

/-- Whether a text fits a pattern. -/
def accepts (pattern text : List Char) : Bool :=
  match parts (signs pattern) with
  | some ps => fits ps text
  | none => false

end Rulebook.Pattern
