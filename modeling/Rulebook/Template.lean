import Rulebook.Json.Printer
import Rulebook.Path
/-!
# Text templates

A token is a path between double braces. `render` puts the value at the path in its place; a token
whose path is malformed, leads nowhere or leads to null stays as it is, and so does all text outside
tokens. Inserted text is not searched for tokens again.
-/

namespace Rulebook

namespace Template

/-- A part of a template. -/
inductive Piece where
  /-- A character outside tokens. -/
  | plain (c : Char)
  /-- A token, by the text between its braces. -/
  | token (body : List Char)
deriving DecidableEq, Repr

/-- The text of a piece in the template. -/
def Piece.source : Piece → List Char
  | .plain c => [c]
  | .token body => '\x7b' :: '\x7b' :: body ++ ['\x7d', '\x7d']

/-- Whether the character is a brace. -/
def isBrace (c : Char) : Bool := c == '\x7b' || c == '\x7d'

/-- The body of the token that starts here, if one does: a text without braces between two opening
and two closing ones. -/
def tokenBody? : List Char → Option (List Char)
  | '\x7b' :: '\x7b' :: r =>
    let body := r.takeWhile fun c => !isBrace c
    match body, r.dropWhile fun c => !isBrace c with
    | _ :: _, '\x7d' :: '\x7d' :: _ => some body
    | _, _ => none
  | _ => none

/-- Splits a template into pieces, from left to right. -/
def pieces : List Char → List Piece
  | [] => []
  | c :: r =>
    match tokenBody? (c :: r) with
    | some body => .token body :: pieces (r.drop (body.length + 3))
    | none => .plain c :: pieces r
termination_by cs => cs.length
decreasing_by all_goals simp only [List.length_cons, List.length_drop]; omega

/-- The text that a value becomes inside a template. -/
def insertion : Value → String
  | .list l => Json.print (.list l)
  | .object fs => Json.print (.object fs)
  | v => v.plain

/-- What a piece becomes. -/
def Piece.render (data : Value) (p : Piece) : Except NumberFault (List Char) :=
  match p with
  | .plain c => .ok [c]
  | .token body =>
    match Path.resolve data (String.ofList body) with
    | .error (.index f) => .error f
    | .error (.path _) => .ok p.source
    | .ok none => .ok p.source
    | .ok (some .null) => .ok p.source
    | .ok (some v) => .ok (insertion v).toList

/-- Fills in a template. -/
def render (template : String) (data : Value) : Except NumberFault String := do
  let parts ← (pieces template.toList).mapM (Piece.render data)
  .ok (String.ofList parts.flatten)

mutual

/-- Fills in every text inside a value; names of fields stay as they are. -/
def renderValue (data : Value) : Value → Except NumberFault Value
  | .text s => (render s data).map .text
  | .list l => (renderItems data l).map .list
  | .object fs => (renderFields data fs).map .object
  | v => .ok v

/-- Fills in the texts of a list. -/
def renderItems (data : Value) : List Value → Except NumberFault (List Value)
  | [] => .ok []
  | v :: l => do
    let w ← renderValue data v
    let r ← renderItems data l
    .ok (w :: r)

/-- Fills in the texts of an object. -/
def renderFields (data : Value) : List (String × Value) →
    Except NumberFault (List (String × Value))
  | [] => .ok []
  | (k, v) :: fs => do
    let w ← renderValue data v
    let r ← renderFields data fs
    .ok ((k, w) :: r)

end

end Template

end Rulebook
