import Rulebook.Text.Character
/-!
# Addresses of mails

A list of addresses has commas between its entries. An entry is a mailbox, which may have a name
before an address in angle brackets, or a group: a name, a colon, mailboxes and a semicolon.
Comments in parentheses count as blanks, and quotes hide the meaning of what they enclose. What
follows an entry up to the next comma is left out, and an entry that has no meaning is an empty
mailbox.
-/

namespace Rulebook

/-- A mailbox. -/
structure Mailbox where
  /-- The name of whom it belongs to; may be empty. -/
  name : String
  /-- The part of the address before the at sign. -/
  localPart : String
  /-- The part of the address after the at sign; may be empty. -/
  domain : String
deriving DecidableEq, Repr

/-- An entry of a list of addresses. -/
inductive Addressee where
  /-- A mailbox. -/
  | mailbox (m : Mailbox)
  /-- A named group of mailboxes. -/
  | group (name : String) (members : List Mailbox)
deriving DecidableEq, Repr

namespace Address

/-- The characters with a meaning of their own. -/
def marks : List Char := "()<>@,:;.\\\"[]".toList

/-- Whether a character is a blank between words. -/
def isGap (c : Char) : Bool := c == ' ' || c == '\t'

/-- A text in quotes. -/
def quote (s : String) : String :=
  String.ofList
    ('"' :: s.toList.flatMap (fun c => if c == '\\' || c == '"' then ['\\', c] else [c]) ++ ['"'])

/-- A text in quotes if it has a character that would be misread. -/
def quoteIf (misread : Char → Bool) (s : String) : String :=
  if s.toList.any misread then quote s else s

/-- A name, in quotes where needed. -/
def writeName : String → String := quoteIf marks.contains

end Address

namespace Mailbox

/-- The mailbox that an entry without meaning stands for. -/
def none : Mailbox := ⟨"", "", ""⟩

/-- The address without the name. -/
def address (m : Mailbox) : String :=
  Address.quoteIf (fun c => c != '.' && (Address.marks.contains c || Address.isGap c)) m.localPart ++
    (if m.domain.isEmpty then "" else "@" ++ m.domain)

/-- The written form of a mailbox. -/
def write (m : Mailbox) : String :=
  if !m.name.isEmpty then Address.writeName m.name ++ " <" ++ m.address ++ ">"
  else if m.address.isEmpty then "<>" else m.address

/-- Whether no part has the end of a line in it. -/
def isOneLine (m : Mailbox) : Bool :=
  [m.name, m.localPart, m.domain].all fun s => s.toList.all fun c => c != '\n' && c != '\r'

end Mailbox

namespace Addressee

/-- The mailboxes of an entry. -/
def mailboxes : Addressee → List Mailbox
  | mailbox m => [m]
  | group _ ms => ms

/-- The written form of an entry. -/
def write : Addressee → String
  | mailbox m => m.write
  | group name members =>
    Address.writeName name ++ ":" ++
      (if members.isEmpty then "" else " " ++ ", ".intercalate (members.map Mailbox.write)) ++ ";"

end Addressee

namespace Address

/-- A sign of a list of addresses. -/
inductive Sign where
  /-- A run of characters without a meaning of their own. -/
  | word (cs : List Char)
  /-- What stands in quotes. -/
  | quoted (cs : List Char)
  /-- Blanks and comments. -/
  | gap
  /-- A character with a meaning of its own. -/
  | mark (c : Char)
deriving DecidableEq, Repr

/-- What encloses a place in a text; what was read of a sign is kept in reverse. -/
inductive Enclosure where
  /-- Nothing. -/
  | nothing
  /-- A word. -/
  | word (read : List Char)
  /-- Quotes. -/
  | quotes (read : List Char)
  /-- A comment in so many others. -/
  | comment (depth : Nat)

/-- The sign that a character is, or what it opens. -/
def Enclosure.enter (c : Char) : List Sign × Enclosure :=
  if c == '"' then ([], .quotes [])
  else if c == '(' then ([], .comment 0)
  else if isGap c then ([.gap], .nothing)
  else if marks.contains c then ([.mark c], .nothing)
  else ([], .word [c])

/-- The signs of a text; a backslash hides the meaning of the character after it. -/
def signs : Enclosure → List Char → List Sign
  | .nothing, [] => []
  | .word w, [] => [.word w.reverse]
  | .quotes q, [] => [.quoted q.reverse]
  | .comment _, [] => [.gap]
  | .nothing, c :: r => (Enclosure.enter c).1 ++ signs (Enclosure.enter c).2 r
  | .word w, c :: r =>
    if marks.contains c || isGap c then
      .word w.reverse :: (Enclosure.enter c).1 ++ signs (Enclosure.enter c).2 r
    else signs (.word (c :: w)) r
  | .quotes q, '\\' :: c :: r => signs (.quotes (c :: q)) r
  | .quotes q, ['\\'] => [.quoted q.reverse]
  | .quotes q, '"' :: r => .quoted q.reverse :: signs .nothing r
  | .quotes q, c :: r => signs (.quotes (c :: q)) r
  | .comment n, '\\' :: _ :: r => signs (.comment n) r
  | .comment n, '(' :: r => signs (.comment (n + 1)) r
  | .comment 0, ')' :: r => .gap :: signs .nothing r
  | .comment (n + 1), ')' :: r => signs (.comment n) r
  | .comment n, _ :: r => signs (.comment n) r

/-- Gaps that follow each other are one. -/
def joinGaps : List Sign → List Sign
  | .gap :: r => .gap :: (joinGaps r).dropWhile (· == .gap)
  | s :: r => s :: joinGaps r
  | [] => []

/-- The text that signs stand for; a gap is one space. -/
def textOf (ss : List Sign) : List Char :=
  ss.flatMap fun
    | .word cs | .quoted cs => cs
    | .gap => [' ']
    | .mark c => [c]

/-- The signs without gaps at their ends. -/
def trim (ss : List Sign) : List Sign :=
  ((ss.dropWhile (· == .gap)).reverse.dropWhile (· == .gap)).reverse

/-- The signs without gaps beside points. -/
def closePoints : List Sign → List Sign
  | .gap :: .mark '.' :: r => .mark '.' :: (closePoints r).dropWhile (· == .gap)
  | .mark '.' :: r => .mark '.' :: (closePoints r).dropWhile (· == .gap)
  | s :: r => s :: closePoints r
  | [] => []

/-- Why an entry is not of the tried form. -/
inductive Refusal where
  /-- It may be of another form. -/
  | otherForm
  /-- The text ends where an address has to begin or to go on. -/
  | unfinished
deriving DecidableEq, Repr

/-- Reading a part of an entry gives the part and what follows it. -/
abbrev Reading (α : Type) := List Sign → Except Refusal (α × List Sign)

/-- Tries a second form where the first is not met. -/
def Reading.or {α : Type} (first second : Reading α) : Reading α := fun ss =>
  match first ss with
  | .error .otherForm => second ss
  | r => r

/-- Whether a sign may stand in a name. -/
def isPhrase : Sign → Bool
  | .mark c => c == '.'
  | _ => true

/-- Reads words with points between them. -/
def words : List Sign → Except Refusal (List Char × List Sign)
  | .word w :: .mark '.' :: r => (words r).map fun (v, r) => (w ++ '.' :: v, r)
  | .word w :: .gap :: r | .word w :: r => .ok (w, r)
  | _ => .error .otherForm

/-- Reads a domain: words with points between them, or anything in square brackets. -/
def domain : Reading String
  | [] => .error .unfinished
  | ss =>
    match ss.dropWhile (· == .gap) with
    | .mark '[' :: r =>
      match r.dropWhile (fun s => s != .mark ']' && s != .mark '[' && s != .gap) with
      | .mark ']' :: rest =>
        .ok (String.ofList
          ('[' :: textOf (r.takeWhile fun s => s != .mark ']') ++ [']']), rest)
      | _ => .error .otherForm
    | r => do
      let (cs, rest) ← words (closePoints r)
      if rest.head? == some (.mark '@') then .error .otherForm
      else .ok (String.ofList (cs.filter (!Text.isBlank ·)), rest)

/-- Reads an address without a name. -/
def plain : Reading Mailbox := fun ss =>
  let isLocal (s : Sign) : Bool := isPhrase s || s == .mark '\\'
  let localPart := trim (ss.takeWhile isLocal)
  if localPart.isEmpty then .error .otherForm
  else
    let written := String.ofList (textOf (closePoints localPart))
    match ss.dropWhile isLocal with
    | .mark '@' :: r => do
      let (d, rest) ← domain r
      .ok (⟨"", written, d⟩, rest)
    | rest => .ok (⟨"", written, ""⟩, rest)

/-- Reads an address in angle brackets. -/
def bracketed : Reading Mailbox
  | [.mark '<'] => .error .unfinished
  | .mark '<' :: .mark '>' :: r => .ok (.none, r)
  | .mark '<' :: r => do
    let (m, rest) ← plain r
    .ok (m, if rest.head? == some (.mark '>') then rest.tail else rest)
  | _ => .error .otherForm

/-- Reads a name and an address in angle brackets. -/
def named : Reading Mailbox := fun ss => do
  let name := String.ofList (textOf (trim (ss.takeWhile isPhrase)))
  let (m, rest) ← bracketed (ss.dropWhile isPhrase)
  .ok ({ m with name }, rest)

/-- Reads a mailbox. -/
def mailbox : Reading Mailbox := named.or plain

/-- The parts of a list, each but the last with the comma after it. -/
def parts : List Sign → List (List Sign)
  | [] => []
  | s :: r =>
    if s == .mark ',' then [s] :: parts r
    else match parts r with
      | p :: ps => (s :: p) :: ps
      | [] => [[s]]

/-- The mailbox that a part stands for, if the part is not empty, and what follows it up to one of
the given marks. -/
def member (ends : List Char) (ss : List Sign) : Except Refusal (Option Mailbox × List Sign) :=
  let goesOn : Sign → Bool
    | .mark c => !ends.contains c
    | _ => true
  let r := ss.dropWhile (· == .gap)
  if r.isEmpty || r.head?.any (fun s => !goesOn s) then .ok (none, r)
  else match mailbox ss with
    | .ok (m, rest) => .ok (some m, rest.dropWhile goesOn)
    | .error .otherForm => .ok (some .none, ss.dropWhile goesOn)
    | .error .unfinished => .error .unfinished

/-- The name of a group that begins a part, and what follows the colon. -/
def groupName? (ss : List Sign) : Option (String × List Sign) :=
  match ss.dropWhile isPhrase with
  | .mark ':' :: r => some (String.ofList (textOf (trim (ss.takeWhile isPhrase))), r)
  | _ => none

/-- A group that is open while its members are read: its name and those read. -/
abbrev OpenGroup := Option (String × List Mailbox)

/-- The entries of a list, part after part; a group goes on until a semicolon or the end. -/
def entries (openGroup : OpenGroup) : List (List Sign) → Except Refusal (List Addressee)
  | [] => .ok (openGroup.toList.map fun (name, ms) => .group name ms)
  | part :: rest => do
    let begun := match openGroup with
      | some g => some (g, part)
      | none => (groupName? part).map fun (name, r) => ((name, []), r)
    match begun with
    | some ((name, ms), r) =>
      let (m, r) ← member [',', ';'] r
      let ms := ms ++ m.toList
      if r.head? == some (.mark ';') then
        .ok (.group name ms :: (← entries none rest))
      else entries (some (name, ms)) rest
    | none =>
      let (m, _) ← member [','] part
      .ok (m.toList.map .mailbox ++ (← entries none rest))

/-- Reads a list of addresses. -/
def read (text : String) : Except Refusal (List Addressee) :=
  entries none (parts (joinGaps (signs .nothing text.toList)))

end Address

end Rulebook
