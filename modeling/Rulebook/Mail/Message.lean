import Rulebook.Mail.Address
import Rulebook.Settings
/-!
# Mails

A mail has headers of one line each and a content of whole lines.
-/

namespace Rulebook

/-- Why a header cannot be written. -/
inductive HeaderFault where
  /-- It has more than one line. -/
  | manyLines
  /-- A part of an address has the end of a line in it. -/
  | brokenAddress
  /-- It ends where an address has to begin or to go on. -/
  | unfinishedAddress
deriving DecidableEq, Repr

/-- The wording of a header fault. -/
def HeaderFault.message : HeaderFault → String
  | .manyLines => "Header values may not contain linefeed or carriage return characters"
  | .brokenAddress => "invalid arguments; address parts cannot contain CR or LF"
  | .unfinishedAddress => "string index out of range"

/-- A mail. -/
structure Mail where
  /-- What it is about. -/
  subject : String
  /-- Who sends it. -/
  sender : String
  /-- Who gets it. -/
  recipients : String
  /-- Who gets a copy. -/
  cc : Option String
  /-- Who gets a hidden copy. -/
  bcc : Option String
  /-- Where replies go. -/
  replyTo : Option String
  /-- The content. -/
  content : String

namespace Mail

/-- Whether a character ends a line of a header. -/
def endsLine (c : Char) : Bool :=
  c == '\n' || c == '\r' || c == '\x0b' || c == '\x0c' || (0x1c ≤ c.val && c.val ≤ 0x1e) ||
    c.val == 0x85 || c.val == 0x2028 || c.val == 0x2029

/-- Whether nothing follows the first end of a line. -/
def isOneLine (cs : List Char) : Bool :=
  match cs.dropWhile (!endsLine ·) with
  | [] | [_] | ['\r', '\n'] => true
  | _ => false

/-- A header, which has one line. -/
def header (text : String) : Except HeaderFault String :=
  if isOneLine text.toList then .ok text else .error .manyLines

/-- A header of addresses, each written in its shortest form. -/
def addresses (text : String) : Except HeaderFault String := do
  let text ← header text
  match Address.read text with
  | .error _ => .error .unfinishedAddress
  | .ok entries =>
    if (entries.flatMap Addressee.mailboxes).all Mailbox.isOneLine then
      .ok (", ".intercalate (entries.map Addressee.write))
    else .error .brokenAddress

/-- Lines that end in a line feed, however they ended. -/
def lines : List Char → List Char
  | [] => []
  | '\r' :: '\n' :: r => '\n' :: lines r
  | '\r' :: r => '\n' :: lines r
  | c :: r => c :: lines r

/-- A content of whole lines. -/
def wholeLines (body : String) : String :=
  let cs := lines body.toList
  if cs.getLast? = some '\n' then String.ofList cs else String.ofList cs ++ "\n"

/-- A header that is left out if it names nobody. -/
def others (people : List String) : Except HeaderFault (Option String) :=
  if people.isEmpty then .ok none else (addresses (", ".intercalate people)).map some

/-- How an unset sender is written. -/
def noSender : String := "None"

/-- Writes a mail. -/
def write (settings : MailSettings) (receivers cc bcc : List String) (subject body : String) :
    Except HeaderFault Mail := do
  let subject ← header subject
  let sender ← addresses (settings.senderEmail.getD noSender)
  let recipients ← addresses (", ".intercalate receivers)
  let cc ← others cc
  let bcc ← others bcc
  let replyTo ← others (settings.replyToEmail.filter (!·.isEmpty)).toList
  .ok ⟨subject, sender, recipients, cc, bcc, replyTo, wholeLines body⟩

/-- The fields of the payload of a mail. -/
def toFields (m : Mail) : Fields :=
  [("headers", .object [("Subject", .text m.subject), ("From", .text m.sender),
    ("To", .text m.recipients), ("Cc", .ofOption .text m.cc), ("Bcc", .ofOption .text m.bcc),
    ("Reply-To", .ofOption .text m.replyTo)]), ("content", .text m.content)]

end Mail

end Rulebook
