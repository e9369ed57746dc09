import Rulebook.Text.Character
/-!
# Percent encoding

In addresses a byte may be written as a percent sign and two hexadecimal digits. Bytes form
characters by UTF-8. Where they do not, decoding puts the replacement character for each longest
beginning of a character, and for each byte that begins none.
-/

namespace Rulebook.Text

/-- A character of which some bytes have been read. -/
structure Partial where
  /-- The bits so far. -/
  bits : Nat
  /-- How many bytes follow after the next. -/
  more : Nat
  /-- The least next byte. -/
  least : Nat
  /-- The greatest next byte. -/
  most : Nat

/-- The character for bytes that are none. -/
def replacement : Char := Char.ofNat 0xfffd

/-- What a first byte stands for: a character, or the beginning of one. -/
def firstByte (b : Nat) : List Char × Option Partial :=
  if b < 0x80 then ([Char.ofNat b], none)
  else if b < 0xc2 then ([replacement], none)
  else if b < 0xe0 then ([], some ⟨b - 0xc0, 0, 0x80, 0xbf⟩)
  else if b < 0xf0 then
    ([], some ⟨b - 0xe0, 1, if b = 0xe0 then 0xa0 else 0x80, if b = 0xed then 0x9f else 0xbf⟩)
  else if b < 0xf5 then
    ([], some ⟨b - 0xf0, 2, if b = 0xf0 then 0x90 else 0x80, if b = 0xf4 then 0x8f else 0xbf⟩)
  else ([replacement], none)

/-- The characters that bytes form, after the beginning of one. -/
def charsOfBytes : Option Partial → List Nat → List Char
  | none, [] => []
  | some _, [] => [replacement]
  | none, b :: r =>
    let (cs, p) := firstByte b
    cs ++ charsOfBytes p r
  | some p, b :: r =>
    if p.least ≤ b ∧ b ≤ p.most then
      let bits := p.bits * 64 + (b - 0x80)
      match p.more with
      | 0 => Char.ofNat bits :: charsOfBytes none r
      | k + 1 => charsOfBytes (some ⟨bits, k, 0x80, 0xbf⟩) r
    else
      let (cs, p) := firstByte b
      replacement :: (cs ++ charsOfBytes p r)

/-- The byte that two hexadecimal digits at the start of a text stand for. -/
def hexByte? : List Char → Option Nat
  | a :: b :: _ => do
    let a ← hexValue? a
    let b ← hexValue? b
    some (a * 16 + b)
  | _ => none

/-- The characters of a text with encoded bytes. Bytes form characters only with bytes beside them,
so another character outside ASCII ends what `bytes` holds, the bytes so far, the last one first.
`skipped` is the number of characters that belong to a byte already read. -/
def decodeChars (bytes : List Nat) (skipped : Nat) : List Char → List Char
  | [] => charsOfBytes none bytes.reverse
  | c :: r =>
    match skipped with
    | k + 1 => decodeChars bytes k r
    | 0 =>
      if c = '%' then
        match hexByte? r with
        | some b => decodeChars (b :: bytes) 2 r
        | none => decodeChars (c.toNat :: bytes) 0 r
      else if c.toNat < 0x80 then decodeChars (c.toNat :: bytes) 0 r
      else charsOfBytes none bytes.reverse ++ c :: decodeChars [] 0 r

/-- The text that a text with encoded bytes stands for. -/
def percentDecode (s : String) : String := String.ofList (decodeChars [] 0 s.toList)

/-- A byte, encoded. -/
def encodeByte (b : Nat) : List Char := ['%', hexDigit (b / 16), hexDigit (b % 16)]

/-- The bytes of a text. -/
def bytes (s : String) : List Nat := s.toUTF8.toList.map (·.toNat)

/-- Whether a character stands for itself in any part of an address. -/
def isUnreserved (c : Char) : Bool := c.isAlphanum || "_.-~".toList.contains c

/-- The text with the bytes of all characters encoded that are not in the list and do not stand for
themselves anyway. -/
def percentEncode (kept : List Char) (s : String) : String :=
  String.ofList ((bytes s).flatMap fun b =>
    let c := Char.ofNat b
    if b < 0x80 && (isUnreserved c || kept.contains c) then [c] else encodeByte b)

/-- The text with a character for each byte. -/
def byteChars (s : String) : String := String.ofList ((bytes s).map Char.ofNat)

end Rulebook.Text
