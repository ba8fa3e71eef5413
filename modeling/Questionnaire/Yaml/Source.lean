import Questionnaire.Text.Utf8

/-!
# The characters of a YAML stream

A stream is UTF-8, or UTF-16 when it starts with a byte order mark of that encoding. The mark itself
is no part of the text. Control characters other than the tab and the line ends are refused, and so
is a byte order mark inside the text. A carriage return, alone or with a line feed after it, is read
as a line feed.
-/

namespace Questionnaire.Yaml

/-- Whether a character may stand in a stream. -/
def isAllowed (c : Char) : Bool :=
  let n := c.toNat
  n == 0x09 || n == 0x0A || n == 0x0D || (0x20 ≤ n && n ≤ 0x7E) || n == 0x85 ||
    (0xA0 ≤ n && n ≤ 0xD7FF) || (0xE000 ≤ n && n ≤ 0xFFFD && n != 0xFEFF) ||
    (0x10000 ≤ n && n ≤ 0x10FFFF)

/-! ### UTF-16 -/

/-- The 16-bit units of some bytes, if there is no odd byte. -/
def units (littleEndian : Bool) : List UInt8 → Option (List Nat)
  | [] => some []
  | [_] => none
  | a :: b :: rest =>
    (units littleEndian rest).map
      ((if littleEndian then b.toNat * 256 + a.toNat else a.toNat * 256 + b.toNat) :: ·)

/-- The characters of 16-bit units, if every surrogate has its partner. -/
def ofUnits : List Nat → Option (List Char)
  | [] => some []
  | u :: rest =>
    if 0xDC00 ≤ u ∧ u ≤ 0xDFFF then none
    else if 0xD800 ≤ u ∧ u ≤ 0xDBFF then
      match rest with
      | [] => none
      | v :: rest =>
        if 0xDC00 ≤ v ∧ v ≤ 0xDFFF then
          (ofUnits rest).map (Char.ofNat (0x10000 + (u - 0xD800) * 0x400 + (v - 0xDC00)) :: ·)
        else none
    else (ofUnits rest).map (Char.ofNat u :: ·)

/-! ### Streams -/

/-- The characters of a stream, by its byte order mark. -/
def decodeBytes : List UInt8 → Option (List Char)
  | 0xFF :: 0xFE :: rest => (units true rest).bind ofUnits
  | 0xFE :: 0xFF :: rest => (units false rest).bind ofUnits
  | 0xEF :: 0xBB :: 0xBF :: rest => Text.Utf8.decode? rest
  | bytes => Text.Utf8.decode? bytes

/-- A text with every carriage return, and a line feed after it, read as one line feed. -/
def lineFeeds : List Char → List Char
  | [] => []
  | '\r' :: '\n' :: rest => '\n' :: lineFeeds rest
  | '\r' :: rest => '\n' :: lineFeeds rest
  | c :: rest => c :: lineFeeds rest

/-- The text of a stream, if it can be read. -/
def sourceText (bytes : List UInt8) : Option (List Char) :=
  (decodeBytes bytes).bind fun cs ↦ if cs.all isAllowed then some (lineFeeds cs) else none

end Questionnaire.Yaml
