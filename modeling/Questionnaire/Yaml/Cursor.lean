/-!
# Places in a YAML text

A cursor is a place in a text: the characters that are left, and how many characters and lines lie
before them. Lines end at a line feed and at the three other line ends of Unicode.
-/

namespace Questionnaire.Yaml

/-- How far a text has been read. -/
structure Mark where
  index : Nat := 0
  line : Nat := 0
  column : Nat := 0
  deriving DecidableEq, Inhabited

namespace Mark

/-- The place some characters further on the same line. -/
def advance (m : Mark) (count : Nat) : Mark :=
  { m with index := m.index + count, column := m.column + count }

/-- The place after one character. -/
def next (m : Mark) : Mark :=
  m.advance 1

/-- The place after a line end. -/
def nextLine (m : Mark) : Mark :=
  { index := m.index + 1, line := m.line + 1, column := 0 }

end Mark

/-- A place in a text and what is left from there. -/
structure Cursor where
  mark : Mark := {}
  rest : List Char
  deriving DecidableEq, Inhabited

/-! ### Classes of characters -/

/-- Whether a character ends a line. -/
def isBreak (c : Char) : Bool :=
  c == '\n' || c == '\u0085' || c == '\u2028' || c == '\u2029'

/-- Whether a character is a space or a tab. -/
def isBlank (c : Char) : Bool :=
  c == ' ' || c == '\t'

/-- The text that a line end stands for. -/
def breakText (c : Char) : Char :=
  if c == '\u0085' then '\n' else c

/-- Whether a word ends before some characters: at their end, at a blank, or at a line end. -/
def endsWord : List Char → Bool
  | [] => true
  | c :: _ => isBlank c || isBreak c

/-- Whether a line ends before some characters. -/
def endsLine : List Char → Bool
  | [] => true
  | c :: _ => isBreak c

/-- Whether a character may stand in the name of an anchor or a handle. -/
def isWordChar (c : Char) : Bool :=
  ('0' ≤ c && c ≤ '9') || ('A' ≤ c && c ≤ 'Z') || ('a' ≤ c && c ≤ 'z') || c == '_' || c == '-'

/-- The value of a hexadecimal digit. -/
def hexValue? (c : Char) : Option Nat :=
  if '0' ≤ c ∧ c ≤ '9' then some (c.toNat - 48)
  else if 'a' ≤ c ∧ c ≤ 'f' then some (c.toNat - 87)
  else if 'A' ≤ c ∧ c ≤ 'F' then some (c.toNat - 55)
  else none

/-- Whether three marks of a kind stand alone at the start of some characters. -/
def isTripled (mark : Char) : List Char → Bool
  | a :: b :: c :: rest => a == mark && b == mark && c == mark && endsWord rest
  | _ => false

/-- Whether a line that starts a document or ends one begins with some characters. -/
def isDocumentLine (cs : List Char) : Bool :=
  isTripled '-' cs || isTripled '.' cs

/-! ### Moving -/

namespace Cursor

/-- The place some characters further on the same line. -/
def drop (c : Cursor) (count : Nat) : Cursor :=
  { mark := c.mark.advance count, rest := c.rest.drop count }

/-- The place after the characters in front that have a property; none of them ends a line. -/
def skipWhile (c : Cursor) (p : Char → Bool) : Cursor :=
  c.drop (c.rest.takeWhile p).length

/-- The place after the blanks in front. -/
def skipBlanks (c : Cursor) : Cursor :=
  c.skipWhile isBlank

/-- The place of the next line end. -/
def skipLine (c : Cursor) : Cursor :=
  c.skipWhile fun ch ↦ !isBreak ch

/-- The place after a line end, if one is in front. -/
def skipBreak (c : Cursor) : Cursor :=
  match c.rest with
  | [] => c
  | ch :: rest => if isBreak ch then { mark := c.mark.nextLine, rest } else c

end Cursor

/-! ### Between tokens -/

/-- How many characters after a comment are searched for a next one. -/
def commentReach : Nat := 511

/-- Whether nothing but blanks and line feeds lies before a comment. -/
def leadsToComment : Nat → List Char → Bool
  | n + 1, c :: rest =>
    if isBlank c || c == '\n' then leadsToComment n rest else c == '#'
  | _, _ => false

/-- What kind of filling a character between two tokens belongs to. -/
inductive Filling where
  /-- Blanks and line ends. -/
  | space
  /-- A comment. -/
  | comment
  /-- Blanks and line ends between a comment and the next. -/
  | bridge
  deriving DecidableEq

/-- The place of the next token, and whether a key may start there: in a block it may after every
line end. Tabs count as filling in flow, and in a block where no key may start; between two comments
they always do. -/
def skipFilling (flow : Bool) : Filling → Bool → Mark → List Char → Cursor × Bool
  | _, keyAllowed, m, [] => (⟨m, []⟩, keyAllowed)
  | .space, keyAllowed, m, c :: rest =>
    if c == ' ' || (c == '\t' && (flow || !keyAllowed)) then
      skipFilling flow .space keyAllowed m.next rest
    else if c == '#' then skipFilling flow .comment keyAllowed m.next rest
    else if isBreak c then skipFilling flow .space (keyAllowed || !flow) m.nextLine rest
    else (⟨m, c :: rest⟩, keyAllowed)
  | .comment, keyAllowed, m, c :: rest =>
    if !isBreak c then skipFilling flow .comment keyAllowed m.next rest
    else if c == '\n' && leadsToComment commentReach rest then
      skipFilling flow .bridge keyAllowed m.nextLine rest
    else skipFilling flow .space (keyAllowed || !flow) m.nextLine rest
  | .bridge, keyAllowed, m, c :: rest =>
    if c == '#' then skipFilling flow .comment keyAllowed m.next rest
    else if isBreak c then skipFilling flow .bridge keyAllowed m.nextLine rest
    else skipFilling flow .bridge keyAllowed m.next rest

/-- The place after a comment on the same line, if one follows. -/
def Cursor.skipLineComment (c : Cursor) : Cursor :=
  let after := c.skipBlanks
  match after.rest with
  | '#' :: _ =>
    if after.mark.column - c.mark.column ≤ commentReach then after.skipLine else c
  | _ => c

end Questionnaire.Yaml
