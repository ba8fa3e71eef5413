import Questionnaire.Text.Utf8
import Questionnaire.Yaml.Cursor
import Questionnaire.Yaml.Token

/-!
# Anchors, tags and directives

A tag is written in full between angle brackets, or as a handle and a suffix. A handle is an
exclamation mark, two of them, or a word between two; the single one stands for itself when nothing
follows. In what follows a handle, octets can be written as a percent sign and two hexadecimal
digits.

Two directives are known: one gives the version of YAML, the other what a handle stands for.
-/

namespace Questionnaire.Yaml

/-! ### Anchors -/

/-- Whether the name of an anchor may end before some characters. -/
def endsAnchor : List Char → Bool
  | [] => true
  | c :: _ =>
    isBlank c || isBreak c || c == '?' || c == ':' || c == ',' || c == ']' || c == '\x7d' ||
      c == '%' || c == '@' || c == '\x60'

/-- The name behind the mark of an anchor or alias, and the place after it. -/
def scanAnchor (c : Cursor) : Option (String × Cursor) :=
  let name := c.rest.takeWhile isWordChar
  let after := c.drop name.length
  if name.isEmpty || !endsAnchor after.rest then none else some (String.ofList name, after)

/-! ### Tags -/

/-- Whether a character may stand in a tag. -/
def isTagChar (c : Char) : Bool :=
  isWordChar c || c == ';' || c == '/' || c == '?' || c == ':' || c == '@' || c == '&' ||
    c == '=' || c == '+' || c == '$' || c == ',' || c == '.' || c == '!' || c == '~' || c == '*' ||
    c == '\'' || c == '(' || c == ')' || c == '[' || c == ']'

/-- The number of octets in a UTF-8 sequence, by its first. -/
def octetCount? (n : Nat) : Option Nat :=
  if n < 0x80 then some 1
  else if 0xC0 ≤ n ∧ n < 0xE0 then some 2
  else if 0xE0 ≤ n ∧ n < 0xF0 then some 3
  else if 0xF0 ≤ n ∧ n < 0xF8 then some 4
  else none

/-- Whether an octet continues a UTF-8 sequence. -/
def isContinuation (n : Nat) : Bool :=
  0x80 ≤ n && n < 0xC0

/-- The octets of a tag and the place after it. The octets read so far are given last one first, and
`missing` is the number of octets that a sequence written in digits lacks yet. -/
def scanTagOctets (done : List UInt8) (missing : Nat) (m : Mark) :
    List Char → Option (List UInt8 × Cursor)
  | [] => if missing = 0 then some (done.reverse, ⟨m, []⟩) else none
  | c :: rest =>
    if c == '%' then
      match rest with
      | a :: b :: rest =>
        match hexValue? a, hexValue? b with
        | some x, some y =>
          let n := x * 16 + y
          if missing = 0 then
            match octetCount? n with
            | some count => scanTagOctets (n.toUInt8 :: done) (count - 1) (m.advance 3) rest
            | none => none
          else if isContinuation n then
            scanTagOctets (n.toUInt8 :: done) (missing - 1) (m.advance 3) rest
          else none
        | _, _ => none
      | _ => none
    else if missing ≠ 0 then none
    else if isTagChar c then scanTagOctets (c.toNat.toUInt8 :: done) 0 m.next rest
    else some (done.reverse, ⟨m, c :: rest⟩)

/-- The text of a tag or a part of one, and the place after it. -/
def scanTagText (c : Cursor) : Option (String × Cursor) :=
  (scanTagOctets [] 0 c.mark c.rest).map fun (octets, after) ↦
    (String.ofList (Text.Utf8.decodeLossy octets), after)

/-- A handle, or what may be the start of one, and the place after it. -/
def scanHandle (c : Cursor) : Option (List Char × Cursor) :=
  match c.rest with
  | '!' :: rest =>
    let name := rest.takeWhile isWordChar
    match rest.drop name.length with
    | '!' :: _ => some ('!' :: (name ++ ['!']), c.drop (name.length + 2))
    | _ => some ('!' :: name, c.drop (name.length + 1))
  | _ => none

/-- Whether a handle is more than a single mark and ends in one. -/
def isFullHandle (handle : List Char) : Bool :=
  decide (1 < handle.length) && handle.getLast? == some '!'

/-- A tag in full behind its opening bracket. -/
def scanFullTag (c : Cursor) : Option (Token × Cursor) :=
  match scanTagText c with
  | none => none
  | some (text, after) =>
    match after.rest with
    | '>' :: _ => if text.isEmpty then none else some (.tag "" text, after.drop 1)
    | _ => none

/-- A tag given by a handle and a suffix. -/
def scanShortTag (c : Cursor) : Option (Token × Cursor) :=
  match scanHandle c with
  | none => none
  | some (handle, after) =>
    match scanTagText after with
    | none => none
    | some (text, last) =>
      if isFullHandle handle then
        if text.isEmpty then none else some (.tag (String.ofList handle) text, last)
      else
        let suffix := String.ofList (handle.drop 1) ++ text
        some (if suffix.isEmpty then .tag "" "!" else .tag "!" suffix, last)

/-- A tag, and the place after it. -/
def scanTag (c : Cursor) : Option (Token × Cursor) :=
  let scanned := match c.rest with
    | '!' :: '<' :: _ => scanFullTag (c.drop 2)
    | _ => scanShortTag c
  scanned.bind fun (token, after) ↦ if endsWord after.rest then some (token, after) else none

/-! ### Directives -/

/-- The most digits of a version number. -/
def maxVersionDigits : Nat := 9

/-- A number of a version, and the place after it. -/
def scanVersionNumber (c : Cursor) : Option (Nat × Cursor) :=
  let ds := c.rest.takeWhile fun d ↦ '0' ≤ d && d ≤ '9'
  if ds.isEmpty || decide (maxVersionDigits < ds.length) then none
  else some (ds.foldl (fun n d ↦ 10 * n + (d.toNat - 48)) 0, c.drop ds.length)

/-- The two numbers of a version, and the place after them. -/
def scanVersion (c : Cursor) : Option (Token × Cursor) :=
  match scanVersionNumber c.skipBlanks with
  | none => none
  | some (major, c) =>
    match c.rest with
    | '.' :: _ => (scanVersionNumber (c.drop 1)).map fun (minor, c) ↦ (.version major minor, c)
    | _ => none

/-- A handle and what it stands for, and the place after them. -/
def scanHandleMeaning (c : Cursor) : Option (Token × Cursor) :=
  match scanHandle c.skipBlanks with
  | none => none
  | some (handle, c) =>
    if handle != ['!'] && !isFullHandle handle then none
    else match c.rest with
      | b :: _ =>
        if !isBlank b then none
        else match scanTagText c.skipBlanks with
          | none => none
          | some (text, c) =>
            if text.isEmpty || !endsWord c.rest then none
            else some (.handle (String.ofList handle) text, c)
      | [] => none

/-- The place after a comment or nothing but blanks, at the start of the next line. -/
def skipLineRest (c : Cursor) : Option Cursor :=
  let c := c.skipBlanks
  let c := match c.rest with
    | '#' :: _ => c.skipLine
    | _ => c
  if endsLine c.rest then some c.skipBreak else none

/-- A directive behind its percent sign, and the start of the next line. -/
def scanDirective (c : Cursor) : Option (Token × Cursor) :=
  let name := c.rest.takeWhile isWordChar
  let after := c.drop name.length
  if name.isEmpty || !endsWord after.rest then none
  else
    let scanned := match String.ofList name with
      | "YAML" => scanVersion after
      | "TAG" => scanHandleMeaning after
      | _ => none
    scanned.bind fun (token, c) ↦ (skipLineRest c).map (token, ·)

end Questionnaire.Yaml
