import Questionnaire.Json.Basic

/-!
# Reading JSON

`Json.parseChars` reads one value that takes up a whole text, with blanks around it. Blanks are the
space, the tab, the carriage return and the line feed. Arrays and objects nest up to ten thousand
deep. A code written as half a surrogate pair stands for the replacement character.

The readers take the characters that are left and give back what follows the part they read. Those
that call each other are bounded by a number of steps; `Json.parseChars` starts them with more steps
than any text of that length can take.
-/

namespace Questionnaire.Json

/-- The deepest nesting of arrays and objects. -/
def maxDepth : Nat := 10000

/-- Whether a character may stand between the parts of a JSON text. -/
def isBlank (c : Char) : Bool :=
  c == ' ' || c == '\t' || c == '\r' || c == '\n'

/-- What is left after the blanks in front. -/
def skipBlanks (cs : List Char) : List Char :=
  cs.dropWhile isBlank

/-- What is left after a word, if the text starts with it. -/
def afterWord? (word cs : List Char) : Option (List Char) :=
  if word.isPrefixOf cs then some (cs.drop word.length) else none

/-! ### Strings -/

/-- A part of a string's body: a character, or a code written in four hexadecimal digits. -/
inductive TextUnit where
  | char (c : Char)
  | code (n : Nat)
  deriving DecidableEq

/-- The value of a hexadecimal digit. -/
def hexValue? (c : Char) : Option Nat :=
  let n := c.toNat
  if 48 ≤ n ∧ n ≤ 57 then some (n - 48)
  else if 97 ≤ n ∧ n ≤ 102 then some (n - 87)
  else if 65 ≤ n ∧ n ≤ 70 then some (n - 55)
  else none

/-- The value of four hexadecimal digits. -/
def hexCode? (a b c d : Char) : Option Nat := do
  let a ← hexValue? a
  let b ← hexValue? b
  let c ← hexValue? c
  let d ← hexValue? d
  pure (((a * 16 + b) * 16 + c) * 16 + d)

/-- The character that a letter after a backslash stands for. -/
def escapeChar? (c : Char) : Option Char :=
  match c with
  | '"' => some '"'
  | '\\' => some '\\'
  | '/' => some '/'
  | 'b' => some '\x08'
  | 'f' => some '\x0C'
  | 'n' => some '\n'
  | 'r' => some '\r'
  | 't' => some '\t'
  | _ => none

/-- The body of a string after its opening quote, in front of the units already read, the last of
them first. A control character may not stand in a string. -/
def readUnits (done : List TextUnit) : List Char → Option (List TextUnit × List Char)
  | [] => none
  | c :: rest =>
    if c == '"' then some (done.reverse, rest)
    else if c == '\\' then
      match rest with
      | [] => none
      | e :: rest =>
        if e == 'u' then
          match rest with
          | a :: b :: c :: d :: rest =>
            match hexCode? a b c d with
            | some n => readUnits (.code n :: done) rest
            | none => none
          | _ => none
        else
          match escapeChar? e with
          | some c => readUnits (.char c :: done) rest
          | none => none
    else if c.toNat < 0x20 then none
    else readUnits (.char c :: done) rest

/-- Whether a code is the first half of a surrogate pair. -/
def isHighSurrogate (n : Nat) : Bool := decide (0xD800 ≤ n ∧ n ≤ 0xDBFF)

/-- Whether a code is the second half of a surrogate pair. -/
def isLowSurrogate (n : Nat) : Bool := decide (0xDC00 ≤ n ∧ n ≤ 0xDFFF)

/-- The character that takes the place of what is no character. -/
def replacement : Char := '\uFFFD'

/-- The character of a code on its own; half a pair is replaced. -/
def charOfCode (n : Nat) : Char :=
  if isHighSurrogate n || isLowSurrogate n then replacement else Char.ofNat n

/-- The characters that units stand for, with surrogate pairs joined, after those already joined,
the last of them first. -/
def joinUnits (done : List Char) : List TextUnit → List Char
  | [] => done.reverse
  | .char c :: rest => joinUnits (c :: done) rest
  | .code n :: .code m :: rest =>
    if isHighSurrogate n && isLowSurrogate m then
      joinUnits (Char.ofNat (0x10000 + (n - 0xD800) * 0x400 + (m - 0xDC00)) :: done) rest
    else joinUnits (charOfCode n :: done) (.code m :: rest)
  | .code n :: rest => joinUnits (charOfCode n :: done) rest

/-- A string after its opening quote. -/
def readString (cs : List Char) : Option (String × List Char) :=
  (readUnits [] cs).map fun (units, rest) ↦ (String.ofList (joinUnits [] units), rest)

/-! ### Numbers -/

/-- The digits in front of a text and what follows them. -/
def splitDigits (cs : List Char) : List Char × List Char :=
  (cs.takeWhile Char.isDigit, cs.dropWhile Char.isDigit)

/-- The digits before the point: a zero alone, or digits that do not start with one. -/
def readWhole (cs : List Char) : Option (List Char × List Char) :=
  match cs with
  | '0' :: rest => some (['0'], rest)
  | _ =>
    match splitDigits cs with
    | ([], _) => none
    | parts => some parts

/-- The digits after the point, none when there is no point. -/
def readFraction (cs : List Char) : Option (List Char × List Char) :=
  match cs with
  | '.' :: rest =>
    match splitDigits rest with
    | ([], _) => none
    | parts => some parts
  | _ => some ([], cs)

/-- The sign in front of a text, if one is there. -/
def readSign (cs : List Char) : Option Char × List Char :=
  match cs with
  | '+' :: rest => (some '+', rest)
  | '-' :: rest => (some '-', rest)
  | _ => (none, cs)

/-- The exponent, if one follows. -/
def readExponent (cs : List Char) : Option (Option Exponent × List Char) :=
  match cs with
  | c :: rest =>
    if c == 'e' || c == 'E' then
      let (sign, rest) := readSign rest
      match splitDigits rest with
      | ([], _) => none
      | (digits, rest) => some (some ⟨c, sign, digits⟩, rest)
    else some (none, cs)
  | [] => some (none, [])

/-- A number. -/
def readNumeral (cs : List Char) : Option (Numeral × List Char) := do
  let (negative, cs) := match cs with
    | '-' :: rest => (true, rest)
    | _ => (false, cs)
  let (whole, cs) ← readWhole cs
  let (fraction, cs) ← readFraction cs
  let (exponent, cs) ← readExponent cs
  pure ({ negative, whole, fraction, exponent }, cs)

/-! ### Values -/

mutual

/-- A value, with blanks in front of it, in which arrays and objects nest no deeper than there is
room for. -/
def readValue (steps room : Nat) (cs : List Char) : Option (Json × List Char) :=
  match steps with
  | 0 => none
  | steps + 1 =>
    match skipBlanks cs with
    | [] => none
    | c :: rest =>
      if c == '"' then
        match readString rest with
        | some (s, rest) => some (.string s, rest)
        | none => none
      else if c == '[' then
        match room with
        | 0 => none
        | room + 1 =>
          match skipBlanks rest with
          | ']' :: rest => some (.array [], rest)
          | rest => readItems steps room [] rest
      else if c == '\x7b' then
        match room with
        | 0 => none
        | room + 1 =>
          match skipBlanks rest with
          | '\x7d' :: rest => some (.object [], rest)
          | rest => readMembers steps room [] rest
      else if c == 'n' then (afterWord? "ull".toList rest).map (Json.null, ·)
      else if c == 't' then (afterWord? "rue".toList rest).map (Json.bool true, ·)
      else if c == 'f' then (afterWord? "alse".toList rest).map (Json.bool false, ·)
      else (readNumeral (c :: rest)).map fun (n, rest) ↦ (Json.number n, rest)

/-- The items of an array from one on, after those already read, the last of them first. -/
def readItems (steps room : Nat) (done : List Json) (cs : List Char) :
    Option (Json × List Char) :=
  match steps with
  | 0 => none
  | steps + 1 =>
    match readValue steps room cs with
    | none => none
    | some (item, rest) =>
      match skipBlanks rest with
      | ',' :: rest => readItems steps room (item :: done) rest
      | ']' :: rest => some (.array (item :: done).reverse, rest)
      | _ => none

/-- The members of an object from one on, after those already read, the last of them first. -/
def readMembers (steps room : Nat) (done : List (String × Json)) (cs : List Char) :
    Option (Json × List Char) :=
  match steps with
  | 0 => none
  | steps + 1 =>
    match skipBlanks cs with
    | '"' :: rest =>
      match readString rest with
      | none => none
      | some (name, rest) =>
        match skipBlanks rest with
        | ':' :: rest =>
          match readValue steps room rest with
          | none => none
          | some (value, rest) =>
            match skipBlanks rest with
            | ',' :: rest => readMembers steps room ((name, value) :: done) rest
            | '\x7d' :: rest => some (.object ((name, value) :: done).reverse, rest)
            | _ => none
        | _ => none
    | _ => none

end

/-- The value that a text consists of. -/
def parseChars (cs : List Char) : Option Json :=
  match readValue (2 * cs.length + 2) maxDepth cs with
  | some (value, rest) => if (skipBlanks rest).isEmpty then some value else none
  | none => none

end Questionnaire.Json
