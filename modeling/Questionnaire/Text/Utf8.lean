/-!
# UTF-8

Bytes are read as UTF-8 in two ways: `decode?` reads well-formed text only, and `decodeLossy` puts
the replacement character in the place of every byte that belongs to no well-formed sequence.
-/

namespace Questionnaire.Text.Utf8

/-- The low six bits of a continuation byte. -/
def continuation? (b : UInt8) : Option Nat :=
  if 0x80 ≤ b ∧ b ≤ 0xBF then some (b.toNat - 0x80) else none

/-- The character of two bytes. -/
def pair? (a b : UInt8) : Option Char := do
  let y ← continuation? b
  if 0xC2 ≤ a ∧ a ≤ 0xDF then some (Char.ofNat ((a.toNat - 0xC0) * 0x40 + y)) else none

/-- The character of three bytes: neither a shorter sequence's nor a surrogate. -/
def triple? (a b c : UInt8) : Option Char := do
  let y ← continuation? b
  let z ← continuation? c
  if 0xE0 ≤ a ∧ a ≤ 0xEF then
    let n := (a.toNat - 0xE0) * 0x1000 + y * 0x40 + z
    if 0x800 ≤ n ∧ ¬(0xD800 ≤ n ∧ n ≤ 0xDFFF) then some (Char.ofNat n) else none
  else none

/-- The character of four bytes: no shorter sequence's and not beyond the last code point. -/
def quadruple? (a b c d : UInt8) : Option Char := do
  let x ← continuation? b
  let y ← continuation? c
  let z ← continuation? d
  if 0xF0 ≤ a ∧ a ≤ 0xF4 then
    let n := (a.toNat - 0xF0) * 0x40000 + x * 0x1000 + y * 0x40 + z
    if 0x10000 ≤ n ∧ n ≤ 0x10FFFF then some (Char.ofNat n) else none
  else none

/-- The character in front of some bytes and the number of bytes it takes, if a well-formed sequence
stands there. -/
def first? : List UInt8 → Option (Char × Nat)
  | [] => none
  | a :: rest =>
    if a < 0x80 then some (Char.ofNat a.toNat, 1)
    else match rest with
      | [] => none
      | b :: rest =>
        match pair? a b with
        | some c => some (c, 2)
        | none =>
          match rest with
          | [] => none
          | c :: rest =>
            match triple? a b c with
            | some ch => some (ch, 3)
            | none =>
              match rest with
              | [] => none
              | d :: _ => (quadruple? a b c d).map (·, 4)

/-- A part of some bytes: a character, or a byte that belongs to no well-formed sequence. -/
inductive Piece where
  | char (c : Char)
  | stray (b : UInt8)
  deriving DecidableEq

/-- The character that stands for a part. -/
def Piece.shown : Piece → Char
  | char c => c
  | stray _ => '\uFFFD'

/-- The character that a part is. -/
def Piece.char? : Piece → Option Char
  | char c => some c
  | stray _ => none

/-- The parts of some bytes behind those already read, the last of which comes first. `skip` is the
number of bytes in front that belong to the last character read. -/
def scan (done : List Piece) (skip : Nat) : List UInt8 → List Piece
  | [] => done.reverse
  | a :: rest =>
    match skip with
    | skip + 1 => scan done skip rest
    | 0 =>
      match first? (a :: rest) with
      | some (c, n) => scan (.char c :: done) (n - 1) rest
      | none => scan (.stray a :: done) 0 rest

/-- The parts of some bytes. -/
def pieces (bytes : List UInt8) : List Piece :=
  scan [] 0 bytes

/-- The characters of some bytes, with a replacement character for each byte that belongs to no
well-formed sequence. -/
def decodeLossy (bytes : List UInt8) : List Char :=
  (pieces bytes).map Piece.shown

/-- The characters of some bytes, if they are well-formed throughout. -/
def decode? (bytes : List UInt8) : Option (List Char) :=
  (pieces bytes).mapM Piece.char?

/-- The bytes of a text. -/
def encode (s : String) : List UInt8 :=
  s.toUTF8.toList

end Questionnaire.Text.Utf8
