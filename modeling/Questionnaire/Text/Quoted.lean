import Questionnaire.Text.Printable
import Questionnaire.Text.Utf8

/-!
# Quoted text

A quoted text stands between two marks. Printable characters stand for themselves; the mark and the
backslash follow a backslash; seven control characters have a letter of their own; every other
character is shown by its number, in two hexadecimal digits below 0x80, in four up to 0xFFFF and in
eight above.
-/

namespace Questionnaire.Text

/-- The hexadecimal digit of a number below sixteen. -/
def hexDigit (n : Nat) : Char :=
  if n < 10 then Char.ofNat (n + 48) else Char.ofNat (n + 87)

/-- The last `width` hexadecimal digits of `n`. -/
def hexDigits : Nat → Nat → List Char
  | 0, _ => []
  | width + 1, n => hexDigits width (n / 16) ++ [hexDigit (n % 16)]

@[simp]
theorem length_hexDigits (width n : Nat) : (hexDigits width n).length = width := by
  induction width generalizing n with
  | zero => rfl
  | succ width ih => simp [hexDigits, ih]

/-- The letter after the backslash for the control characters that have one. -/
def controlLetter (c : Char) : Option Char :=
  match c.toNat with
  | 0x07 => some 'a'
  | 0x08 => some 'b'
  | 0x0C => some 'f'
  | 0x0A => some 'n'
  | 0x0D => some 'r'
  | 0x09 => some 't'
  | 0x0B => some 'v'
  | _ => none

/-- How one character is written between two marks. -/
def quoteChar (mark : Char) (c : Char) : List Char :=
  if c = mark || c = '\\' then ['\\', c]
  else if isPrintable c then [c]
  else match controlLetter c with
    | some l => ['\\', l]
    | none =>
      let n := c.toNat
      if n < 0x80 then '\\' :: 'x' :: hexDigits 2 n
      else if n < 0x10000 then '\\' :: 'u' :: hexDigits 4 n
      else '\\' :: 'U' :: hexDigits 8 n

/-- The characters of a text as they are written between two marks. -/
def quoteChars (mark : Char) (cs : List Char) : List Char :=
  cs.flatMap (quoteChar mark)

/-- A text between double quotes. -/
def quoted (s : String) : String :=
  String.ofList ('"' :: (quoteChars '"' s.toList ++ ['"']))

/-- Bytes between double quotes, read as UTF-8; a byte that belongs to no well-formed sequence is
shown by its number. -/
def quotedBytes (bytes : List UInt8) : String :=
  String.ofList ('"' :: ((Utf8.pieces bytes).flatMap (fun p ↦
    match p with
    | .char c => quoteChar '"' c
    | .stray b => '\\' :: 'x' :: hexDigits 2 b.toNat) ++ ['"']))

end Questionnaire.Text
