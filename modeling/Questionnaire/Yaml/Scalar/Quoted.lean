import Questionnaire.Yaml.Scalar.Plain

/-!
# Quoted scalars

Between single quotes a quote is written twice and all else stands for itself. Between double quotes
a backslash starts an escape: a letter of its own, a code in two, four or eight hexadecimal digits,
or a line end that is dropped. Line ends are joined as in plain scalars.
-/

namespace Questionnaire.Yaml

/-- The character that a letter after a backslash stands for. -/
def escapeChar? (c : Char) : Option Char :=
  match c with
  | '0' => some '\x00'
  | 'a' => some '\x07'
  | 'b' => some '\x08'
  | 't' => some '\t'
  | '\t' => some '\t'
  | 'n' => some '\n'
  | 'v' => some '\x0B'
  | 'f' => some '\x0C'
  | 'r' => some '\r'
  | 'e' => some '\x1B'
  | ' ' => some ' '
  | '"' => some '"'
  | '\'' => some '\''
  | '\\' => some '\\'
  | 'N' => some '\u0085'
  | '_' => some '\u00A0'
  | 'L' => some '\u2028'
  | 'P' => some '\u2029'
  | _ => none

/-- The number of digits of a code, by the letter after the backslash. -/
def codeLength? (c : Char) : Option Nat :=
  match c with
  | 'x' => some 2
  | 'u' => some 4
  | 'U' => some 8
  | _ => none

/-- The character with a number, if there is one. -/
def charOfCode? (n : Nat) : Option Char :=
  if n.isValidChar then some (Char.ofNat n) else none

/-- What lies behind the characters of a quoted scalar that have been read. -/
inductive Tail where
  /-- Nothing. -/
  | none
  /-- Blanks and line ends. -/
  | gap (g : Gap)
  /-- An escaped line end and the line ends after it, the last one first. -/
  | joined (breaks : List Char)
  /-- A code that lacks some digits yet. -/
  | code (left value : Nat)
  deriving DecidableEq

/-- The text that a tail stands for. -/
def Tail.text : Tail → List Char
  | none => []
  | gap g => g.text
  | joined breaks => breaks.reverse
  | code .. => []

/-- A tail with one more blank or line end. -/
def Tail.withSpace (t : Tail) (c : Char) : Tail :=
  match t with
  | joined breaks => if isBreak c then joined (breakText c :: breaks) else joined breaks
  | gap g => gap (if isBreak c then g.withBreak c else g.withBlank c)
  | _ => gap (if isBreak c then Gap.withBreak {} c else Gap.withBlank {} c)

/-- A quoted scalar behind its first quote, up to the same quote. The characters read so far are
given last one first. -/
def scanQuoted (single : Bool) (done : List Char) (tail : Tail) (m : Mark) :
    List Char → Option ScannedScalar
  | [] => Option.none
  | c :: rest =>
    match tail with
    | .code left value =>
      match hexValue? c with
      | Option.none => Option.none
      | some d =>
        let value := value * 16 + d
        if left ≤ 1 then
          match charOfCode? value with
          | Option.none => Option.none
          | some ch => scanQuoted single (ch :: done) .none m.next rest
        else scanQuoted single done (.code (left - 1) value) m.next rest
    | tail =>
      if isBreak c then scanQuoted single done (tail.withSpace c) m.nextLine rest
      else if isBlank c then scanQuoted single done (tail.withSpace c) m.next rest
      else if m.column == 0 && isDocumentLine (c :: rest) then Option.none
      else
        let done := tail.text.reverse ++ done
        if single && c == '\'' then
          match rest with
          | '\'' :: rest => scanQuoted single ('\'' :: done) .none (m.advance 2) rest
          | rest => some ⟨done.reverse, ⟨m.next, rest⟩, false⟩
        else if !single && c == '"' then some ⟨done.reverse, ⟨m.next, rest⟩, false⟩
        else if !single && c == '\\' then
          match rest with
          | [] => Option.none
          | e :: rest =>
            if isBreak e then scanQuoted single done (.joined []) m.next.nextLine rest
            else match escapeChar? e with
              | some ch => scanQuoted single (ch :: done) .none (m.advance 2) rest
              | Option.none =>
                match codeLength? e with
                | some n => scanQuoted single done (.code n 0) (m.advance 2) rest
                | Option.none => Option.none
        else scanQuoted single (c :: done) .none m.next rest

end Questionnaire.Yaml
