import Questionnaire.Yaml.Scalar.Plain

/-!
# Block scalars

A block scalar is a run of lines indented by the same number of spaces. Its header tells whether the
line ends at its end are dropped, reduced to one or kept, and may give the indentation; otherwise
the first line that is not empty does. In a literal scalar lines stay apart; in a folded one two
lines that do not start with a blank are joined as in a plain scalar.
-/

namespace Questionnaire.Yaml

/-- What becomes of the line ends at the end of a block scalar. -/
inductive Chomping where
  | strip
  | clip
  | keep
  deriving DecidableEq, Inhabited

/-- The header of a block scalar; zero when it gives no indentation. -/
structure BlockHeader where
  chomping : Chomping := .clip
  increment : Nat := 0
  deriving DecidableEq, Inhabited

/-- The chomping that a sign stands for. -/
def chompingOf? (c : Char) : Option Chomping :=
  if c == '+' then some .keep else if c == '-' then some .strip else none

/-- A digit in front of some characters: its value, or zero when there is none, and what follows. A
zero is refused. -/
def takeIncrement : List Char → Option (Nat × List Char)
  | c :: rest =>
    if c == '0' then none
    else if '1' ≤ c ∧ c ≤ '9' then some (c.toNat - 48, rest)
    else some (0, c :: rest)
  | [] => some (0, [])

/-- A sign in front of some characters, and what follows. -/
def takeChomping : List Char → Chomping × List Char
  | c :: rest =>
    match chompingOf? c with
    | some chomping => (chomping, rest)
    | none => (.clip, c :: rest)
  | [] => (.clip, [])

/-- The signs of a header, in either order, and what follows. -/
def takeHeader (cs : List Char) : Option (BlockHeader × List Char) :=
  match cs with
  | [] => some ({}, [])
  | c :: rest =>
    match chompingOf? c with
    | some chomping =>
      (takeIncrement rest).map fun (increment, rest) ↦ ({ chomping, increment }, rest)
    | none =>
      match takeIncrement (c :: rest) with
      | none => none
      | some (0, rest) => some ({}, rest)
      | some (increment, rest) =>
        let (chomping, rest) := takeChomping rest
        some ({ chomping, increment }, rest)

/-- The header of a block scalar behind its indicator, and the start of the next line. -/
def scanHeader (c : Cursor) : Option (BlockHeader × Cursor) :=
  match takeHeader c.rest with
  | none => none
  | some (header, rest) =>
    let c := (c.drop (c.rest.length - rest.length)).skipBlanks
    let c := match c.rest with
      | '#' :: _ => c.skipLine
      | _ => c
    if endsLine c.rest then some (header, c.skipBreak) else none

/-- A block scalar being read. -/
structure BlockText where
  /-- The characters read so far, the last one first. -/
  done : List Char := []
  /-- The end of the last line that was not empty. -/
  lineEnd : Option Char := none
  /-- The line ends after that, the last one first. -/
  empty : List Char := []
  /-- Whether the last line that was not empty starts with a blank. -/
  startsBlank : Bool := false
  deriving DecidableEq, Inhabited

namespace BlockText

/-- What stands between the lines read so far and a next line. -/
def joint (literal : Bool) (t : BlockText) (nextBlank : Bool) : List Char :=
  (if !literal && !t.startsBlank && !nextBlank && t.lineEnd == some '\n' then
    if t.empty.isEmpty then [' '] else []
  else t.lineEnd.toList) ++ t.empty.reverse

/-- The text with the first character of a next line. -/
def startLine (literal : Bool) (t : BlockText) (c : Char) : BlockText :=
  { done := c :: ((t.joint literal (isBlank c)).reverse ++ t.done)
    startsBlank := isBlank c }

/-- The whole text, its end treated as the header says. -/
def finish (t : BlockText) (chomping : Chomping) : List Char :=
  t.done.reverse ++
    match chomping with
    | .strip => []
    | .clip => t.lineEnd.toList
    | .keep => t.lineEnd.toList ++ t.empty.reverse

end BlockText

/-- The lines of a block scalar in a collection indented by `outer`, which is less than zero outside
all. The indentation is zero as long as it is not known, and `widest` is the longest run of spaces
met by then; `inLine` tells whether a line has been started. -/
def scanLines (literal : Bool) (outer : Int) (chomping : Chomping) (indent widest : Nat)
    (inLine : Bool) (t : BlockText) (m : Mark) : List Char → Option ScannedScalar
  | [] => some ⟨t.finish chomping, ⟨m, []⟩, true⟩
  | c :: rest =>
    if inLine then
      if isBreak c then
        scanLines literal outer chomping indent widest false
          { t with lineEnd := some (breakText c) } m.nextLine rest
      else scanLines literal outer chomping indent widest true
        { t with done := c :: t.done } m.next rest
    else
      let inIndent := indent == 0 || decide (m.column < indent)
      if c == ' ' && inIndent then
        scanLines literal outer chomping indent widest false t m.next rest
      else if c == '\t' && inIndent then none
      else
        let widest := max widest m.column
        if isBreak c then
          scanLines literal outer chomping indent widest false
            { t with empty := breakText c :: t.empty } m.nextLine rest
        else
          let indent := if indent == 0 then max (max widest (outer + 1).toNat) 1 else indent
          if m.column == indent then
            scanLines literal outer chomping indent widest true (t.startLine literal c) m.next rest
          else some ⟨t.finish chomping, ⟨m, c :: rest⟩, true⟩

/-- A block scalar behind its indicator. -/
def scanBlock (literal : Bool) (outer : Int) (c : Cursor) : Option ScannedScalar :=
  match scanHeader c with
  | none => none
  | some (header, c) =>
    let indent :=
      if header.increment == 0 then 0
      else if 0 ≤ outer then outer.toNat + header.increment
      else header.increment
    scanLines literal outer header.chomping indent 0 false {} c.mark c.rest

end Questionnaire.Yaml
