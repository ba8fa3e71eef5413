import Questionnaire.Yaml.Cursor

/-!
# Plain scalars

A plain scalar has no quotes. It ends at a colon before a blank, at a comment, at a line that starts
or ends a document, in a block at a line that is not indented enough, and in flow at the indicators
of flow collections. Between its lines one line end is a space, and of several the first is dropped.
-/

namespace Questionnaire.Yaml

/-- What lies between two words of a scalar: blanks, or line ends and the blanks around them. -/
structure Gap where
  /-- The blanks, the last one first. -/
  blanks : List Char := []
  /-- The line ends, the last one first. -/
  breaks : List Char := []
  deriving DecidableEq, Inhabited

namespace Gap

/-- The text for line ends in order: one line feed is a space, a line feed before others is dropped.
-/
def foldBreaks : List Char → List Char
  | ['\n'] => [' ']
  | '\n' :: more => more
  | breaks => breaks

/-- The text that a gap stands for. -/
def text (g : Gap) : List Char :=
  if g.breaks.isEmpty then g.blanks.reverse else foldBreaks g.breaks.reverse

/-- A gap with one more blank. Blanks at the start of a line are dropped. -/
def withBlank (g : Gap) (c : Char) : Gap :=
  if g.breaks.isEmpty then { g with blanks := c :: g.blanks } else g

/-- A gap with one more line end. -/
def withBreak (g : Gap) (c : Char) : Gap :=
  { blanks := [], breaks := breakText c :: g.breaks }

end Gap

/-- A scalar that has been read, and the place after it. -/
structure ScannedScalar where
  text : List Char
  cursor : Cursor
  /-- Whether the place is on a later line than the end of the scalar. -/
  newLine : Bool := false
  deriving DecidableEq, Inhabited

/-- Whether a character ends a plain scalar in flow. -/
def isFlowIndicator (c : Char) : Bool :=
  c == ',' || c == '?' || c == '[' || c == ']' || c == '\x7b' || c == '\x7d'

/-- A plain scalar in flow or in a block whose lines are indented by at least `indent`. The
characters read so far are given last one first; `gap` is what lies behind them, if anything. A tab
at the start of a line that is not indented enough is refused. -/
def scanPlain (flow : Bool) (indent : Int) (done : List Char) (gap : Option Gap) (m : Mark) :
    List Char → Option ScannedScalar
  | [] => some ⟨done.reverse, ⟨m, []⟩, gap.any fun g ↦ !g.breaks.isEmpty⟩
  | c :: rest =>
    let stop : ScannedScalar :=
      ⟨done.reverse, ⟨m, c :: rest⟩, gap.any fun g ↦ !g.breaks.isEmpty⟩
    if isBreak c then
      scanPlain flow indent done (some ((gap.getD {}).withBreak c)) m.nextLine rest
    else if isBlank c then
      if c == '\t' && stop.newLine && decide ((m.column : Int) < indent) then none
      else scanPlain flow indent done (some ((gap.getD {}).withBlank c)) m.next rest
    else if gap.isSome && ((!flow && decide ((m.column : Int) < indent)) || c == '#' ||
        (m.column == 0 && isDocumentLine (c :: rest))) then
      some stop
    else if c == ':' && endsWord rest then some stop
    else if flow && isFlowIndicator c then some stop
    else
      let joined := (gap.map Gap.text).getD []
      scanPlain flow indent (c :: (joined.reverse ++ done)) none m.next rest

end Questionnaire.Yaml
