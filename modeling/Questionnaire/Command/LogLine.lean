import Questionnaire.Check
import Questionnaire.Command.LogLevel
import Questionnaire.Text.Blank

/-!
# Log lines

A log line is a list of names and values. A value stands between quotes when it is empty, or when it
holds a blank, an equals sign, a quote or a character that cannot be printed.
-/

namespace Questionnaire.Command

/-- Whether a value with a character in it stands between quotes. -/
def forcesQuotes (c : Char) : Bool :=
  if c.toNat < 0x80 then c == ' ' || c == '=' || c == '"' || decide (c.toNat < 0x20)
  else c == '\uFFFD' || Text.isBlank c || !Text.isPrintable c

/-- A value as it stands in a line. -/
def logValue (s : String) : String :=
  if s.isEmpty || s.toList.any forcesQuotes then Text.quoted s else s

/-- A line of a level, with a message and further values by their names. -/
def logLine (level : LogLevel) (message : String) (values : List (String × String)) : String :=
  s!"level={level.text} msg={logValue message}" ++
    String.join (values.map fun (name, value) ↦ s!" {name}={logValue value}") ++ "\n"

/-- The line on a step of the check of a file. -/
def stepLine (file : String) : Step → String
  | .refused e => logLine .debug "cannot access file" [("file", file), ("err", e)]
  | .validated n =>
    logLine .debug "schema validated"
      [("file", file), ("phase", "schema"), ("findings", toString n)]
  | .undecoded e => logLine .debug "decode failed" [("file", file), ("err", e)]
  | .analysed phase n =>
    logLine .debug "semantic analysis done"
      [("file", file), ("phase", phase.name), ("findings", toString n)]
  | .linted pass n =>
    logLine .debug "lint pass done" [("file", file), ("phase", pass), ("findings", toString n)]

end Questionnaire.Command
