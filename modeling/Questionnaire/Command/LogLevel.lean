import Questionnaire.Number.Integer
import Questionnaire.Text.Quoted

/-!
# Log levels

A log level is a number. Four of them have names; any other is written as a distance from the
nearest named one below it.
-/

namespace Questionnaire.Command

/-- A log level. -/
structure LogLevel where
  number : Int64
  deriving DecidableEq, Inhabited

/-- Why a text is no log level. -/
inductive LogLevelError where
  | unknownName (text : String)
  | badDistance (text distance : String) (fault : IntegerFault)
  deriving DecidableEq

/-- What is said of a text that is no log level. -/
def LogLevelError.message : LogLevelError → String
  | unknownName s => "slog: level string " ++ Text.quoted s ++ ": unknown name"
  | badDistance s d fault =>
    "slog: level string " ++ Text.quoted s ++ ": strconv.Atoi: parsing " ++ Text.quoted d ++ ": " ++
      match fault with
      | .malformed => "invalid syntax"
      | .outOfRange => "value out of range"

namespace LogLevel

def debug : LogLevel := ⟨-4⟩
def info : LogLevel := ⟨0⟩
def warn : LogLevel := ⟨4⟩
def error : LogLevel := ⟨8⟩

/-- A letter in upper case. Besides the ASCII letters, the dotless i is a case of an ASCII letter.
-/
def upperLetter (c : Char) : Char :=
  if c == '\u0131' then 'I' else c.toUpper

/-- The level with a name, in any case. -/
def ofName? (cs : List Char) : Option LogLevel :=
  match String.ofList (cs.map upperLetter) with
  | "DEBUG" => some debug
  | "INFO" => some info
  | "WARN" => some warn
  | "ERROR" => some error
  | _ => none

/-- The level that a text gives: a name, and maybe a distance with its sign. -/
def parse (s : String) : Except LogLevelError LogLevel :=
  let isSign := fun c ↦ c == '+' || c == '-'
  let name := s.toList.takeWhile fun c ↦ !isSign c
  let distance := s.toList.drop name.length
  let offset : Except LogLevelError Int64 :=
    if distance.isEmpty then .ok 0
    else match Integer.ofDecimal distance with
      | .ok n => .ok n
      | .error fault => .error (.badDistance s (String.ofList distance) fault)
  offset.bind fun offset ↦
    match ofName? name with
    | some l => .ok ⟨l.number + offset⟩
    | none => .error (.unknownName s)

/-- A name with a distance from it. -/
def withDistance (name : String) (distance : Int64) : String :=
  if distance = 0 then name
  else if 0 < distance then s!"{name}+{distance.toInt}"
  else s!"{name}{distance.toInt}"

/-- The text of a level. -/
def text (l : LogLevel) : String :=
  if l.number < info.number then withDistance "DEBUG" (l.number - debug.number)
  else if l.number < warn.number then withDistance "INFO" (l.number - info.number)
  else if l.number < error.number then withDistance "WARN" (l.number - warn.number)
  else withDistance "ERROR" (l.number - error.number)

/-- Whether lines of a level are logged when this one is asked for. -/
def admits (l line : LogLevel) : Bool :=
  decide (l.number ≤ line.number)

end LogLevel

end Questionnaire.Command
