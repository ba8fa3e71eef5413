import Questionnaire.Text.Blank
import Questionnaire.Text.Quoted

/-!
# Choosing lint passes

Lint passes are chosen by their names with commas between them. White space around a name does not
count, nor do empty parts and repetitions; a blank text chooses nothing in particular.
-/

namespace Questionnaire.Command

/-- Why a text chooses no passes. -/
inductive PassFilterError where
  | unknownPass (name : String) (known : List String)
  | noNames (text : String)
  deriving DecidableEq

/-- What is said of a text that chooses no passes. -/
def PassFilterError.message : PassFilterError → String
  | unknownPass name known =>
    "unknown pass " ++ Text.quoted name ++ " (known: " ++ ", ".intercalate known ++ ")"
  | noNames s => "no pass names in " ++ Text.quoted s

/-- The names in a text, without white space around them and without empty ones. -/
def passNames (s : String) : List String :=
  ((s.toList.splitOn ',').map fun part ↦ Text.trim (String.ofList part)).filter fun name ↦
    !name.isEmpty

/-- Names with each one put behind the others unless it is there; all of them have to be known. -/
def collectPasses (known : List String) (chosen : List String) :
    List String → Except PassFilterError (List String)
  | [] => .ok chosen
  | name :: rest =>
    if !known.contains name then .error (.unknownPass name known)
    else collectPasses known (if chosen.contains name then chosen else chosen ++ [name]) rest

/-- The passes that a text chooses; none in particular when it is blank. -/
def parsePassFilter (s : String) (known : List String) :
    Except PassFilterError (Option (List String)) :=
  if (Text.trim s).isEmpty then .ok none
  else match collectPasses known [] (passNames s) with
    | .error e => .error e
    | .ok [] => .error (.noNames s)
    | .ok passes => .ok (some passes)

end Questionnaire.Command
