import Questionnaire.Number.Integer
import Questionnaire.Text.Quoted

/-!
# Flags

Flags stand in front of the other arguments. A flag is one or two dashes and a name; its value
follows an equals sign or, unless the flag is a toggle, is the next argument. The first argument
that is no flag ends them, and so does an argument of two dashes, which is left out.
-/

namespace Questionnaire.Command

/-- The value of a flag. -/
inductive FlagValue where
  | toggle (on : Bool)
  | text (s : String)
  | number (n : Int64)
  deriving DecidableEq, Inhabited

/-- The text of a value. -/
def FlagValue.toText : FlagValue → String
  | toggle b => if b then "true" else "false"
  | text s => s
  | number n => toString n.toInt

/-- A flag: its name, the value it has when it is not given, which tells what values it takes, and
what is said of it. -/
structure Flag where
  name : String
  initial : FlagValue
  help : String
  deriving DecidableEq, Inhabited

/-- The flags that were given, the last one first, and the arguments that follow them. -/
structure Arguments where
  given : List (String × FlagValue) := []
  rest : List String := []
  deriving DecidableEq, Inhabited

/-! ### Faults -/

/-- Why arguments cannot be read. -/
inductive FlagError where
  | badSyntax (argument : String)
  | helpRequested
  | unknownFlag (name : String)
  | needsArgument (name : String)
  | badToggle (value name : String)
  | badNumber (value name : String) (fault : IntegerFault)
  deriving DecidableEq

/-- What is said of arguments that cannot be read. -/
def FlagError.message : FlagError → String
  | badSyntax a => "bad flag syntax: " ++ a
  | helpRequested => "flag: help requested"
  | unknownFlag name => "flag provided but not defined: -" ++ name
  | needsArgument name => "flag needs an argument: -" ++ name
  | badToggle v name => "invalid boolean value " ++ Text.quoted v ++ s!" for -{name}: parse error"
  | badNumber v name fault =>
    "invalid value " ++ Text.quoted v ++ s!" for flag -{name}: " ++
      match fault with
      | .malformed => "parse error"
      | .outOfRange => "value out of range"

/-! ### Values -/

/-- The truth value that a text spells. -/
def toggleOf? (s : String) : Option Bool :=
  if ["1", "t", "T", "TRUE", "true", "True"].contains s then some true
  else if ["0", "f", "F", "FALSE", "false", "False"].contains s then some false
  else none

namespace Flag

/-- Whether a flag takes no argument after it. -/
def isToggle (f : Flag) : Bool :=
  match f.initial with
  | .toggle _ => true
  | _ => false

/-- The value that a text gives to a flag. -/
def valueOf (f : Flag) (s : String) : Except FlagError FlagValue :=
  match f.initial with
  | .toggle _ =>
    match toggleOf? s with
    | some b => .ok (.toggle b)
    | none => .error (.badToggle s f.name)
  | .text _ => .ok (.text s)
  | .number _ =>
    match Integer.ofLiteral s.toList with
    | .ok n => .ok (.number n)
    | .error fault => .error (.badNumber s f.name fault)

end Flag

/-! ### Arguments -/

/-- What an argument is: the end of the flags, with the argument itself or without it, or a flag
with its name and maybe a value. -/
inductive Argument where
  | last
  | ordinary
  | flag (name : String) (value : Option String)
  | malformed
  deriving DecidableEq, Inhabited

/-- The name and the value that the text of a flag behind its dashes gives. The first character
belongs to the name. -/
def Argument.ofBody : List Char → Argument
  | [] => .malformed
  | c :: rest =>
    if c == '-' || c == '=' then .malformed
    else
      let name := rest.takeWhile (· != '=')
      match rest.drop name.length with
      | [] => .flag (String.ofList (c :: rest)) none
      | _ :: value => .flag (String.ofList (c :: name)) (some (String.ofList value))

/-- What an argument is. -/
def Argument.ofText (s : String) : Argument :=
  match s.toList with
  | '-' :: '-' :: [] => .last
  | '-' :: '-' :: body => .ofBody body
  | '-' :: c :: body => .ofBody (c :: body)
  | _ => .ordinary

namespace Arguments

/-- The arguments that some texts are, behind flags that were given already. -/
def parseAfter (flags : List Flag) (given : List (String × FlagValue)) :
    List String → Except FlagError Arguments
  | [] => .ok { given }
  | s :: rest =>
    match Argument.ofText s with
    | .ordinary => .ok { given, rest := s :: rest }
    | .last => .ok { given, rest }
    | .malformed => .error (.badSyntax s)
    | .flag name value =>
      match flags.find? (·.name == name), value, rest with
      | none, _, _ =>
        .error (if name == "help" || name == "h" then .helpRequested else .unknownFlag name)
      | some f, some v, rest =>
        match f.valueOf v with
        | .error e => .error e
        | .ok v => parseAfter flags ((name, v) :: given) rest
      | some f, none, rest =>
        if f.isToggle then parseAfter flags ((name, .toggle true) :: given) rest
        else match rest with
          | [] => .error (.needsArgument name)
          | v :: rest =>
            match f.valueOf v with
            | .error e => .error e
            | .ok v => parseAfter flags ((name, v) :: given) rest

/-- The arguments that some texts are. -/
def parse (flags : List Flag) (args : List String) : Except FlagError Arguments :=
  parseAfter flags [] args

/-- Whether a toggle is on. -/
def isOn (a : Arguments) (f : Flag) : Bool :=
  (a.given.lookup f.name).getD f.initial == .toggle true

/-- The text of the value that a flag was given, if it was. -/
def text? (a : Arguments) (name : String) : Option String :=
  (a.given.lookup name).map FlagValue.toText

/-- The text of the value that a flag has. -/
def textOf (a : Arguments) (f : Flag) : String :=
  (a.text? f.name).getD f.initial.toText

end Arguments

/-! ### Usage -/

namespace Flag

/-- The word for the values that a flag takes. -/
def valueWord (f : Flag) : String :=
  match f.initial with
  | .toggle _ => ""
  | .text _ => " string"
  | .number _ => " int"

/-- What is said of the value that a flag has when it is not given. -/
def initialText (f : Flag) : String :=
  match f.initial with
  | .text s => if s.isEmpty then "" else " (default " ++ Text.quoted s ++ ")"
  | .number n => if n = 0 then "" else s!" (default {n.toInt})"
  | .toggle b => if b then " (default true)" else ""

/-- The lines on a flag. -/
def usage (f : Flag) : String :=
  s!"  -{f.name}{f.valueWord}\n    \t{f.help}{f.initialText}\n"

end Flag

/-- The lines on a program and its flags. -/
def usageText (program : String) (flags : List Flag) : String :=
  s!"Usage of {program}:\n" ++ String.join (flags.map Flag.usage)

end Questionnaire.Command
