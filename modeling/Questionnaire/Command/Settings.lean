import Questionnaire.Command.Flags
import Questionnaire.Command.LogLevel
import Questionnaire.Text.Blank

/-!
# Settings

Some flags have a default in the environment. A flag that is given counts first, then a variable
that is not empty, and last the value the flag has by itself. A variable of the process, also an
empty one, hides the variable of the same name in an environment file.
-/

namespace Questionnaire.Command

/-- A flag with a default in the environment, and the variable that holds it. -/
structure Setting where
  flag : Flag
  key : String
  deriving DecidableEq, Inhabited

namespace Setting

def colour : Setting where
  flag :=
    ⟨"color", .text "auto", "Colorize text output: auto, always or never (env QLCHECK_COLOR)"⟩
  key := "QLCHECK_COLOR"

def format : Setting where
  flag := ⟨"format", .text "text", "Output format: text or json (env QLCHECK_FORMAT)"⟩
  key := "QLCHECK_FORMAT"

def jobs : Setting where
  flag := ⟨"jobs", .number 1, "Number of files to check concurrently (env QLCHECK_JOBS)"⟩
  key := "QLCHECK_JOBS"

def logLevel : Setting where
  flag :=
    ⟨"log-level", .text "warn", "Log level: debug, info, warn or error (env QLCHECK_LOG_LEVEL)"⟩
  key := "QLCHECK_LOG_LEVEL"

/-- The settings there are, in the order of their flags' names. -/
def all : List Setting :=
  [colour, format, jobs, logLevel]

end Setting

/-- The variables of the process and those of an environment file. -/
structure Environment where
  process : List (String × String) := []
  file : List (String × String) := []
  deriving Inhabited

/-- The value of a variable; a variable that is not there is empty. -/
def Environment.get (env : Environment) (name : String) : String :=
  match env.process.lookup name with
  | some v => v
  | none => (env.file.lookup name).getD ""

/-- How reports are printed. -/
inductive Format where
  | text
  | json
  deriving DecidableEq, Inhabited

namespace Format

/-- The word for a format. -/
def name : Format → String
  | text => "text"
  | json => "json"

/-- The format with a name. -/
def ofName? (s : String) : Option Format :=
  [text, json].find? fun f ↦ f.name == s

end Format

/-- When reports are coloured. -/
inductive ColourMode where
  | auto
  | always
  | never
  deriving DecidableEq, Inhabited

namespace ColourMode

/-- The word for a mode. -/
def name : ColourMode → String
  | auto => "auto"
  | always => "always"
  | never => "never"

/-- The mode with a name. -/
def ofName? (s : String) : Option ColourMode :=
  [auto, always, never].find? fun m ↦ m.name == s

end ColourMode

/-- What flags and environment settle. -/
structure Settings where
  format : Format := .text
  colour : ColourMode := .auto
  logLevel : LogLevel := .warn
  jobs : Int64 := 1
  deriving DecidableEq, Inhabited

/-- Why there are no settings. -/
inductive SettingsError where
  | badFormat (value : String)
  | badColour (value : String)
  | badLogLevel (error : LogLevelError)
  | badJobs (value : String)
  deriving DecidableEq

/-- What is said when there are no settings. -/
def SettingsError.message : SettingsError → String
  | badFormat s => "invalid format " ++ Text.quoted s ++ " (use text or json)"
  | badColour s => "invalid color mode " ++ Text.quoted s ++ " (use auto, always or never)"
  | badLogLevel e => "invalid log level: " ++ e.message
  | badJobs s => "invalid jobs value " ++ Text.quoted s ++ " (want a positive integer)"

namespace Settings

/-- The text that counts for a setting. -/
def pick (args : Arguments) (env : Environment) (s : Setting) : String :=
  match args.text? s.flag.name with
  | some t => t
  | none =>
    let v := env.get s.key
    if v.isEmpty then s.flag.initial.toText else v

/-- The number of jobs that a text gives. -/
def jobsOf? (s : String) : Option Int64 :=
  match Integer.ofDecimal (Text.trim s).toList with
  | .ok n => if 1 ≤ n then some n else none
  | .error _ => none

/-- The settings that flags and environment give. The first fault counts, with the format before the
colour, the log level and the jobs. -/
def resolve (args : Arguments) (env : Environment) : Except SettingsError Settings :=
  let format := pick args env .format
  let colour := pick args env .colour
  let level := pick args env .logLevel
  let jobs := pick args env .jobs
  match Format.ofName? format with
  | none => .error (.badFormat format)
  | some format =>
    match ColourMode.ofName? colour with
    | none => .error (.badColour colour)
    | some colour =>
      match LogLevel.parse level with
      | .error e => .error (.badLogLevel e)
      | .ok logLevel =>
        match jobsOf? jobs with
        | none => .error (.badJobs jobs)
        | some jobs => .ok { format, colour, logLevel, jobs }

end Settings

end Questionnaire.Command
