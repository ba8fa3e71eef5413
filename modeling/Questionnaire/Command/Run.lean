import Questionnaire.Check
import Questionnaire.Command.LogLine
import Questionnaire.Command.PassFilter
import Questionnaire.Command.Settings

/-!
# The command

The command checks the files it is given and prints a report on each. Its outcome is a function of
the arguments, the variables of the process and the disk. What can go wrong before a file is checked
is found in this order: the flags, the lack of files, the environment file, the settings, the choice
of passes.

The exit code is 0 when all is well, 1 when a file has an error (with `strict` also a warning), and
2 when a file cannot be used or the command itself cannot run.
-/

namespace Questionnaire.Command

/-- The name of the command. -/
def programName : String := "ql-check"

/-- The version of the command. -/
def versionText : String := "0.1.0"

namespace Flag

def envFile : Flag := ⟨"env-file", .text "", "Read environment defaults from this file"⟩
def noWarnings : Flag := ⟨"no-warnings", .toggle false, "Skip all lint passes"⟩
def passes : Flag := ⟨"passes", .text "", "Comma-separated lint passes to run (default all)"⟩
def quiet : Flag := ⟨"quiet", .toggle false, "Suppress output (exit code only)"⟩
def schemaOnly : Flag :=
  ⟨"schema-only", .toggle false, "Run schema validation only, skip semantic analysis"⟩
def strict : Flag := ⟨"strict", .toggle false, "Treat warnings as errors"⟩
def version : Flag := ⟨"version", .toggle false, "Print version and exit"⟩

end Flag

/-- The flags of the command, in the order of their names. -/
def flags : List Flag :=
  [Setting.colour.flag, .envFile, Setting.format.flag, Setting.jobs.flag, Setting.logLevel.flag,
    .noWarnings, .passes, .quiet, .schemaOnly, .strict, .version]

/-- What the command leaves: its exit code and what it printed. -/
structure Outcome where
  exit : Nat := 0
  stdout : String := ""
  stderr : String := ""
  deriving DecidableEq, Inhabited

/-! ### Before the check -/

/-- What the command is to do with its files. -/
structure Job where
  files : List String
  settings : Settings := {}
  options : CheckOptions := {}
  quiet : Bool := false
  deriving DecidableEq, Inhabited

/-- Why the command checks no files. -/
inductive Refused where
  | badFlags (error : FlagError)
  | version
  | noFiles
  | unreadEnvFile (path : String) (error : FileError)
  | badEnvFile (path complaint : String)
  | badSettings (error : SettingsError)
  | badPasses (error : PassFilterError)
  deriving DecidableEq

/-- The lines on an error of the command. -/
def errorLine (message : String) : String :=
  s!"Error: {message}\n"

/-- The outcome when no files are checked. -/
def Refused.outcome : Refused → Outcome
  | badFlags .helpRequested =>
    { exit := 2
      stderr := usageText programName flags ++ errorLine FlagError.helpRequested.message }
  | badFlags e =>
    { exit := 2
      stderr := e.message ++ "\n" ++ usageText programName flags ++ errorLine e.message }
  | version => { stdout := s!"{programName} {versionText}\n" }
  | noFiles =>
    { exit := 2, stderr := errorLine "no input files specified" ++ usageText programName flags }
  | unreadEnvFile path e =>
    { exit := 2, stderr := errorLine s!"read env file {path}: {e.message}" }
  | badEnvFile path complaint =>
    { exit := 2, stderr := errorLine s!"read env file {path}: {complaint}" }
  | badSettings e => { exit := 2, stderr := errorLine e.message }
  | badPasses e => { exit := 2, stderr := errorLine ("invalid --passes value: " ++ e.message) }

/-- The variables of the environment file at a path; there is none at the empty path. -/
def readEnvFile (kit : Toolkit) (disk : Disk) (path : String) :
    Except Refused (List (String × String)) :=
  if path.isEmpty then .ok []
  else match disk.read path with
    | .error e => .error (.unreadEnvFile path e)
    | .ok bytes =>
      match kit.readEnvironment bytes with
      | .error complaint => .error (.badEnvFile path complaint)
      | .ok vars => .ok vars

/-- The job that arguments describe. -/
def Job.ofArguments (kit : Toolkit) (disk : Disk) (process : List (String × String))
    (args : Arguments) : Except Refused Job :=
  if args.isOn .version then .error .version
  else if args.rest.isEmpty then .error .noFiles
  else match readEnvFile kit disk (args.textOf .envFile) with
    | .error e => .error e
    | .ok file =>
      match Settings.resolve args { process, file } with
      | .error e => .error (.badSettings e)
      | .ok settings =>
        let known := LintPass.builtin.map LintPass.name
        match parsePassFilter (args.textOf .passes) known with
        | .error e => .error (.badPasses e)
        | .ok passes => .ok
            { files := args.rest
              settings
              options :=
                { schemaOnly := args.isOn .schemaOnly
                  passes := passes.getD []
                  noWarnings := args.isOn .noWarnings
                  strict := args.isOn .strict
                  jobs := settings.jobs }
              quiet := args.isOn .quiet }

/-- The job that some texts describe. -/
def Job.parse (kit : Toolkit) (disk : Disk) (process : List (String × String))
    (args : List String) : Except Refused Job :=
  match Arguments.parse flags args with
  | .error e => .error (.badFlags e)
  | .ok args => Job.ofArguments kit disk process args

/-! ### The check -/

/-- Whether a report says that its document could not be used. -/
def hasInputError (r : Report) : Bool :=
  r.errors.any fun f ↦ f.kind == .input

/-- The exit code for one report. -/
def exitCode (strict : Bool) (r : Report) : Nat :=
  if hasInputError r then 2
  else if r.hasErrors then 1
  else if strict && r.hasWarnings then 1
  else 0

/-- The exit code for several reports: the greatest of theirs. -/
def exitCodeAll (strict : Bool) (reports : List Report) : Nat :=
  reports.foldl (fun code r ↦ max code (exitCode strict r)) 0

/-- What is printed of reports. JSON is one object for one report, and an array otherwise. Only the
mode that asks for colours gets them, since the output is not taken for a terminal. -/
def printed (s : Settings) (reports : List Report) : String :=
  match s.format with
  | .json =>
    (match reports with
      | [r] => r.jsonText
      | rs => Report.jsonTextAll rs) ++ "\n"
  | .text =>
    String.join (reports.map (if s.colour = .always then Report.colouredText else Report.text))

/-- What is logged of the checks of files. -/
def logged (j : Job) (checks : List Checked) : String :=
  if j.settings.logLevel.admits .debug then
    logLine .debug "checking files"
        [("count", toString j.files.length), ("jobs", toString j.settings.jobs.toInt)] ++
      String.join (checks.map fun c ↦ String.join (c.trail.map (stepLine c.report.file)))
  else ""

/-- The outcome of a job. Nobody cancels its checks. -/
def Job.outcome (kit : Toolkit) (disk : Disk) (j : Job) : Outcome :=
  match disk.checkedAll kit LintPass.builtin j.options false j.files with
  | .error e => { exit := 2, stderr := logged j [] ++ errorLine e.message }
  | .ok checks =>
    let reports := checks.map Checked.report
    { exit := exitCodeAll j.options.strict reports
      stdout := if j.quiet then "" else printed j.settings reports
      stderr := logged j checks }

/-- The outcome of the command. -/
def run (kit : Toolkit) (disk : Disk) (process : List (String × String)) (args : List String) :
    Outcome :=
  match Job.parse kit disk process args with
  | .error e => e.outcome
  | .ok j => j.outcome kit disk

/-- The paths that the command with some arguments looks at. -/
def pathsOf (args : List String) : List String :=
  match Arguments.parse flags args with
  | .error _ => []
  | .ok args => args.textOf .envFile :: args.rest

end Questionnaire.Command
