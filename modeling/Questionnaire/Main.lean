import Questionnaire.Command.Run
import Questionnaire.Toolkit.Standard

/-!
# The program

Reads the files that the arguments name and the variables of the process, runs the command on them,
and prints its outcome.
-/

namespace Questionnaire.Command

/-- What an error on reading a path tells of it. -/
def entryOfError : IO.Error → Entry
  | .noFileOrDirectory .. => .refused .absent
  | .permissionDenied .. => .locked
  | .inappropriateType _ code _ => if code == 21 then .directory else .refused .notDirectory
  | .invalidArgument .. => .refused .invalidName
  | .resourceExhausted .. => .refused .nameTooLong
  | _ => .locked

/-- What a path leads to. -/
def readEntry (path : String) : IO Entry := do
  try
    let bytes ← IO.FS.readBinFile path
    return .file bytes.toList
  catch e => return entryOfError e

/-- The disk with what some paths lead to. -/
def readDisk (paths : List String) : IO Disk := do
  let entries ← paths.mapM fun path ↦ return (path, ← readEntry path)
  return { entry := fun path ↦ (entries.lookup path).getD (.refused .absent) }

/-- The variables of the process that are looked up. -/
def readVariables (names : List String) : IO (List (String × String)) := do
  let values ← names.mapM fun name ↦ return (← IO.getEnv name).map (name, ·)
  return values.filterMap id

end Questionnaire.Command

open Questionnaire.Command in
/-- Runs the command with the arguments of the process. -/
def main (args : List String) : IO UInt32 := do
  let disk ← readDisk (pathsOf args)
  let process ← readVariables (Setting.all.map Setting.key)
  let outcome := run .standard disk process args
  (← IO.getStdout).putStr outcome.stdout
  (← IO.getStderr).putStr outcome.stderr
  return outcome.exit.toUInt32
