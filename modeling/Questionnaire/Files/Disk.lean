/-!
# Files

What is known of a path: the file it leads to, a directory, or the reason why it leads nowhere. A
`Disk` tells this of every path, so that what reads files is a function of the disk.
-/

namespace Questionnaire

/-- Why a path leads nowhere. -/
inductive Refusal where
  | absent
  | notDirectory
  | nameTooLong
  | invalidName
  | denied
  deriving DecidableEq, Inhabited

/-- The words for a reason. -/
def Refusal.text : Refusal → String
  | absent => "no such file or directory"
  | notDirectory => "not a directory"
  | nameTooLong => "file name too long"
  | invalidName => "invalid argument"
  | denied => "permission denied"

/-- What a path leads to. -/
inductive Entry where
  | file (content : List UInt8)
  | directory
  | refused (reason : Refusal)
  /-- A file that is there and may not be read. -/
  | locked
  deriving DecidableEq, Inhabited

/-- What is stored under each path. -/
structure Disk where
  entry : String → Entry
  deriving Inhabited

/-- A file that could not be used. -/
inductive FileError where
  /-- Nothing can be told of the path. -/
  | inaccessible (path : String) (reason : Refusal)
  /-- The path cannot be opened. -/
  | unopened (path : String) (reason : Refusal)
  /-- The path is that of a directory. -/
  | isDirectory (path : String)
  deriving DecidableEq

namespace FileError

/-- What is said of a file that could not be used. -/
def message : FileError → String
  | inaccessible path reason => s!"stat {path}: {reason.text}"
  | unopened path reason => s!"open {path}: {reason.text}"
  | isDirectory path => s!"read {path}: is a directory"

/-- Whether there is no such file. -/
def isAbsent : FileError → Bool
  | inaccessible _ .absent | unopened _ .absent => true
  | _ => false

end FileError

namespace Disk

/-- Why nothing can be told of a path, if so. -/
def refusal? (d : Disk) (path : String) : Option FileError :=
  match d.entry path with
  | .refused reason => some (.inaccessible path reason)
  | _ => none

/-- The content of a file. -/
def read (d : Disk) (path : String) : Except FileError (List UInt8) :=
  match d.entry path with
  | .file content => .ok content
  | .directory => .error (.isDirectory path)
  | .refused reason => .error (.unopened path reason)
  | .locked => .error (.unopened path .denied)

end Disk

end Questionnaire
