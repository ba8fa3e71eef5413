import Questionnaire.Files.Disk
import Questionnaire.Form.Decode
import Questionnaire.Toolkit
import Questionnaire.Yaml.Convert

/-!
# Form documents in files

A form document is JSON, or YAML when the name of its file says so; YAML is read as the JSON it
stands for.
-/

namespace Questionnaire

/-- Why a document cannot be read. -/
inductive ReadError where
  | file (error : FileError)
  | yaml (error : Yaml.ConvertError)
  deriving DecidableEq

/-- What is said of a document that cannot be read. -/
def ReadError.message : ReadError → String
  | file e => "failed to read form file: " ++ e.message
  | yaml e => e.message

/-- Why a form cannot be loaded. -/
inductive LoadError where
  | unreadable (error : ReadError)
  | noForm (error : FormError)
  deriving DecidableEq

/-- What is said of a form that cannot be loaded. -/
def LoadError.message : LoadError → String
  | unreadable e => e.message
  | noForm e => e.message

/-- The extension of a path: what its last step holds from its last point on. -/
def extensionOf (path : String) : String :=
  let name := path.toList.reverse.takeWhile (· != '/')
  if name.contains '.' then
    String.ofList ('.' :: (name.takeWhile (· != '.')).reverse)
  else ""

/-- Whether the extension of a path is one of YAML, in any case. -/
def isYamlPath (path : String) : Bool :=
  let e := Text.lower (extensionOf path)
  e == ".yaml" || e == ".yml"

namespace Disk

/-- The text of a document, as JSON. -/
def readDocument (d : Disk) (kit : Toolkit) (path : String) : Except ReadError (List Char) :=
  match d.read path with
  | .error e => .error (.file e)
  | .ok bytes =>
    if isYamlPath path then
      match kit.readYaml bytes with
      | .error complaint => .error (.yaml (.notYaml complaint))
      | .ok value =>
        match Yaml.writeValue value with
        | .error e => .error (.yaml e)
        | .ok text => .ok text
    else .ok (Text.Utf8.decodeLossy bytes)

/-- The form in a document. Its file is the path unless the document names another. -/
def loadForm (d : Disk) (kit : Toolkit) (path : String) : Except LoadError Form :=
  match d.readDocument kit path with
  | .error e => .error (.unreadable e)
  | .ok text =>
    match Form.decode text with
    | .error e => .error (.noForm e)
    | .ok f => .ok (if f.file.isEmpty then { f with file := path } else f)

end Disk

end Questionnaire
