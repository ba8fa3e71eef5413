import Questionnaire.Json.Write
import Questionnaire.Yaml.Source
import Questionnaire.Yaml.Value

/-!
# From YAML to JSON

A YAML value is written as JSON without blanks, the members of an object sorted by name. Numbers
that are not finite, mappings with keys that are not texts, and timestamps that are a day or more
from universal time have no JSON form; the first of them in the order of writing is reported. A byte
that belongs to no UTF-8 sequence is written as the code of the replacement character.
-/

namespace Questionnaire.Yaml

/-- Why a YAML text has no JSON form. -/
inductive ConvertError where
  /-- The text is not YAML. -/
  | notYaml (complaint : String)
  /-- A number is not finite. -/
  | notFinite (value : Binary64)
  /-- A mapping has keys that are not texts. -/
  | generalKeys
  /-- A timestamp has an offset of a day or more. -/
  | offsetTooLarge
  deriving DecidableEq

/-- What is said of a YAML text without a JSON form. -/
def ConvertError.message : ConvertError → String
  | notYaml complaint => "failed to parse form YAML: " ++ complaint
  | notFinite x =>
    "failed to convert form YAML to JSON: json: unsupported value: " ++ x.positional
  | generalKeys =>
    "failed to convert form YAML to JSON: json: unsupported type: " ++
      "map[interface \x7b\x7d]interface \x7b\x7d"
  | offsetTooLarge =>
    "failed to convert form YAML to JSON: json: error calling MarshalJSON for type time.Time: " ++
      "Time.MarshalJSON: timezone hour outside of range [0,23]"

/-- Bytes as a JSON string. -/
def writeBytes (bytes : List UInt8) : List Char :=
  '"' :: ((Text.Utf8.pieces bytes).flatMap (fun p ↦
    match p with
    | .char c => Json.writeChar c
    | .stray _ => Json.unicodeEscape p.shown) ++ ['"'])

/-- A scalar as JSON. -/
def writeScalar : Scalar → Except ConvertError (List Char)
  | .null => .ok "null".toList
  | .bool true => .ok "true".toList
  | .bool false => .ok "false".toList
  | .int n => .ok (Json.Numeral.ofInt n).chars
  | .float x =>
    match Json.Numeral.ofBinary64? x with
    | some n => .ok n.chars
    | none => .error (.notFinite x)
  | .text s => .ok (Json.writeString s)
  | .bytes b => .ok (writeBytes b)
  | .timestamp t => if t.isWritable then .ok (Json.writeString t.text) else .error .offsetTooLarge

/-- The written parts with commas between them. -/
def joinParts : List (List Char) → List Char
  | [] => []
  | [part] => part
  | part :: rest => part ++ ',' :: joinParts rest

/-- A member with its name, if its value can be written. -/
def writeMember (m : String × Except ConvertError (List Char)) :
    Except ConvertError (List Char) :=
  m.2.map fun cs ↦ Json.writeString m.1 ++ ':' :: cs

mutual

/-- A value as JSON. -/
def writeValue : Value → Except ConvertError (List Char)
  | .scalar s => writeScalar s
  | .sequence items => do
    let parts ← writeItems items
    pure ('[' :: (joinParts parts ++ [']']))
  | .mapping entries => do
    let parts ← (Json.sortMembers (writeEntries entries)).mapM writeMember
    pure ('\x7b' :: (joinParts parts ++ ['\x7d']))
  | .general _ => .error .generalKeys

/-- Values as JSON. -/
def writeItems : List Value → Except ConvertError (List (List Char))
  | [] => .ok []
  | v :: rest => do
    let part ← writeValue v
    let parts ← writeItems rest
    pure (part :: parts)

/-- The value of an entry as JSON, with its name. -/
def writeEntry : String × Value → String × Except ConvertError (List Char)
  | (name, v) => (name, writeValue v)

/-- The values of entries as JSON, with their names. -/
def writeEntries : List (String × Value) → List (String × Except ConvertError (List Char))
  | [] => []
  | e :: rest => writeEntry e :: writeEntries rest

end

/-- The first document of a YAML stream as a value. -/
def parse? (bytes : List UInt8) : Option Value :=
  (sourceText bytes).bind fun text ↦ (readStream (TokenStream.scan text)).bind Stream.value?

end Questionnaire.Yaml
