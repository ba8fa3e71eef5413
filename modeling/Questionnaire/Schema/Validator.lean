import Questionnaire.Json.Read
import Questionnaire.Json.Write
import Questionnaire.Schema.ValidationError

/-!
# Validation

Documents are validated by a validator, which gives an error with its causes and can say of each
error what is wrong. A schema error is made of each error that stems from no others, with its place
as a pointer. In a pointer the names of members and the indices of items stand behind slashes, as
they are.
-/

namespace Questionnaire.Schema

/-- What a validator says of a value. -/
inductive Answer where
  | valid
  | invalid (error : ValidationError)
  /-- The value could not be validated. -/
  | failed (message : String)

/-- A validator of documents. -/
structure Validator where
  /-- What is wrong with a value. -/
  validate : Json → Answer
  /-- The text of an error. -/
  text : ValidationError → String
  /-- What is wrong with a text that is not JSON. -/
  complaint : List Char → String

/-- An error of a document. -/
structure SchemaError where
  path : String := ""
  message : String
  /-- Whether the document could not be read at all. -/
  parseError : Bool := false
  deriving DecidableEq

/-- An error behind its place. -/
def SchemaError.text (e : SchemaError) : String :=
  if e.path.isEmpty then e.message else e.path ++ ": " ++ e.message

/-- The pointer to a place, empty for the whole document. -/
def pointerTo (location : List String) : String :=
  if location.isEmpty then "" else "/" ++ "/".intercalate location

/-- A document as it is once it was written and read again. One that cannot be written, or whose
text cannot be read, stays as it is. -/
def normalize (doc : Json) : Json :=
  match doc.write? with
  | none => doc
  | some text => (Json.parseChars text).getD doc

namespace Validator

mutual

/-- The errors at the ends of the causes of an error. One without a text is left out. -/
def collectErrors (v : Validator) : ValidationError → List SchemaError
  | .mk location kind [] =>
    let message := v.text (.mk location kind [])
    if message.isEmpty then [] else [{ path := pointerTo location, message }]
  | .mk _ _ (cause :: rest) => v.collectAll (cause :: rest)

/-- The errors at the ends of the causes of some errors. -/
def collectAll (v : Validator) : List ValidationError → List SchemaError
  | [] => []
  | e :: rest => v.collectErrors e ++ v.collectAll rest

end

/-- The errors of a document. -/
def validateDocument (v : Validator) (doc : Json) : List SchemaError :=
  match v.validate (normalize doc) with
  | .valid => []
  | .invalid e => v.collectErrors e
  | .failed message => [{ message }]

/-- The errors of a document given as text. -/
def validateText (v : Validator) (text : List Char) : List SchemaError :=
  match Json.parseChars text with
  | some doc => v.validateDocument doc
  | none =>
    [{ message := "failed to parse JSON: " ++ v.complaint text, parseError := true }]

end Validator

end Questionnaire.Schema
