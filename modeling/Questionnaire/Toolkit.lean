import Questionnaire.Schema.Validator
import Questionnaire.Yaml.Value

/-!
# Tools

What checks are made with and what is not part of them: a validator of documents, and readers of
YAML and of environment files. A reader says what is wrong with bytes that it cannot read.
-/

namespace Questionnaire

/-- The tools of a check. -/
structure Toolkit where
  validator : Schema.Validator
  /-- The first document of a YAML stream. -/
  readYaml : List UInt8 → Except String Yaml.Value
  /-- The variables that an environment file sets. -/
  readEnvironment : List UInt8 → Except String (List (String × String))

end Questionnaire
