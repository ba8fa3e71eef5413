import Questionnaire.Command.EnvFile
import Questionnaire.Schema.Standard
import Questionnaire.Toolkit
import Questionnaire.Yaml.Convert

/-!
# The tools at hand

The validator and the readers of this library as one set of tools.
-/

namespace Questionnaire

/-- The tools of this library. -/
def Toolkit.standard : Toolkit where
  validator := .standard
  readYaml bytes :=
    match Yaml.parse? bytes with
    | some v => .ok v
    | none => .error "invalid YAML"
  readEnvironment bytes :=
    match Command.parseEnvFile bytes with
    | .ok vars => .ok vars
    | .error e => .error e.message

end Questionnaire
