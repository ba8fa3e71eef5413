/-!
# YAML tokens

The tokens of a YAML text. Besides those that are written, there are tokens for what indentation
says: where a collection starts in a block, where it ends, and that a scalar is a key.
-/

namespace Questionnaire.Yaml

/-- A token. -/
inductive Token where
  | streamStart
  | streamEnd
  | version (major minor : Nat)
  | handle (name tagPrefix : String)
  | documentStart
  | documentEnd
  | blockSequenceStart
  | blockMappingStart
  | blockEnd
  | flowSequenceStart
  | flowSequenceEnd
  | flowMappingStart
  | flowMappingEnd
  | blockEntry
  | flowEntry
  | key
  | value
  | reference (name : String)
  | anchor (name : String)
  | tag (handle suffix : String)
  | scalar (plain : Bool) (text : String)
  deriving DecidableEq, Inhabited

end Questionnaire.Yaml
