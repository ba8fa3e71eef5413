import Questionnaire.Json.Basic

/-!
# Schemas

A schema says by keywords what a JSON value has to be. Keywords that are about values of another
type ask nothing. Schemas of members and of items are given in place or by reference, so that a
schema can refer to itself; those that are combined by `allOf` and `ifThen` stand in place.
-/

namespace Questionnaire

namespace Schema

/-- A type that a schema asks for. -/
inductive TypeName where
  | null
  | boolean
  | integer
  | number
  | string
  | array
  | object
  deriving DecidableEq, Inhabited

namespace TypeName

/-- The word for a type. -/
def text : TypeName → String
  | null => "null"
  | boolean => "boolean"
  | integer => "integer"
  | number => "number"
  | string => "string"
  | array => "array"
  | object => "object"

/-- The type of a JSON value. Integers are of the type of all numbers. -/
def ofJson : Json → TypeName
  | .null => null
  | .bool _ => boolean
  | .number _ => number
  | .string _ => string
  | .array _ => array
  | .object _ => object

/-- Whether a JSON value is of a type. -/
def admits (t : TypeName) (j : Json) : Bool :=
  match t, j with
  | integer, .number n => n.isInteger
  | t, j => t == ofJson j

end TypeName

/-! ### Patterns -/

/-- Whether a character can start an identifier. -/
def isIdentifierStart (c : Char) : Bool :=
  ('A' ≤ c && c ≤ 'Z') || ('a' ≤ c && c ≤ 'z') || c == '_'

/-- Whether a character can follow in an identifier. -/
def isIdentifierRest (c : Char) : Bool :=
  isIdentifierStart c || ('0' ≤ c && c ≤ '9')

/-- Whether some characters are an identifier. -/
def isIdentifier : List Char → Bool
  | [] => false
  | c :: rest => isIdentifierStart c && rest.all isIdentifierRest

/-- A pattern of texts. -/
inductive Pattern where
  /-- A letter or an underscore, followed by letters, digits and underscores. -/
  | identifier
  /-- One of some words. -/
  | words (l : List String)
  deriving DecidableEq

namespace Pattern

/-- A pattern as a regular expression. -/
def text : Pattern → String
  | identifier => "^[A-Za-z_][A-Za-z0-9_]*$"
  | words l => "^(" ++ "|".intercalate l ++ ")$"

/-- Whether a text matches a pattern. -/
def admits : Pattern → String → Bool
  | identifier, s => isIdentifier s.toList
  | words l, s => l.contains s

end Pattern

/-- A schema that others refer to. -/
inductive Reference where
  | statement
  | identifier
  | expression
  | coordinate
  | type
  deriving DecidableEq

end Schema

mutual

/-- A schema. -/
inductive Schema where
  | mk (keywords : List Schema.Keyword)

/-- A keyword of a schema. -/
inductive Schema.Keyword where
  | type (wanted : Schema.TypeName)
  | enum (words : List String)
  | const (word : String)
  /-- A number that is not less than zero. -/
  | minimumZero
  | minLength (least : Nat)
  | pattern (p : Schema.Pattern)
  | required (names : List String)
  | properties (schemas : List (String × Schema.Subschema))
  /-- Members with matching names may hold anything. -/
  | patternProperties (p : Schema.Pattern)
  /-- No members but those that `properties` and `patternProperties` beside it are about. -/
  | noAdditionalProperties
  | items (schema : Schema.Subschema)
  | allOf (schemas : List Schema)
  | ifThen (test consequence : Schema)

/-- The schema of a member or of an item. -/
inductive Schema.Subschema where
  | inPlace (schema : Schema)
  | ref (target : Schema.Reference)

end

end Questionnaire
