import Questionnaire.Schema.Keyword

/-!
# What is wrong with a value

A validation error says where a value breaks a schema and by which keyword. One that stems from
others, found by the schemas that a schema refers to or is combined from, gives these as its causes.
-/

namespace Questionnaire.Schema

/-- What an error is about: the keyword that is broken, with what it asks for and what was found
instead, or a keyword that gathers the errors of other schemas. -/
inductive ErrorKind where
  | schema
  | reference
  | allOf
  | type (got want : TypeName)
  | enum (want : List String)
  | const (want : String)
  | minimum (got : Json.Numeral) (want : Int)
  | minLength (got want : Nat)
  | pattern (got : String) (want : Pattern)
  | required (missing : List String)
  | additionalProperties (names : List String)
  deriving DecidableEq

/-- A validation error: where in the document the value is, by names of members and indices of
items, what is wrong with it, and the errors it stems from. -/
inductive ValidationError where
  | mk (location : List String) (kind : ErrorKind) (causes : List ValidationError)

namespace ValidationError

/-- An error that stems from no others. -/
def leaf (location : List String) (kind : ErrorKind) : ValidationError :=
  mk location kind []

/-- Errors gathered in one, if there are any. -/
def gather (location : List String) (kind : ErrorKind) :
    List ValidationError → List ValidationError
  | [] => []
  | cause :: causes => [mk location kind (cause :: causes)]

end ValidationError

end Questionnaire.Schema
