import Questionnaire.Text.Lowercase
import Questionnaire.Text.Quoted

/-!
# Value types

The type of a question's answer or of an expression. Four types can be declared; `undefined` is the
type of an expression that has none. A type is numbered from zero in the order below; a number that
belongs to none of them is kept as it is.
-/

namespace Questionnaire

/-- The type of an answer or of an expression. -/
inductive ValueType where
  | undefined
  | boolean
  | integer
  | decimal
  | string
  | unknown (code : Int)
  deriving DecidableEq, Inhabited

namespace ValueType

/-- The type with a number. -/
def ofCode : Int → ValueType
  | 0 => undefined
  | 1 => boolean
  | 2 => integer
  | 3 => decimal
  | 4 => string
  | n => unknown n

/-- The number of a type. -/
def code : ValueType → Int
  | undefined => 0
  | boolean => 1
  | integer => 2
  | decimal => 3
  | string => 4
  | unknown n => n

/-- The name of a type in messages. -/
def name : ValueType → String
  | undefined => "Undefined"
  | boolean => "Boolean"
  | integer => "Integer"
  | decimal => "Decimal"
  | string => "String"
  | unknown n => s!"type({n})"

/-- The word for a type in form documents: its name in lower case. -/
def keyword (t : ValueType) : String :=
  Text.lower t.name

/-- The types that can be declared. -/
def declarable : List ValueType :=
  [boolean, integer, decimal, string]

/-- The types of numbers. -/
def numeric : List ValueType :=
  [integer, decimal]

/-- The types of numbers and of text. -/
def alphanumeric : List ValueType :=
  [integer, decimal, string]

/-- An integer can stand for a decimal: `promote` widens the one to the other and keeps every other
type. -/
def promote : ValueType → ValueType
  | integer => decimal
  | t => t

@[simp]
theorem promote_promote (t : ValueType) : t.promote.promote = t.promote := by
  cases t <;> rfl

/-- The declarable type with a keyword, in any case. -/
def ofKeyword? (s : String) : Option ValueType :=
  match Text.lower s with
  | "boolean" => some boolean
  | "integer" => some integer
  | "decimal" => some decimal
  | "string" => some string
  | _ => none

/-- What is said of a word that names no declarable type. -/
def unknownMessage (s : String) : String :=
  "unknown type " ++ Text.quoted s

end ValueType

end Questionnaire
