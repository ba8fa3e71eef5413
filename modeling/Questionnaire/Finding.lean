import Questionnaire.Form.Expr
import Questionnaire.Json.Basic

/-!
# Findings

A finding is one diagnostic: its kind, its severity, a message, the place it is about, and, beside
the message, the values the message was made from. Kinds are open: lint passes may bring their own.
-/

namespace Questionnaire

/-- What a finding is about. -/
structure Kind where
  name : String
  deriving DecidableEq, Inhabited

namespace Kind

/-- The document could not be read or decoded. -/
def input : Kind := ⟨"input"⟩

/-- The document breaks a rule of the document format. -/
def schema : Kind := ⟨"schema"⟩

/-- A question id is declared more than once. -/
def duplicateDeclaration : Kind := ⟨"duplicate-declaration"⟩

/-- Questions depend on each other in a cycle. -/
def cyclicDependency : Kind := ⟨"cyclic-dependency"⟩

/-- A reference to a question that is not declared, or an operand without a type. -/
def undefinedReference : Kind := ⟨"undefined-reference"⟩

/-- Two operands whose types cannot be combined. -/
def invalidOperandType : Kind := ⟨"invalid-operand-type"⟩

/-- An operand type that the operator does not take. -/
def typeNotAllowed : Kind := ⟨"type-not-allowed"⟩

/-- A calculated question whose expression is not of the declared type. -/
def typeMismatch : Kind := ⟨"type-mismatch"⟩

/-- A guard that is not Boolean. -/
def invalidConditionType : Kind := ⟨"invalid-condition-type"⟩

/-- Two questions with the same label. -/
def duplicateLabel : Kind := ⟨"duplicate-label"⟩

/-- A condition without statements. -/
def emptyCondition : Kind := ⟨"empty-condition"⟩

/-- A condition whose guard is a literal. -/
def constantCondition : Kind := ⟨"constant-condition"⟩

/-- A calculated question that refers to no other. -/
def constantCalculation : Kind := ⟨"constant-calculation"⟩

end Kind

/-- How grave a finding is. Severities are numbered, errors zero and warnings one; other numbers are
kept as they are. -/
inductive Severity where
  | error
  | warning
  | unknown (code : Int)
  deriving DecidableEq, Inhabited

namespace Severity

/-- The severity with a number. -/
def ofCode : Int → Severity
  | 0 => error
  | 1 => warning
  | n => unknown n

/-- The number of a severity. -/
def code : Severity → Int
  | error => 0
  | warning => 1
  | unknown n => n

/-- The word for a severity. -/
def text : Severity → String
  | error => "error"
  | warning => "warning"
  | unknown n => s!"severity({n})"

/-- The severity with a word. -/
def ofText? : String → Option Severity
  | "error" => some error
  | "warning" => some warning
  | _ => none

/-- What is said of a word that names no severity. -/
def unknownMessage (s : String) : String :=
  "unknown severity " ++ Text.quoted s

end Severity

/-- A place in a document: its file, a path to a value in it, and a position in its source. -/
structure Location where
  file : String := ""
  path : String := ""
  line : Int64 := 0
  column : Int64 := 0
  deriving DecidableEq, Inhabited

namespace Location

/-- The place of a position in a file. -/
def ofPosition (file : String) (p : Position) : Location :=
  { file, line := p.line, column := p.column }

/-- A location as `file:line:column path`, without the parts that are not known. -/
def text (l : Location) : String :=
  l.file ++
    (if 0 < l.line then s!":{l.line.toInt}:{l.column.toInt}" else "") ++
    (if l.path.isEmpty then "" else " " ++ l.path)

/-- A member that is written only when the text is not empty. -/
def textMember (name value : String) : List (String × Json) :=
  if value.isEmpty then [] else [(name, .string value)]

/-- A member that is written only when the number is not zero. -/
def numberMember (name : String) (value : Int64) : List (String × Json) :=
  if value = 0 then [] else [(name, .int value.toInt)]

/-- A location as a JSON value. -/
def toJson (l : Location) : Json :=
  .object (("file", .string l.file) :: (textMember "path" l.path ++
    numberMember "line" l.line ++ numberMember "column" l.column))

end Location

/-- A diagnostic. -/
structure Finding where
  kind : Kind
  severity : Severity
  message : String
  location : Location
  /-- A question id, or the text of an operand. -/
  name : String := ""
  /-- The name of an operator. -/
  operator : String := ""
  /-- The declared type. -/
  expected : String := ""
  /-- The type that was found. -/
  actual : String := ""
  /-- The type of the left operand. -/
  left : String := ""
  /-- The type of the right operand. -/
  right : String := ""
  /-- Question ids, the first repeated at the end. -/
  cycle : List String := []
  /-- Another place the finding is about. -/
  related : Option Location := none
  deriving DecidableEq, Inhabited

namespace Finding

/-- A finding that rejects the form. -/
def error (kind : Kind) (message : String) (location : Location) : Finding :=
  { kind, severity := .error, message, location }

/-- A finding that does not. -/
def warning (kind : Kind) (message : String) (location : Location) : Finding :=
  { kind, severity := .warning, message, location }

/-- A later declaration of an id that was first declared at `first`. -/
def duplicateDeclaration (loc : Location) (name : String) (first : Location) : Finding :=
  { error .duplicateDeclaration
      s!"Question '{name}' is already declared at line {first.line.toInt}" loc with
    name, related := some first }

/-- A cycle of dependencies, the first id repeated at the end. -/
def cyclicDependency (loc : Location) (cycle : List String) : Finding :=
  { error .cyclicDependency ("Cyclic dependency: " ++ " -> ".intercalate cycle) loc with
    cycle, name := cycle.headD "" }

/-- A reference to a question that is not declared, or an operand without a type. -/
def undefinedReference (loc : Location) (name : String) : Finding :=
  { error .undefinedReference s!"Reference to undefined question '{name}'" loc with name }

/-- Operands whose types cannot be combined. -/
def invalidOperandType (loc : Location) (operator left right : String) : Finding :=
  { error .invalidOperandType s!"Invalid operand types for {operator}: {left} and {right}" loc with
    operator, left, right }

/-- An operand type that the operator does not take. -/
def typeNotAllowed (loc : Location) (actual operator : String) : Finding :=
  { error .typeNotAllowed s!"{operator} not permitted on {actual}" loc with actual, operator }

/-- A calculated question whose expression is of another type than declared. -/
def typeMismatch (loc : Location) (name expected actual : String) : Finding :=
  { error .typeMismatch
      s!"Question '{name}' is declared {expected} but its expression is {actual}" loc with
    name, expected, actual }

/-- A guard that is not Boolean. -/
def invalidConditionType (loc : Location) (actual : String) : Finding :=
  { error .invalidConditionType s!"Condition must be Boolean, got {actual}" loc with
    expected := "Boolean", actual }

/-- A finding as a JSON value; the parts beside the message are written only when they are not
empty. -/
def toJson (f : Finding) : Json :=
  .object ([("kind", .string f.kind.name), ("severity", .string f.severity.text),
      ("message", .string f.message), ("location", f.location.toJson)] ++
    Location.textMember "name" f.name ++ Location.textMember "operator" f.operator ++
    Location.textMember "expected" f.expected ++ Location.textMember "actual" f.actual ++
    Location.textMember "left" f.left ++ Location.textMember "right" f.right ++
    (if f.cycle.isEmpty then [] else [("cycle", .array (f.cycle.map .string))]) ++
    (f.related.map fun l ↦ ("related", l.toJson)).toList)

end Finding

end Questionnaire
