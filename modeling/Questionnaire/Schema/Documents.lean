import Questionnaire.Schema.Keyword

/-!
# The schemas of form documents

The schema of forms and those it refers to. Every statement and every expression has a kind and a
position. What else is asked of it depends on its kind, and of the value of a literal on its type.
-/

namespace Questionnaire.Schema

/-- An object whose member with a name is some word. -/
def memberIs (name word : String) : Schema :=
  .mk [.required [name], .properties [(name, .inPlace (.mk [.const word]))]]

/-- What is asked of an object whose member with a name is some word. -/
def whereMember (name word : String) (asked : List Keyword) : Schema :=
  .mk [.ifThen (memberIs name word) (.mk asked)]

/-! ### Expressions -/

/-- A line or column number. -/
def coordinateSchema : Schema :=
  .mk [.type .integer, .minimumZero]

/-- The word for a type. -/
def typeSchema : Schema :=
  .mk [.enum ["boolean", "integer", "decimal", "string"]]

/-- The type of the value of a literal of some type. -/
def whereType (word : String) (wanted : TypeName) : Schema :=
  whereMember "type" word [.properties [("value", .inPlace (.mk [.type wanted]))]]

/-- An expression. -/
def expressionSchema : Schema :=
  .mk
    [.type .object,
      .required ["kind", "line", "column"],
      .properties
        [("kind", .inPlace (.mk [.enum ["literal", "reference", "unary", "binary"]])),
          ("line", .ref .coordinate), ("column", .ref .coordinate)],
      .allOf
        [whereMember "kind" "literal"
          [.required ["type", "value"],
            .properties [("type", .ref .type)],
            .allOf [whereType "boolean" .boolean, whereType "integer" .integer,
              whereType "decimal" .number, whereType "string" .string]],
        whereMember "kind" "reference"
          [.required ["name"],
            .properties [("name", .inPlace (.mk [.type .string, .minLength 1]))]],
        whereMember "kind" "unary"
          [.required ["operator", "operand"],
            .properties
              [("operator", .inPlace (.mk [.enum ["!", "-", "+"]])),
                ("operand", .ref .expression)]],
        whereMember "kind" "binary"
          [.required ["operator", "left", "right"],
            .properties
              [("operator", .inPlace (.mk [.enum ["+", "-", "*", "/", "%", "^", "&&", "||", "==",
                "!=", "<", "<=", ">", ">="]])),
                ("left", .ref .expression), ("right", .ref .expression)]]]]

/-! ### Statements -/

/-- The name of a question. -/
def identifierSchema : Schema :=
  .mk [.type .string, .pattern .identifier]

/-- The schemas of the members that declare a question. -/
def questionProperties : List (String × Subschema) :=
  [("id", .ref .identifier), ("type", .ref .type), ("label", .inPlace (.mk [.type .string]))]

/-- What has the given members, a kind and a position, and no others. -/
def statementKeywords (required : List String) (properties : List (String × Subschema)) :
    List Keyword :=
  [.required required, .properties properties, .noAdditionalProperties,
    .patternProperties (.words ["kind", "line", "column"])]

/-- A list of statements. -/
def statementsSchema : Schema :=
  .mk [.type .array, .items (.ref .statement)]

/-- A statement. -/
def statementSchema : Schema :=
  .mk
    [.type .object,
      .required ["kind", "line", "column"],
      .properties
        [("kind", .inPlace (.mk [.enum ["question", "calculated", "condition"]])),
          ("line", .ref .coordinate), ("column", .ref .coordinate)],
      .allOf
        [whereMember "kind" "question"
          (statementKeywords ["id", "type", "label"] questionProperties),
        whereMember "kind" "calculated"
          (statementKeywords ["id", "type", "label", "expression"]
            (questionProperties ++ [("expression", .ref .expression)])),
        whereMember "kind" "condition"
          (statementKeywords ["guard", "body"]
            [("guard", .ref .expression), ("body", .inPlace statementsSchema)])]]

/-! ### Forms -/

/-- A form. -/
def formSchema : Schema :=
  .mk
    [.type .object,
      .required ["statements"],
      .noAdditionalProperties,
      .properties
        [("name", .inPlace (.mk [.type .string])), ("file", .inPlace (.mk [.type .string])),
          ("statements", .inPlace statementsSchema)]]

/-- The schema that a reference stands for. -/
def Reference.schema : Reference → Schema
  | statement => statementSchema
  | identifier => identifierSchema
  | expression => expressionSchema
  | coordinate => coordinateSchema
  | type => typeSchema

end Questionnaire.Schema
