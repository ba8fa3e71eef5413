import Questionnaire.Form.ValueType

/-!
# Operators

The operators of expressions, each with its symbol, its name in messages and the operand types it
takes. Operators are numbered from zero in the order below; a number that belongs to none of them is
kept as it is.
-/

namespace Questionnaire

/-- An operator with one operand. -/
inductive UnaryOp where
  | not
  | negative
  | positive
  | unknown (code : Int)
  deriving DecidableEq, Inhabited

/-- An operator with two operands. -/
inductive BinaryOp where
  | addition
  | subtraction
  | multiply
  | divide
  | modulo
  | power
  | and
  | or
  | equal
  | notEqual
  | lessThan
  | lessOrEqual
  | greaterThan
  | greaterOrEqual
  | unknown (code : Int)
  deriving DecidableEq, Inhabited

namespace UnaryOp

/-- The operators, in the order of their numbers. -/
def all : List UnaryOp :=
  [not, negative, positive]

/-- The operator with a number. -/
def ofCode (n : Int) : UnaryOp :=
  if 0 ≤ n then all[n.toNat]?.getD (unknown n) else unknown n

/-- The name of an operator in messages. -/
def name : UnaryOp → String
  | not => "Not"
  | negative => "Negative"
  | positive => "Positive"
  | unknown n => s!"unary({n})"

/-- The symbol of an operator. -/
def symbol : UnaryOp → String
  | not => "!"
  | negative => "-"
  | positive => "+"
  | unknown _ => "?"

/-- The number of an operator. -/
def code : UnaryOp → Int
  | unknown n => n
  | op => all.idxOf op

/-- The operator with a symbol. -/
def ofSymbol? (s : String) : Option UnaryOp :=
  all.find? fun op ↦ op.symbol == s

/-- What is said of a symbol that belongs to no operator with one operand. -/
def unknownMessage (s : String) : String :=
  "unknown unary operator " ++ Text.quoted s

/-- The operand types an operator takes. -/
def operandTypes : UnaryOp → List ValueType
  | not => [.boolean]
  | _ => ValueType.numeric

end UnaryOp

namespace BinaryOp

/-- The operators, in the order of their numbers. -/
def all : List BinaryOp :=
  [addition, subtraction, multiply, divide, modulo, power, and, or, equal, notEqual, lessThan,
    lessOrEqual, greaterThan, greaterOrEqual]

/-- The operator with a number. -/
def ofCode (n : Int) : BinaryOp :=
  if 0 ≤ n then all[n.toNat]?.getD (unknown n) else unknown n

/-- The name of an operator in messages. -/
def name : BinaryOp → String
  | addition => "Addition"
  | subtraction => "Subtraction"
  | multiply => "Multiply"
  | divide => "Divide"
  | modulo => "Modulo"
  | power => "Power"
  | and => "And"
  | or => "Or"
  | equal => "Equal"
  | notEqual => "NotEqual"
  | lessThan => "LessThan"
  | lessOrEqual => "LessOrEqual"
  | greaterThan => "GreaterThan"
  | greaterOrEqual => "GreaterOrEqual"
  | unknown n => s!"binary({n})"

/-- The symbol of an operator. -/
def symbol : BinaryOp → String
  | addition => "+"
  | subtraction => "-"
  | multiply => "*"
  | divide => "/"
  | modulo => "%"
  | power => "^"
  | and => "&&"
  | or => "||"
  | equal => "=="
  | notEqual => "!="
  | lessThan => "<"
  | lessOrEqual => "<="
  | greaterThan => ">"
  | greaterOrEqual => ">="
  | unknown _ => "?"

/-- The number of an operator. -/
def code : BinaryOp → Int
  | unknown n => n
  | op => all.idxOf op

/-- The operator with a symbol. -/
def ofSymbol? (s : String) : Option BinaryOp :=
  all.find? fun op ↦ op.symbol == s

/-- What is said of a symbol that belongs to no operator with two operands. -/
def unknownMessage (s : String) : String :=
  "unknown binary operator " ++ Text.quoted s

/-- Whether the result is Boolean whatever the operands are. -/
def isComparison : BinaryOp → Bool
  | equal | notEqual | lessThan | lessOrEqual | greaterThan | greaterOrEqual => true
  | _ => false

/-- The operand types an operator takes. -/
def operandTypes : BinaryOp → List ValueType
  | subtraction | multiply | divide | modulo | power => ValueType.numeric
  | and | or => [.boolean]
  | equal | notEqual => ValueType.declarable
  | _ => ValueType.alphanumeric

end BinaryOp

end Questionnaire
