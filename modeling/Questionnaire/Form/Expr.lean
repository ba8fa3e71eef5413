import Questionnaire.Form.Operator
import Questionnaire.Number.Layout

/-!
# Expressions

An expression is a tree of literals, references to questions and operators, each node with its
position in the source. A place where an expression is missing holds `Expr.absent`; forms read from
documents have no such place.

`Expr.text` writes an expression as its author would: operators between their operands, and
parentheses around every operand that is itself a binary expression.
-/

namespace Questionnaire

/-- A place in the source of a form. -/
structure Position where
  line : Int64 := 0
  column : Int64 := 0
  deriving DecidableEq, Inhabited

/-- A literal value. -/
inductive Literal where
  | boolean (value : Bool)
  | integer (value : Int64)
  | decimal (value : Binary64)
  | string (value : String)
  deriving DecidableEq, Inhabited

/-- An expression. -/
inductive Expr where
  | absent
  | literal (pos : Position) (value : Literal)
  | reference (pos : Position) (name : String)
  | unary (pos : Position) (op : UnaryOp) (operand : Expr)
  | binary (pos : Position) (op : BinaryOp) (left right : Expr)
  deriving DecidableEq, Inhabited

namespace Literal

/-- The type of a literal. -/
def type : Literal → ValueType
  | boolean _ => .boolean
  | integer _ => .integer
  | decimal _ => .decimal
  | string _ => .string

/-- The text of a decimal: never an exponent, and always a point. -/
def decimalText (x : Binary64) : String :=
  let s := x.positional
  if s.toList.contains '.' then s else s ++ ".0"

/-- The text of a literal. -/
def text : Literal → String
  | boolean true => "true"
  | boolean false => "false"
  | integer n => toString n.toInt
  | decimal x => decimalText x
  | string s => Text.quoted s

end Literal

namespace Expr

/-- The position of an expression; a missing one has none. -/
def pos? : Expr → Option Position
  | absent => none
  | literal p _ | reference p _ | unary p _ _ | binary p _ _ _ => some p

/-- The nodes of an expression, each before those below it and left before right; `descend` tells
below which nodes to look. -/
def visit (descend : Expr → Bool) : Expr → List Expr
  | absent => []
  | e@(literal ..) | e@(reference ..) => [e]
  | e@(unary _ _ x) => e :: if descend e then x.visit descend else []
  | e@(binary _ _ l r) => e :: if descend e then l.visit descend ++ r.visit descend else []

/-- The references of an expression, left to right, with their positions. -/
def references : Expr → List (Position × String)
  | absent | literal .. => []
  | reference p n => [(p, n)]
  | unary _ _ x => x.references
  | binary _ _ l r => l.references ++ r.references

/-- Whether an expression and all its parts are there. -/
def isComplete : Expr → Bool
  | absent => false
  | literal .. | reference .. => true
  | unary _ _ x => x.isComplete
  | binary _ _ l r => l.isComplete && r.isComplete

/-- The text of an operand, given the text of the expression: binary expressions are put in
parentheses. -/
def asOperand : Expr → String → String
  | binary .., s => "(" ++ s ++ ")"
  | _, s => s

/-- The text of an expression. -/
def text : Expr → String
  | absent => "<nil>"
  | literal _ v => v.text
  | reference _ n => n
  | unary _ op x => op.symbol ++ x.asOperand x.text
  | binary _ op l r => l.asOperand l.text ++ " " ++ op.symbol ++ " " ++ r.asOperand r.text

end Expr

end Questionnaire
