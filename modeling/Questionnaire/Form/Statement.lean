import Questionnaire.Form.Expr

/-!
# Forms

A form is a list of statements: questions, calculated questions, and conditions that show a block of
statements only while their guard holds. `Form.statementsAll` lists every statement of a form at any
depth in document order, a condition before its block; most analyses are stated over that list.
-/

namespace Questionnaire

/-- What a question declares. -/
structure Question where
  pos : Position := {}
  id : String
  type : ValueType
  label : String := ""
  deriving DecidableEq, Inhabited

/-- A statement of a form. -/
inductive Statement where
  | question (q : Question)
  | calculated (q : Question) (value : Expr)
  | condition (pos : Position) (guard : Expr) (body : List Statement)
  deriving Inhabited

/-- A form. Its file is the source document that positions refer to. -/
structure Form where
  name : String := ""
  file : String := ""
  statements : List Statement := []
  deriving Inhabited

namespace Statement

mutual

/-- A statement and all statements below it, in document order. -/
def withNested : Statement → List Statement
  | condition p g body => condition p g body :: nestedAll body
  | s => [s]

/-- All statements of a list and those below them, in document order. -/
def nestedAll : List Statement → List Statement
  | [] => []
  | s :: rest => withNested s ++ nestedAll rest

end

/-- What a statement declares, if it is a question or a calculated question. -/
def question? : Statement → Option Question
  | question q | calculated q _ => some q
  | condition .. => none

/-- The position of a statement. -/
def pos : Statement → Position
  | question q | calculated q _ => q.pos
  | condition p _ _ => p

end Statement

namespace Form

/-- Every statement of a form at any depth, in document order. -/
def statementsAll (f : Form) : List Statement :=
  Statement.nestedAll f.statements

/-- Every question and calculated question of a form at any depth, in document order. -/
def questions (f : Form) : List Question :=
  f.statementsAll.filterMap Statement.question?

end Form

end Questionnaire
