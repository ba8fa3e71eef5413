import Questionnaire.Analysis.Symbols

/-!
# Typing

Every expression has a type or `undefined`, which is the type of an expression that has none. The
check of a form goes through all statements and all operands, whatever it has found before, and adds
its findings to a list it is handed.

An operator whose operand has no type has none either. The operand is reported as undefined, unless
it has reported itself at its own position. Operands of different types are combined when they are
the same after an integer is widened to a decimal.

A check has no result when an operator lacks an operand: there is then no place to report.
-/

namespace Questionnaire

namespace Typing

/-- Reports an operand without a type, unless the findings from `mark` on already hold an undefined
reference at its position. -/
def undefinedOperand (file : String) (mark : Nat) (findings : List Finding) (operand : Expr) :
    Option (List Finding) :=
  operand.pos?.map fun p ↦
    let loc := Location.ofPosition file p
    if (findings.drop mark).any fun f ↦ f.kind == .undefinedReference && f.location == loc then
      findings
    else findings ++ [.undefinedReference loc operand.text]

/-- Reports one of two operands if it has no type. -/
def reportOperand (file : String) (mark : Nat) (findings : List Finding) (t : ValueType)
    (operand : Expr) : Option (List Finding) :=
  if t = .undefined then undefinedOperand file mark findings operand else some findings

/-- The type of an operator's operands, if the operator takes it; otherwise none, and a finding. -/
def operandType (file : String) (findings : List Finding) (pos : Position) (t : ValueType)
    (allowed : List ValueType) (operator : String) : ValueType × List Finding :=
  if allowed.contains t then (t, findings)
  else (.undefined,
    findings ++ [.typeNotAllowed (.ofPosition file pos) t.name operator])

/-- The findings on two operand types that cannot be combined. -/
def incompatibleOperands (file : String) (pos : Position) (op : BinaryOp) (l r : ValueType) :
    List Finding :=
  let loc := Location.ofPosition file pos
  .invalidOperandType loc op.name l.name r.name ::
    ([l, r].filter fun t ↦ !op.operandTypes.contains t).map fun t ↦
      .typeNotAllowed loc t.name op.name

/-- The type of a binary expression whose operands have types. -/
def combine (file : String) (findings : List Finding) (pos : Position) (op : BinaryOp)
    (l r : ValueType) : ValueType × List Finding :=
  if l.promote ≠ r.promote then
    (.undefined, findings ++ incompatibleOperands file pos op l r)
  else
    let operand := if l = r then l else l.promote
    let (t, findings) := operandType file findings pos operand op.operandTypes op.name
    (if t ≠ .undefined ∧ op.isComparison then .boolean else t, findings)

/-- The type of an expression, and the findings with those on it added. -/
def check (file : String) (table : SymbolTable) (findings : List Finding) :
    Expr → Option (ValueType × List Finding)
  | .absent => some (.undefined, findings)
  | .literal _ v => some (v.type, findings)
  | .reference p n =>
    match table.lookup n with
    | some s => some (s.type, findings)
    | none => some (.undefined, findings ++ [.undefinedReference (.ofPosition file p) n])
  | .unary p op x => do
    let (t, after) ← check file table findings x
    if t = .undefined then
      let after ← undefinedOperand file findings.length after x
      pure (.undefined, after)
    else
      pure (operandType file after p t op.operandTypes op.name)
  | .binary p op l r => do
    let (lt, afterLeft) ← check file table findings l
    let (rt, after) ← check file table afterLeft r
    if lt = .undefined ∨ rt = .undefined then
      let after ← reportOperand file findings.length after lt l
      let after ← reportOperand file afterLeft.length after rt r
      pure (.undefined, after)
    else
      pure (combine file after p op lt rt)

/-- The findings with those on a calculated question added, given the type of its expression. -/
def calculatedFindings (file : String) (q : Question) (t : ValueType) : List Finding :=
  if t = .undefined ∨ t.promote = q.type.promote then []
  else [.typeMismatch (.ofPosition file q.pos) q.id q.type.name t.name]

/-- The finding on a guard that is not Boolean. -/
def guardFindings (file : String) (pos : Position) (t : ValueType) : List Finding :=
  if t = .boolean then [] else [.invalidConditionType (.ofPosition file pos) t.name]

mutual

/-- The findings with those on a statement and all below it added. -/
def checkStatement (file : String) (table : SymbolTable) (findings : List Finding) :
    Statement → Option (List Finding)
  | .question _ => some findings
  | .calculated q value => do
    let (t, findings) ← check file table findings value
    pure (findings ++ calculatedFindings file q t)
  | .condition p guard body => do
    let (t, findings) ← check file table findings guard
    checkStatements file table (findings ++ guardFindings file p t) body

/-- The findings with those on a list of statements added. -/
def checkStatements (file : String) (table : SymbolTable) (findings : List Finding) :
    List Statement → Option (List Finding)
  | [] => some findings
  | s :: rest => do
    let findings ← checkStatement file table findings s
    checkStatements file table findings rest

end

end Typing

/-- The findings of the type check of a form; none when an operator lacks an operand. -/
def Form.checkTypes (f : Form) (table : SymbolTable) : Option (List Finding) :=
  Typing.checkStatements f.file table [] f.statements

end Questionnaire
