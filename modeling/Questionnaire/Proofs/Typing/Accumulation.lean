import Questionnaire.Analysis.Typing
import Questionnaire.Proofs.Places

/-!
# The type check adds to its findings

The check is handed the findings so far and looks back at them: an operand is not reported as
undefined when it has reported itself since a mark. It never looks behind the mark it was entered
at, so what it adds does not depend on what was there (`check_append`).

That takes the accumulator out of the check. `outcome` is the type of an expression with the
findings on it alone, and the check of a list of statements adds, one statement after another, what
each has to say for itself (`checkStatements_eq`). Everything else about types is stated over
`outcome` and `ownFindings`.
-/

namespace Questionnaire

/-- No operator of an expression lacks an operand. A missing expression has no operator. -/
def Expr.OperandsPresent (e : Expr) : Prop :=
  e = .absent ∨ e.isComplete

instance : DecidablePred Expr.OperandsPresent :=
  fun e ↦ inferInstanceAs (Decidable (e = .absent ∨ e.isComplete))

namespace Typing

variable {file : String} {table : SymbolTable}

/-! ### Findings in front -/

theorem undefinedOperand_append (pre findings : List Finding) (mark : Nat) (operand : Expr) :
    undefinedOperand file (pre.length + mark) (pre ++ findings) operand =
      (undefinedOperand file mark findings operand).map (pre ++ ·) := by
  unfold undefinedOperand
  cases operand.pos? with
  | none => rfl
  | some p =>
    simp only [Option.map_some, List.drop_length_add_append]
    split
    · rfl
    · rw [List.append_assoc]

theorem reportOperand_append (pre findings : List Finding) (mark : Nat) (t : ValueType)
    (operand : Expr) :
    reportOperand file (pre.length + mark) (pre ++ findings) t operand =
      (reportOperand file mark findings t operand).map (pre ++ ·) := by
  unfold reportOperand
  split
  · exact undefinedOperand_append pre findings mark operand
  · rfl

theorem operandType_append (pre findings : List Finding) (pos : Position) (t : ValueType)
    (allowed : List ValueType) (operator : String) :
    operandType file (pre ++ findings) pos t allowed operator =
      ((operandType file findings pos t allowed operator).1,
        pre ++ (operandType file findings pos t allowed operator).2) := by
  unfold operandType
  split
  · rfl
  · rw [List.append_assoc]

theorem combine_append (pre findings : List Finding) (pos : Position) (op : BinaryOp)
    (l r : ValueType) :
    combine file (pre ++ findings) pos op l r =
      ((combine file findings pos op l r).1, pre ++ (combine file findings pos op l r).2) := by
  unfold combine
  split
  · rw [List.append_assoc]
  · simp only [operandType_append]

/-- **The check of an expression does not depend on the findings before it.** -/
theorem check_append (pre : List Finding) (e : Expr) :
    ∀ findings, check file table (pre ++ findings) e =
      (check file table findings e).map fun r ↦ (r.1, pre ++ r.2) := by
  induction e with
  | absent => exact fun _ ↦ rfl
  | literal p v => exact fun _ ↦ rfl
  | reference p n =>
    intro findings
    rw [check, check]
    cases table.lookup n with
    | some s => rfl
    | none => rw [Option.map_some, List.append_assoc]
  | unary p op x ih =>
    intro findings
    rw [check, check, ih]
    cases check file table findings x with
    | none => rfl
    | some r =>
      obtain ⟨t, after⟩ := r
      simp only [Option.map_some, Option.bind_eq_bind, Option.bind_some, List.length_append]
      split
      · rw [undefinedOperand_append]
        cases undefinedOperand file findings.length after x <;> rfl
      · rw [operandType_append]
        rfl
  | binary p op l r ihl ihr =>
    intro findings
    rw [check, check, ihl]
    cases check file table findings l with
    | none => rfl
    | some a =>
      obtain ⟨lt, afterLeft⟩ := a
      simp only [Option.map_some, Option.bind_eq_bind, Option.bind_some]
      rw [ihr]
      cases check file table afterLeft r with
      | none => rfl
      | some b =>
        obtain ⟨rt, after⟩ := b
        simp only [Option.map_some, Option.bind_some, List.length_append]
        split
        · -- both marks lie behind `pre`
          rw [reportOperand_append]
          cases reportOperand file findings.length after lt l with
          | none => rfl
          | some afterReport =>
            simp only [Option.map_some, Option.bind_some]
            rw [reportOperand_append]
            cases reportOperand file afterLeft.length afterReport rt r <;> rfl
        · rw [combine_append]
          rfl

/-! ### The outcome of an expression -/

/-- The type of an expression, and the findings on it alone. -/
def outcome (file : String) (table : SymbolTable) (e : Expr) : ValueType × List Finding :=
  (check file table [] e).getD (.undefined, [])

/-- The findings with an operand reported, as far as it has to be. -/
def reported (file : String) (mark : Nat) (findings : List Finding) (t : ValueType)
    (operand : Expr) : List Finding :=
  (reportOperand file mark findings t operand).getD findings

/-- An operand that is there can be reported. -/
theorem reportOperand_eq {e : Expr} (h : e.isComplete) (mark : Nat) (findings : List Finding)
    (t : ValueType) :
    reportOperand file mark findings t e = some (reported file mark findings t e) := by
  obtain ⟨after, hafter⟩ : ∃ after, reportOperand file mark findings t e = some after := by
    unfold reportOperand undefinedOperand
    cases e with
    | absent => exact absurd h (by simp [Expr.isComplete])
    | literal => split <;> exact ⟨_, rfl⟩
    | reference => split <;> exact ⟨_, rfl⟩
    | unary => split <;> exact ⟨_, rfl⟩
    | binary => split <;> exact ⟨_, rfl⟩
  rw [reported, hafter, Option.getD_some]

theorem check_of_check_nil {e : Expr} {r : ValueType × List Finding}
    (h : check file table [] e = some r) (findings : List Finding) :
    check file table findings e = some (r.1, findings ++ r.2) := by
  have happend : check file table (findings ++ []) e = _ := check_append findings e []
  rwa [List.append_nil, h, Option.map_some] at happend

/-- An operator whose operand has no type has none. -/
theorem check_unary_of_undefined {p : Position} {op : UnaryOp} {x : Expr} {new : List Finding}
    (hx : x.isComplete) (h : check file table [] x = some (.undefined, new)) :
    check file table [] (.unary p op x) =
      some (.undefined, reported file 0 new .undefined x) := by
  have hreport : reportOperand file 0 new .undefined x = _ := reportOperand_eq hx 0 new .undefined
  rw [reportOperand, if_pos rfl] at hreport
  rw [check, h]
  simp only [Option.bind_eq_bind, Option.bind_some, if_true, List.length_nil, hreport]
  rfl

theorem check_unary_of_typed {p : Position} {op : UnaryOp} {x : Expr} {t : ValueType}
    {new : List Finding} (h : check file table [] x = some (t, new)) (ht : t ≠ .undefined) :
    check file table [] (.unary p op x) =
      some (operandType file new p t op.operandTypes op.name) := by
  rw [check, h]
  simp only [Option.bind_eq_bind, Option.bind_some, if_neg ht]
  rfl

theorem check_binary_of_undefined {p : Position} {op : BinaryOp} {l r : Expr} {lt rt : ValueType}
    {new new' : List Finding} (hl : l.isComplete) (hr : r.isComplete)
    (h : check file table [] l = some (lt, new)) (h' : check file table [] r = some (rt, new'))
    (ht : lt = .undefined ∨ rt = .undefined) :
    check file table [] (.binary p op l r) =
      some (.undefined, reported file new.length (reported file 0 (new ++ new') lt l) rt r) := by
  rw [check, h]
  simp only [Option.bind_eq_bind, Option.bind_some, check_of_check_nil h', if_pos ht,
    List.length_nil, reportOperand_eq hl, reportOperand_eq hr]
  rfl

theorem check_binary_of_typed {p : Position} {op : BinaryOp} {l r : Expr} {lt rt : ValueType}
    {new new' : List Finding} (h : check file table [] l = some (lt, new))
    (h' : check file table [] r = some (rt, new')) (hl : lt ≠ .undefined) (hr : rt ≠ .undefined) :
    check file table [] (.binary p op l r) = some (combine file (new ++ new') p op lt rt) := by
  rw [check, h]
  simp only [Option.bind_eq_bind, Option.bind_some, check_of_check_nil h',
    if_neg (not_or.2 ⟨hl, hr⟩)]
  rfl

theorem exists_check_of_isComplete {e : Expr} (h : e.isComplete) :
    ∃ r, check file table [] e = some r := by
  induction e with
  | absent => exact ⟨_, rfl⟩
  | literal => exact ⟨_, rfl⟩
  | reference p n =>
    rw [check]
    cases table.lookup n <;> exact ⟨_, rfl⟩
  | unary p op x ih =>
    obtain ⟨⟨t, new⟩, hx⟩ := ih h
    by_cases ht : t = .undefined
    · subst ht
      exact ⟨_, check_unary_of_undefined h hx⟩
    · exact ⟨_, check_unary_of_typed hx ht⟩
  | binary p op l r ihl ihr =>
    obtain ⟨hl, hr⟩ := Bool.and_eq_true_iff.1 h
    obtain ⟨⟨lt, new⟩, hl'⟩ := ihl hl
    obtain ⟨⟨rt, new'⟩, hr'⟩ := ihr hr
    by_cases ht : lt = .undefined ∨ rt = .undefined
    · exact ⟨_, check_binary_of_undefined hl hr hl' hr' ht⟩
    · obtain ⟨hlt, hrt⟩ := not_or.1 ht
      exact ⟨_, check_binary_of_typed hl' hr' hlt hrt⟩

/-- **The check of an expression** gives its type and adds the findings on it alone. -/
theorem check_eq {e : Expr} (h : e.OperandsPresent) (findings : List Finding) :
    check file table findings e =
      some ((outcome file table e).1, findings ++ (outcome file table e).2) := by
  obtain ⟨r, hr⟩ : ∃ r, check file table [] e = some r := by
    rcases h with rfl | h
    · exact ⟨_, rfl⟩
    · exact exists_check_of_isComplete h
  rw [check_of_check_nil hr, outcome, hr, Option.getD_some]

/-! ### The findings on statements -/

/-- What is to be said of a statement itself, without the block of a condition. -/
def ownFindings (file : String) (table : SymbolTable) : Statement → List Finding
  | .question _ => []
  | .calculated q value =>
    (outcome file table value).2 ++ calculatedFindings file q (outcome file table value).1
  | .condition p guard _ =>
    (outcome file table guard).2 ++ guardFindings file p (outcome file table guard).1

end Typing

/-- No operator in the expression of a statement itself lacks an operand. -/
def Statement.OperandsPresent : Statement → Prop
  | .question _ => True
  | .calculated _ value => value.OperandsPresent
  | .condition _ guard _ => guard.OperandsPresent

instance : DecidablePred Statement.OperandsPresent
  | .question _ => .isTrue trivial
  | .calculated _ value => inferInstanceAs (Decidable value.OperandsPresent)
  | .condition _ guard _ => inferInstanceAs (Decidable guard.OperandsPresent)

namespace Typing

variable {file : String} {table : SymbolTable}

/-- **The check of a list of statements** adds what each statement has to say for itself. -/
theorem checkStatements_eq {l : List Statement}
    (h : ∀ s ∈ Statement.nestedAll l, s.OperandsPresent) :
    ∀ findings, checkStatements file table findings l =
      some (findings ++ (Statement.nestedAll l).flatMap (ownFindings file table)) := by
  induction l using Statement.listInduction with
  | nil =>
    intro findings
    rw [checkStatements, Statement.nestedAll_nil, List.flatMap_nil, List.append_nil]
  | question q rest ih =>
    intro findings
    rw [Statement.nestedAll_question, List.forall_mem_cons] at h
    rw [checkStatements, checkStatement]
    simp only [Option.bind_eq_bind, Option.bind_some, ih h.2, Statement.nestedAll_question,
      List.flatMap_cons, ownFindings, List.nil_append]
  | calculated q value rest ih =>
    intro findings
    rw [Statement.nestedAll_calculated, List.forall_mem_cons] at h
    rw [checkStatements, checkStatement, check_eq h.1]
    simp only [Option.bind_eq_bind, Option.bind_some, Option.pure_def, ih h.2,
      Statement.nestedAll_calculated, List.flatMap_cons, ownFindings, List.append_assoc]
  | condition p guard body rest ihbody ihrest =>
    intro findings
    rw [Statement.nestedAll_condition, List.forall_mem_cons, List.forall_mem_append] at h
    obtain ⟨hguard, hbody, hrest⟩ := h
    rw [checkStatements, checkStatement, check_eq hguard]
    simp only [Option.bind_eq_bind, Option.bind_some, ihbody hbody, ihrest hrest,
      Statement.nestedAll_condition, List.flatMap_cons, List.flatMap_append, ownFindings,
      List.append_assoc]

end Typing

/-- The type check of a form says, statement by statement, what each has to say for itself. -/
theorem Form.checkTypes_eq {f : Form} (table : SymbolTable)
    (h : ∀ s ∈ f.statementsAll, s.OperandsPresent) :
    f.checkTypes table = some (f.statementsAll.flatMap (Typing.ownFindings f.file table)) :=
  Typing.checkStatements_eq h []

end Questionnaire
