import Questionnaire.Proofs.Typing.Accumulation

/-!
# Where the type check has no result

The type check has to say where an operand without a type stands, and an operand that is not there
stands nowhere. `Form.checkTypes_eq_none_iff` says that this is the only way for it to break down,
and that every missing operand leads there, wherever it is and whatever else is wrong: the check has
no result exactly when an operator lacks an operand in the expression of a calculated question or
in the guard of a condition at some place of the form. A guard or an expression that is missing as a
whole does no harm.
-/

namespace Questionnaire

namespace Expr

/-- The node `n` is the expression or a part of it. -/
inductive Occurs (n : Expr) : Expr → Prop
  | self : Occurs n n
  | operand {p : Position} {op : UnaryOp} {x : Expr} (h : Occurs n x) : Occurs n (.unary p op x)
  | left {p : Position} {op : BinaryOp} {l r : Expr} (h : Occurs n l) : Occurs n (.binary p op l r)
  | right {p : Position} {op : BinaryOp} {l r : Expr} (h : Occurs n r) :
      Occurs n (.binary p op l r)

/-- An operator without its operand, or without one of its two. -/
inductive LacksOperand : Expr → Prop
  | operand {p : Position} {op : UnaryOp} : LacksOperand (.unary p op .absent)
  | left {p : Position} {op : BinaryOp} {r : Expr} : LacksOperand (.binary p op .absent r)
  | right {p : Position} {op : BinaryOp} {l : Expr} : LacksOperand (.binary p op l .absent)

/-- A node in a complete expression is complete. -/
theorem Occurs.isComplete {n e : Expr} (h : Occurs n e) (he : e.isComplete) : n.isComplete := by
  induction h with
  | self => exact he
  | operand _ ih => exact ih he
  | left _ ih => exact ih (Bool.and_eq_true_iff.1 he).1
  | right _ ih => exact ih (Bool.and_eq_true_iff.1 he).2

theorem LacksOperand.not_isComplete {n : Expr} (h : LacksOperand n) : ¬ n.isComplete := by
  cases h <;> simp [isComplete]

/-- What is incomplete below an operator is a missing operand of that operator or of one below. -/
theorem exists_lacksOperand_of_not_isComplete {e : Expr} (habsent : e ≠ .absent)
    (h : ¬ e.isComplete) : ∃ n, Occurs n e ∧ n.LacksOperand := by
  induction e with
  | absent => exact absurd rfl habsent
  | literal => exact absurd rfl h
  | reference => exact absurd rfl h
  | unary p op x ih =>
    by_cases hx : x = .absent
    · subst hx
      exact ⟨_, .self, .operand⟩
    · obtain ⟨n, hn, hlacks⟩ := ih hx h
      exact ⟨n, .operand hn, hlacks⟩
  | binary p op l r ihl ihr =>
    by_cases hl : l = .absent
    · subst hl
      exact ⟨_, .self, .left⟩
    by_cases hr : r = .absent
    · subst hr
      exact ⟨_, .self, .right⟩
    by_cases hcomplete : l.isComplete
    · have hright : ¬ r.isComplete := fun hright ↦ h (by simp [isComplete, hcomplete, hright])
      obtain ⟨n, hn, hlacks⟩ := ihr hr hright
      exact ⟨n, .right hn, hlacks⟩
    · obtain ⟨n, hn, hlacks⟩ := ihl hl hcomplete
      exact ⟨n, .left hn, hlacks⟩

/-- **Operands are missing** exactly when some operator lacks one. -/
theorem not_operandsPresent_iff {e : Expr} :
    ¬ e.OperandsPresent ↔ ∃ n, Occurs n e ∧ n.LacksOperand := by
  constructor
  · intro h
    obtain ⟨habsent, hincomplete⟩ := not_or.1 h
    exact exists_lacksOperand_of_not_isComplete habsent hincomplete
  · rintro ⟨n, hn, hlacks⟩ (rfl | hcomplete)
    · cases hn
      cases hlacks
    · exact hlacks.not_isComplete (hn.isComplete hcomplete)

end Expr

namespace Typing

variable {file : String} {table : SymbolTable}

/-- A missing operand without a type cannot be reported. -/
theorem reportOperand_absent (mark : Nat) (findings : List Finding) :
    reportOperand file mark findings .undefined .absent = none :=
  rfl

/-- **The check of an expression** has no result when an operator lacks an operand. -/
theorem check_eq_none {e : Expr} (h : ¬ e.OperandsPresent) :
    ∀ findings, check file table findings e = none := by
  induction e with
  | absent => exact absurd (Or.inl rfl) h
  | literal => exact absurd (Or.inr rfl) h
  | reference => exact absurd (Or.inr rfl) h
  | unary p op x ih =>
    intro findings
    by_cases hx : x = .absent
    · subst hx
      rfl
    · have hpresent : ¬ x.OperandsPresent := by
        rintro (habsent | hcomplete)
        · exact hx habsent
        · exact h (Or.inr hcomplete)
      rw [check, ih hpresent]
      rfl
  | binary p op l r ihl ihr =>
    intro findings
    rw [check]
    by_cases hleft : l.OperandsPresent
    · rw [check_eq hleft]
      simp only [Option.bind_eq_bind, Option.bind_some]
      by_cases hright : r.OperandsPresent
      · -- one of the two operands is missing as a whole, and it has no type
        rw [check_eq hright]
        simp only [Option.bind_some]
        rcases hleft with rfl | hleft
        · have ht : (outcome file table .absent).1 = .undefined := rfl
          rw [if_pos (Or.inl ht), ht, reportOperand_absent]
          rfl
        · rcases hright with rfl | hright
          · have ht : (outcome file table .absent).1 = .undefined := rfl
            rw [if_pos (Or.inr ht), ht, reportOperand_eq hleft]
            simp only [Option.bind_some, reportOperand_absent]
            rfl
          · exact absurd (Or.inr (by simp [Expr.isComplete, hleft, hright])) h
      · rw [ihr hright]
        rfl
    · rw [ihl hleft]
      rfl

end Typing

/-- The expression that a statement holds itself: that of a calculated question or the guard of a
condition. -/
def Statement.expr? : Statement → Option Expr
  | .question _ => none
  | .calculated _ value => some value
  | .condition _ guard _ => some guard

theorem Statement.operandsPresent_iff {s : Statement} :
    s.OperandsPresent ↔ ∀ e, s.expr? = some e → e.OperandsPresent := by
  cases s with
  | question q => simp [OperandsPresent, expr?]
  | calculated q value => simp [OperandsPresent, expr?]
  | condition p guard body => simp [OperandsPresent, expr?]

namespace Typing

variable {file : String} {table : SymbolTable}

/-- **The check of a list of statements** has no result when an operator in one of them, or below
one of them, lacks an operand. -/
theorem checkStatements_eq_none {l : List Statement} {s : Statement}
    (hs : s ∈ Statement.nestedAll l) (h : ¬ s.OperandsPresent) :
    ∀ findings, checkStatements file table findings l = none := by
  induction l using Statement.listInduction with
  | nil => exact absurd hs (by simp)
  | question q rest ih =>
    intro findings
    rw [Statement.nestedAll_question, List.mem_cons] at hs
    rcases hs with rfl | hs
    · exact absurd trivial h
    · rw [checkStatements, checkStatement]
      exact ih hs findings
  | calculated q value rest ih =>
    intro findings
    rw [Statement.nestedAll_calculated, List.mem_cons] at hs
    rw [checkStatements, checkStatement]
    rcases hs with rfl | hs
    · rw [check_eq_none h]
      rfl
    · cases check file table findings value with
      | none => rfl
      | some r => exact ih hs _
  | condition p guard body rest ihbody ihrest =>
    intro findings
    rw [Statement.nestedAll_condition, List.mem_cons, List.mem_append] at hs
    rw [checkStatements, checkStatement]
    rcases hs with rfl | hs | hs
    · rw [check_eq_none h]
      rfl
    · cases check file table findings guard with
      | none => rfl
      | some r =>
        simp only [Option.bind_eq_bind, Option.bind_some, ihbody hs]
        rfl
    · cases check file table findings guard with
      | none => rfl
      | some r =>
        simp only [Option.bind_eq_bind, Option.bind_some]
        cases checkStatements file table (r.2 ++ guardFindings file p r.1) body with
        | none => rfl
        | some after => exact ihrest hs after

end Typing

/-- **The type check of a form has no result** exactly when, at some place of the form, an operator
in an expression or a guard lacks an operand. -/
theorem Form.checkTypes_eq_none_iff {f : Form} {table : SymbolTable} :
    f.checkTypes table = none ↔ ∃ path s e n, Statement.At f.statements path s ∧
      s.expr? = some e ∧ Expr.Occurs n e ∧ n.LacksOperand := by
  constructor
  · intro hnone
    by_contra hpresent
    have hall : ∀ s ∈ f.statementsAll, s.OperandsPresent := by
      intro s hs
      obtain ⟨path, place⟩ := Statement.mem_nestedAll_iff.1 hs
      refine Statement.operandsPresent_iff.2 fun e he ↦ ?_
      by_contra hmissing
      obtain ⟨n, hn, hlacks⟩ := Expr.not_operandsPresent_iff.1 hmissing
      exact hpresent ⟨path, s, e, n, place, he, hn, hlacks⟩
    rw [checkTypes_eq table hall] at hnone
    exact absurd hnone (by simp)
  · rintro ⟨path, s, e, n, place, he, hn, hlacks⟩
    refine Typing.checkStatements_eq_none (Statement.mem_nestedAll_iff.2 ⟨path, place⟩) ?_ []
    intro hpresent
    exact Expr.not_operandsPresent_iff.2 ⟨n, hn, hlacks⟩
      (Statement.operandsPresent_iff.1 hpresent e he)

end Questionnaire
