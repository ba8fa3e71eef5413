import Questionnaire.Proofs.Typing.Judgement
import Questionnaire.Proofs.Typing.Operands

/-!
# What each node of an expression has to say

The check of an operator looks back at what was found on its operands, by marks into the list of
findings. Taken apart, it does two things. It reports an operand without a type unless the operand
was noted before (`operandReport`), and, when all operands have types, it says what is wrong with
the operator itself (`operatorFindings`). `outcome_unary_snd` and `outcome_binary_snd` are these two
things as equations, with no marks left in them, and nothing behind them opens the check again.

The reports of operands are all of one kind. Findings of other kinds are therefore what the nodes of
the expression say of themselves, node by node (`filter_outcome`).
-/

namespace Questionnaire

theorem Location.ofPosition_injective (file : String) :
    Function.Injective (Location.ofPosition file) := by
  intro p q h
  cases p
  cases q
  simpa [Location.ofPosition] using h

namespace Expr

/-! ### Nodes and operands -/

/-- The operands of an operator. -/
def operands : Expr → List Expr
  | .unary _ _ x => [x]
  | .binary _ _ l r => [l, r]
  | .absent | .literal .. | .reference .. => []

/-- The nodes of an expression, each behind those below it and left before right. -/
def nodes : Expr → List Expr
  | .absent => []
  | .literal p v => [.literal p v]
  | .reference p n => [.reference p n]
  | .unary p op x => x.nodes ++ [.unary p op x]
  | .binary p op l r => l.nodes ++ r.nodes ++ [.binary p op l r]

theorem occurs_unary_iff {n x : Expr} {p : Position} {op : UnaryOp} :
    Occurs n (.unary p op x) ↔ n = .unary p op x ∨ Occurs n x := by
  constructor
  · rintro (_ | h)
    · exact Or.inl rfl
    · exact Or.inr h
  · rintro (rfl | h)
    · exact .self
    · exact .operand h

theorem occurs_binary_iff {n l r : Expr} {p : Position} {op : BinaryOp} :
    Occurs n (.binary p op l r) ↔ n = .binary p op l r ∨ Occurs n l ∨ Occurs n r := by
  constructor
  · rintro (_ | _ | h | h)
    · exact Or.inl rfl
    · exact Or.inr (Or.inl h)
    · exact Or.inr (Or.inr h)
  · rintro (rfl | h | h)
    · exact .self
    · exact .left h
    · exact .right h

/-- A part of a part is a part. -/
theorem Occurs.trans {m n e : Expr} (h : Occurs m n) (hn : Occurs n e) : Occurs m e := by
  induction hn with
  | self => exact h
  | operand _ ih => exact .operand ih
  | left _ ih => exact .left ih
  | right _ ih => exact .right ih

/-- **The nodes of an expression** are its parts. -/
theorem mem_nodes_iff {n e : Expr} (he : e.isComplete) : n ∈ e.nodes ↔ Occurs n e := by
  induction e with
  | absent => exact absurd he (by simp [isComplete])
  | literal p v =>
    rw [nodes, List.mem_singleton]
    exact ⟨fun h ↦ h ▸ .self, fun h ↦ by cases h; rfl⟩
  | reference p name =>
    rw [nodes, List.mem_singleton]
    exact ⟨fun h ↦ h ▸ .self, fun h ↦ by cases h; rfl⟩
  | unary p op x ih =>
    rw [nodes, List.mem_append, List.mem_singleton, ih he, occurs_unary_iff, or_comm]
  | binary p op l r ihl ihr =>
    obtain ⟨hl, hr⟩ := Bool.and_eq_true_iff.1 he
    rw [nodes, List.mem_append, List.mem_append, List.mem_singleton, ihl hl, ihr hr,
      occurs_binary_iff, or_comm]

end Expr

namespace Typing

variable {file : String} {table : SymbolTable}

/-! ### Reports of operands -/

/-- An undefined reference was found at a position. -/
def noted (file : String) (findings : List Finding) (p : Position) : Bool :=
  findings.any fun f ↦ f.kind == .undefinedReference && f.location == .ofPosition file p

theorem noted_iff {findings : List Finding} {p : Position} :
    noted file findings p ↔
      ∃ f ∈ findings, f.kind = .undefinedReference ∧ f.location = .ofPosition file p := by
  simp [noted]

/-- What an operator adds for one of its operands, of type `t`, where `seen` was found on its
operands before. -/
def operandReport (file : String) (seen : List Finding) (t : ValueType) (operand : Expr) :
    List Finding :=
  if t = .undefined then
    ((operand.pos?.toList.filter fun p ↦ !noted file seen p).map fun p ↦
      .undefinedReference (.ofPosition file p) operand.text)
  else []

theorem operandReport_of_typed {seen : List Finding} {t : ValueType} (ht : t ≠ .undefined)
    (operand : Expr) : operandReport file seen t operand = [] :=
  if_neg ht

/-- Only what was found from the mark on keeps an operand from being reported. -/
theorem reported_eq_append (mark : Nat) (findings : List Finding) (t : ValueType) (e : Expr) :
    reported file mark findings t e = findings ++ operandReport file (findings.drop mark) t e := by
  unfold reported reportOperand undefinedOperand operandReport noted
  split
  · cases e.pos? with
    | none => simp
    | some p =>
      simp only [Option.map_some, Option.getD_some, Option.toList_some]
      split
      · rename_i hnoted
        simp [hnoted]
      · rename_i hnoted
        simp [hnoted]
  · simp

/-- The reports of operands are undefined references. -/
theorem kind_of_mem_operandReport {seen : List Finding} {t : ValueType} {operand : Expr}
    {f : Finding} (h : f ∈ operandReport file seen t operand) : f.kind = .undefinedReference := by
  unfold operandReport at h
  split at h
  · obtain ⟨p, -, rfl⟩ := List.mem_map.1 h
    rfl
  · exact absurd h List.not_mem_nil

/-! ### Findings on operators -/

/-- What an operator has to say of itself: something only when all its operands have types. -/
def operatorFindings (file : String) (table : SymbolTable) : Expr → List Finding
  | .unary p op x =>
    if (outcome file table x).1 = .undefined then []
    else (operandType file [] p (outcome file table x).1 op.operandTypes op.name).2
  | .binary p op l r =>
    if (outcome file table l).1 = .undefined ∨ (outcome file table r).1 = .undefined then []
    else (combine file [] p op (outcome file table l).1 (outcome file table r).1).2
  | .absent | .literal .. | .reference .. => []

theorem outcome_eq_of_check {e : Expr} {r : ValueType × List Finding}
    (h : check file table [] e = some r) : outcome file table e = r := by
  rw [outcome, h, Option.getD_some]

theorem outcome_reference (p : Position) (name : String) :
    outcome file table (.reference p name) =
      match table.lookup name with
      | some s => (s.type, [])
      | none => (.undefined, [.undefinedReference (.ofPosition file p) name]) := by
  rw [outcome, check]
  cases table.lookup name <;> rfl

/-- **One operand.** -/
theorem outcome_unary_snd (p : Position) (op : UnaryOp) {x : Expr} (hx : x.isComplete) :
    (outcome file table (.unary p op x)).2 =
      (outcome file table x).2 ++
        operandReport file (outcome file table x).2 (outcome file table x).1 x ++
        operatorFindings file table (.unary p op x) := by
  obtain ⟨⟨t, new⟩, hcheck⟩ : ∃ r, check file table [] x = some r := exists_check_of_isComplete hx
  rw [operatorFindings, outcome_eq_of_check hcheck]
  by_cases ht : t = .undefined
  · subst ht
    rw [outcome_eq_of_check (check_unary_of_undefined hx hcheck), reported_eq_append, if_pos rfl,
      List.append_nil, List.drop_zero]
  · have happend : operandType file (new ++ []) p t op.operandTypes op.name = _ :=
      operandType_append new [] p t op.operandTypes op.name
    rw [List.append_nil] at happend
    rw [outcome_eq_of_check (check_unary_of_typed hcheck ht), operandReport_of_typed ht, if_neg ht,
      List.append_nil, happend]

/-- **Two operands.** The left one is reported first, but after both have been looked at. -/
theorem outcome_binary_snd (p : Position) (op : BinaryOp) {l r : Expr} (hl : l.isComplete)
    (hr : r.isComplete) :
    (outcome file table (.binary p op l r)).2 =
      (outcome file table l).2 ++ (outcome file table r).2 ++
        operandReport file ((outcome file table l).2 ++ (outcome file table r).2)
          (outcome file table l).1 l ++
        operandReport file ((outcome file table r).2 ++
            operandReport file ((outcome file table l).2 ++ (outcome file table r).2)
              (outcome file table l).1 l)
          (outcome file table r).1 r ++
        operatorFindings file table (.binary p op l r) := by
  obtain ⟨⟨lt, new⟩, hleft⟩ : ∃ a, check file table [] l = some a := exists_check_of_isComplete hl
  obtain ⟨⟨rt, new'⟩, hright⟩ : ∃ b, check file table [] r = some b :=
    exists_check_of_isComplete hr
  rw [operatorFindings, outcome_eq_of_check hleft, outcome_eq_of_check hright]
  by_cases ht : lt = .undefined ∨ rt = .undefined
  · rw [outcome_eq_of_check (check_binary_of_undefined hl hr hleft hright ht), reported_eq_append,
      reported_eq_append, if_pos ht, List.append_nil, List.drop_zero]
    -- the second mark lies right behind what was found on the left operand
    simp only [List.append_assoc, List.drop_left]
  · obtain ⟨hlt, hrt⟩ := not_or.1 ht
    have happend : combine file (new ++ new' ++ []) p op lt rt = _ :=
      combine_append (new ++ new') [] p op lt rt
    rw [List.append_nil] at happend
    rw [outcome_eq_of_check (check_binary_of_typed hleft hright hlt hrt),
      operandReport_of_typed hlt, operandReport_of_typed hrt, if_neg ht, List.append_nil,
      List.append_nil, happend]

/-! ### Findings other than undefined references -/

theorem filter_operandReport {P : Kind → Bool} (hP : P .undefinedReference = false)
    (seen : List Finding) (t : ValueType) (operand : Expr) :
    ((operandReport file seen t operand).filter fun f ↦ P f.kind) = [] := by
  refine List.filter_eq_nil_iff.2 fun f hf ↦ ?_
  rw [kind_of_mem_operandReport hf, hP]
  exact Bool.false_ne_true

/-- **Findings other than undefined references** are what the operators of an expression have to say
of themselves. -/
theorem filter_outcome {P : Kind → Bool} (hP : P .undefinedReference = false) {e : Expr}
    (he : e.isComplete) :
    ((outcome file table e).2.filter fun f ↦ P f.kind) =
      e.nodes.flatMap fun n ↦ (operatorFindings file table n).filter fun f ↦ P f.kind := by
  induction e with
  | absent => exact absurd he (by simp [Expr.isComplete])
  | literal p v => rfl
  | reference p name =>
    show _ = []
    refine List.filter_eq_nil_iff.2 fun f hf ↦ ?_
    rw [outcome_reference] at hf
    split at hf
    · exact absurd hf List.not_mem_nil
    · rw [List.mem_singleton.1 hf]
      exact ne_true_of_eq_false hP
  | unary p op x ih =>
    have hx : x.isComplete := he
    rw [outcome_unary_snd p op hx, Expr.nodes, List.flatMap_append, ← ih hx, List.filter_append,
      List.filter_append, filter_operandReport hP, List.append_nil, List.flatMap_singleton]
  | binary p op l r ihl ihr =>
    obtain ⟨hl, hr⟩ := Bool.and_eq_true_iff.1 he
    rw [outcome_binary_snd p op hl hr, Expr.nodes, List.flatMap_append, List.flatMap_append,
      ← ihl hl, ← ihr hr]
    simp only [List.filter_append, filter_operandReport hP, List.append_nil, List.flatMap_singleton]

/-! ### The findings on one operator -/

theorem mem_operandType {findings : List Finding} {p : Position} {t : ValueType}
    {allowed : List ValueType} {operator : String} {f : Finding}
    (h : f ∈ (operandType file findings p t allowed operator).2) :
    f ∈ findings ∨ f = .typeNotAllowed (.ofPosition file p) t.name operator := by
  unfold operandType at h
  split at h
  · exact Or.inl h
  · rwa [List.mem_append, List.mem_singleton] at h

theorem mem_combine {p : Position} {op : BinaryOp} {l r : ValueType} {f : Finding}
    (h : f ∈ (combine file [] p op l r).2) :
    f = .invalidOperandType (.ofPosition file p) op.name l.name r.name ∨
      ∃ t : ValueType, f = .typeNotAllowed (.ofPosition file p) t.name op.name := by
  unfold combine at h
  split at h
  · rw [List.nil_append, incompatibleOperands, List.mem_cons] at h
    rcases h with rfl | h
    · exact Or.inl rfl
    · obtain ⟨t, -, rfl⟩ := List.mem_map.1 h
      exact Or.inr ⟨t, rfl⟩
  · rcases mem_operandType h with h | h
    · exact absurd h List.not_mem_nil
    · exact Or.inr ⟨_, h⟩

/-- **What an operator says of itself** is of two kinds, and stands at the operator. -/
theorem mem_operatorFindings {n : Expr} {f : Finding} (h : f ∈ operatorFindings file table n) :
    ∃ p, n.pos? = some p ∧ f.location = .ofPosition file p ∧
      (f.kind = .typeNotAllowed ∨ f.kind = .invalidOperandType) := by
  cases n with
  | absent | literal | reference => exact absurd h List.not_mem_nil
  | unary p op x =>
    rw [operatorFindings] at h
    split at h
    · exact absurd h List.not_mem_nil
    · rcases mem_operandType h with h | rfl
      · exact absurd h List.not_mem_nil
      · exact ⟨p, rfl, rfl, Or.inl rfl⟩
  | binary p op l r =>
    rw [operatorFindings] at h
    split at h
    · exact absurd h List.not_mem_nil
    · rcases mem_combine h with rfl | ⟨t, rfl⟩
      · exact ⟨p, rfl, rfl, Or.inr rfl⟩
      · exact ⟨p, rfl, rfl, Or.inl rfl⟩

/-! ### The findings on one statement -/

/-- What is to be said of a statement, given the type of its expression. -/
def statementFindings (file : String) (table : SymbolTable) : Statement → List Finding
  | .question _ => []
  | .calculated q value => calculatedFindings file q (outcome file table value).1
  | .condition p guard _ => guardFindings file p (outcome file table guard).1

theorem ownFindings_eq (s : Statement) :
    ownFindings file table s = (s.expr?.toList.flatMap fun e ↦ (outcome file table e).2) ++
      statementFindings file table s := by
  cases s with
  | question q => rfl
  | calculated q value =>
    rw [ownFindings, Statement.expr?, Option.toList_some, List.flatMap_singleton, statementFindings]
  | condition p guard body =>
    rw [ownFindings, Statement.expr?, Option.toList_some, List.flatMap_singleton, statementFindings]

/-- What is said of a statement is of two kinds. -/
theorem mem_statementFindings {s : Statement} {f : Finding}
    (h : f ∈ statementFindings file table s) :
    f.kind = .typeMismatch ∨ f.kind = .invalidConditionType := by
  cases s with
  | question q => exact absurd h List.not_mem_nil
  | calculated q value =>
    rw [statementFindings, calculatedFindings] at h
    split at h
    · exact absurd h List.not_mem_nil
    · exact Or.inl (List.mem_singleton.1 h ▸ rfl)
  | condition p guard body =>
    rw [statementFindings, guardFindings] at h
    split at h
    · exact absurd h List.not_mem_nil
    · exact Or.inr (List.mem_singleton.1 h ▸ rfl)

end Typing

/-! ### The expressions of a form -/

namespace Form

variable {f : Form}

/-- The expressions of a form at any depth, in document order: those of calculated questions and the
guards of conditions. -/
def exprs (f : Form) : List Expr :=
  f.statementsAll.filterMap Statement.expr?

/-- The nodes of the expressions of a form. -/
def nodes (f : Form) : List Expr :=
  f.exprs.flatMap Expr.nodes

/-- Findings that are not on statements are findings on their expressions. -/
theorem filter_flatMap_ownFindings {file : String} {table : SymbolTable} {P : Kind → Bool}
    (hmismatch : P .typeMismatch = false) (hcondition : P .invalidConditionType = false) :
    ((f.statementsAll.flatMap (Typing.ownFindings file table)).filter fun e ↦ P e.kind) =
      f.exprs.flatMap fun e ↦ (Typing.outcome file table e).2.filter fun e ↦ P e.kind := by
  rw [exprs, List.filterMap_eq_flatMap_toList, List.flatMap_assoc, List.filter_flatMap]
  refine List.flatMap_congr fun s _ ↦ ?_
  have hnone : ((Typing.statementFindings file table s).filter fun e ↦ P e.kind) = [] := by
    refine List.filter_eq_nil_iff.2 fun e he ↦ ?_
    rcases Typing.mem_statementFindings he with hkind | hkind
    · simp [hkind, hmismatch]
    · simp [hkind, hcondition]
  rw [Typing.ownFindings_eq, List.filter_append, hnone, List.append_nil, List.filter_flatMap]

/-- A name is declared with a type, by its first declaration in document order. -/
def FirstDeclared (f : Form) (name : String) (t : ValueType) : Prop :=
  ∃ q, (f.questions.find? fun q ↦ q.id == name) = some q ∧ q.type = t

theorem declares_eq_firstDeclared (f : Form) : f.resolveSymbols.1.Declares = f.FirstDeclared := by
  funext name t
  refine propext ?_
  rw [SymbolTable.Declares, type?_resolveSymbols_eq, Option.map_eq_some_iff]
  rfl

theorem typesDeclarable_resolveSymbols (h : ∀ q ∈ f.questions, q.type ∈ ValueType.declarable) :
    f.resolveSymbols.1.TypesDeclarable := by
  intro name t ht
  rw [declares_eq_firstDeclared] at ht
  obtain ⟨q, hq, rfl⟩ := ht
  exact h q (List.mem_of_find?_eq_some hq)

/-- **The check computes the judgement** over the first declarations. -/
theorem judges_outcome (h : ∀ q ∈ f.questions, q.type ∈ ValueType.declarable) {e : Expr}
    (hcomplete : e.isComplete) (hknown : e.OperatorsKnown) :
    Judges f.FirstDeclared e (Typing.outcome f.file f.resolveSymbols.1 e) := by
  rw [← declares_eq_firstDeclared]
  exact Typing.judges_outcome (typesDeclarable_resolveSymbols h) hcomplete hknown

end Form

end Questionnaire
