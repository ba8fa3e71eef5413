import Questionnaire.Proofs.Typing.Nodes

/-!
# The check reports exactly where there is no type

An operand without a type is not always reported by its operator: when the operand has reported
itself at its own position, nothing is added. That this leaves no expression without a type
unreported does not follow from one operator alone. It holds because an operator **keeps** what was
found on its operands (`outcome_unary_eq`, `outcome_binary_eq`), so that what is found on a part of
an expression stands, in one piece, in what is found on the whole (`isInfix_outcome_of_occurs`).

`check_computes_judgement` puts this together with the judgement, for whatever was found before.
-/

namespace Questionnaire

namespace SymbolTable

/-- A table that holds declarable types only declares no others. -/
theorem typesDeclarable_of_forall {table : SymbolTable}
    (h : ∀ s ∈ table.symbols, s.type ∈ ValueType.declarable) : table.TypesDeclarable := by
  intro name t ht
  obtain ⟨s, hs, rfl⟩ := Option.map_eq_some_iff.1 ht
  exact h s (mem_of_lookup hs)

end SymbolTable

/-- The operators of a part are operators of the whole. -/
theorem Expr.Occurs.operatorsKnown {n e : Expr} (h : Occurs n e) (he : e.OperatorsKnown) :
    n.OperatorsKnown := by
  induction h with
  | self => exact he
  | operand _ ih => exact ih he.2
  | left _ ih => exact ih he.2.1
  | right _ ih => exact ih he.2.2

/-- An expression with a part that has no type has none. -/
theorem HasType.of_occurs {declared : String → ValueType → Prop} {n e : Expr} {t : ValueType}
    (h : Expr.Occurs n e) (he : HasType declared e t) : ∃ s, HasType declared n s := by
  induction h generalizing t with
  | self => exact ⟨t, he⟩
  | operand _ ih =>
    cases he with
    | unary hx => exact ih hx
  | left _ ih =>
    cases he with
    | binary hl => exact ih hl
  | right _ ih =>
    cases he with
    | binary _ hr => exact ih hr

namespace Judges

variable {declared : String → ValueType → Prop} {e : Expr} {r : ValueType × List Finding}
  {t t' : ValueType}

theorem unique (h : Judges declared e r) (ht : HasType declared e t)
    (ht' : HasType declared e t') : t = t' :=
  ((h.hasType_iff t).1 ht).2.symm.trans ((h.hasType_iff t').1 ht').2

/-- Where the rules give a type, that is what the check came to, with nothing found. -/
theorem eq_of_hasType (h : Judges declared e r) (ht : HasType declared e t) : r = (t, []) := by
  obtain ⟨hdefined, rfl⟩ := (h.hasType_iff t).1 ht
  exact Prod.ext rfl (h.clean_iff.2 hdefined)

/-- Where the rules give no type, the check came to none, and something was found. -/
theorem eq_undefined (h : Judges declared e r) (hnot : ∀ t, ¬ HasType declared e t) :
    r.1 = .undefined ∧ r.2 ≠ [] := by
  have hundefined : r.1 = .undefined := by
    by_contra hdefined
    exact hnot r.1 ((h.hasType_iff r.1).2 ⟨hdefined, rfl⟩)
  exact ⟨hundefined, fun hclean ↦ h.clean_iff.1 hclean hundefined⟩

theorem undefined_iff (h : Judges declared e r) :
    r.1 = .undefined ↔ ∀ t, ¬ HasType declared e t := by
  refine ⟨fun hundefined t ht ↦ ?_, fun hnot ↦ (h.eq_undefined hnot).1⟩
  obtain ⟨hdefined, rfl⟩ := (h.hasType_iff t).1 ht
  exact hdefined hundefined

end Judges

namespace Typing

variable {file : String} {table : SymbolTable}

/-! ### What is found on operands -/

/-- **An operator keeps** what was found on its operand. -/
theorem outcome_unary_eq (p : Position) (op : UnaryOp) {x : Expr} (hx : x.isComplete) :
    ∃ more, (outcome file table (.unary p op x)).2 = (outcome file table x).2 ++ more := by
  rw [outcome_unary_snd p op hx, List.append_assoc]
  exact ⟨_, rfl⟩

/-- **An operator keeps** what was found on its operands, the left one before the right one. -/
theorem outcome_binary_eq (p : Position) (op : BinaryOp) {l r : Expr} (hl : l.isComplete)
    (hr : r.isComplete) :
    ∃ more, (outcome file table (.binary p op l r)).2 =
      (outcome file table l).2 ++ (outcome file table r).2 ++ more := by
  rw [outcome_binary_snd p op hl hr, List.append_assoc, List.append_assoc]
  exact ⟨_, rfl⟩

/-- **What is found on a part** of an expression stands in one piece in what is found on the
expression. -/
theorem isInfix_outcome_of_occurs {n e : Expr} (h : Expr.Occurs n e) (he : e.isComplete) :
    (outcome file table n).2 <:+: (outcome file table e).2 := by
  induction h with
  | self => exact List.infix_rfl
  | @operand p op x _ ih =>
    obtain ⟨more, hmore⟩ : ∃ more, (outcome file table (.unary p op x)).2 = _ ++ more :=
      outcome_unary_eq p op he
    rw [hmore]
    exact (ih he).trans (List.infix_append [] _ more)
  | @left p op l r _ ih =>
    obtain ⟨hl, hr⟩ := Bool.and_eq_true_iff.1 he
    obtain ⟨more, hmore⟩ : ∃ more, (outcome file table (.binary p op l r)).2 = _ ++ more :=
      outcome_binary_eq p op hl hr
    rw [hmore, List.append_assoc]
    exact (ih hl).trans (List.infix_append [] _ _)
  | @right p op l r _ ih =>
    obtain ⟨hl, hr⟩ := Bool.and_eq_true_iff.1 he
    obtain ⟨more, hmore⟩ : ∃ more, (outcome file table (.binary p op l r)).2 = _ ++ more :=
      outcome_binary_eq p op hl hr
    rw [hmore]
    exact (ih hr).trans (List.infix_append _ _ more)

/-! ### Types and findings -/

/-- **The check computes the judgement.** Over a table of declarable types, and whatever was found
before, the check of an expression that is there with known operators gives its type and finds
nothing. When the expression has no type, the check gives `undefined` and adds at least one finding.
An expression has no two types. And no part without a type goes unreported: what the check has to
say of the part alone, which is something, is among what it adds. -/
theorem check_computes_judgement (ht : table.TypesDeclarable) {e : Expr}
    (hcomplete : e.isComplete) (hknown : e.OperatorsKnown) (findings : List Finding) :
    (∀ t, HasType table.Declares e t →
      t ∈ ValueType.declarable ∧ check file table findings e = some (t, findings)) ∧
    ((∀ t, ¬ HasType table.Declares e t) →
      ∃ new, new ≠ [] ∧ check file table findings e = some (.undefined, findings ++ new)) ∧
    (∀ t t', HasType table.Declares e t → HasType table.Declares e t' → t = t') ∧
    ∀ n, Expr.Occurs n e → (∀ t, ¬ HasType table.Declares n t) →
      ∃ own new, own ≠ [] ∧ check file table [] n = some (.undefined, own) ∧ own <:+: new ∧
        check file table findings e = some (.undefined, findings ++ new) := by
  have hcheck : check file table findings e = _ := check_eq (Or.inr hcomplete) findings
  have hjudges : Judges table.Declares e (outcome file table e) :=
    judges_outcome ht hcomplete hknown
  refine ⟨fun t hasType ↦ ?_, fun hnot ↦ ?_, fun t t' ↦ hjudges.unique, fun n hn hnot ↦ ?_⟩
  · rw [hcheck, hjudges.eq_of_hasType hasType, List.append_nil]
    exact ⟨mem_declarable_of_hasType ht hasType, rfl⟩
  · obtain ⟨hundefined, hnew⟩ := hjudges.eq_undefined hnot
    exact ⟨_, hnew, hundefined ▸ hcheck⟩
  · have hpart := hn.isComplete hcomplete
    have hjudgesPart : Judges table.Declares n (outcome file table n) :=
      judges_outcome ht hpart (hn.operatorsKnown hknown)
    obtain ⟨hundefinedPart, hown⟩ := hjudgesPart.eq_undefined hnot
    -- the whole has no type either
    obtain ⟨hundefined, -⟩ := hjudges.eq_undefined fun t hasType ↦ by
      obtain ⟨s, hs⟩ := hasType.of_occurs hn
      exact hnot s hs
    refine ⟨_, _, hown, ?_, isInfix_outcome_of_occurs hn hcomplete, hundefined ▸ hcheck⟩
    rw [check_eq (Or.inr hpart), hundefinedPart, List.nil_append]

/-- A number and a truth value are declared. -/
def offerTable : SymbolTable where
  symbols := [⟨"price", .integer, 0, ⟨1, 1⟩⟩, ⟨"sold", .boolean, 1, ⟨2, 1⟩⟩]
  byName := [("price", 0), ("sold", 1)]

/-- An integer and a decimal are added. -/
def offerSum : Expr :=
  .binary ⟨3, 7⟩ .addition (.reference ⟨3, 1⟩ "price") (.literal ⟨3, 9⟩ (.decimal (.zero false)))

/-- The sign of a truth value is changed, which is not done. -/
def offerSign : Expr :=
  .unary ⟨3, 15⟩ .negative (.reference ⟨3, 16⟩ "sold")

/-- The sum is compared with what has no type. -/
def offerComparison : Expr :=
  .binary ⟨3, 13⟩ .lessThan offerSum offerSign

/-- What was found before the comparison, by chance where its right operand stands. -/
def offerFindings : List Finding :=
  [.undefinedReference ⟨"offer.json", "", 3, 15⟩ "sold"]

/-- What was found before does not keep the operand from being reported. -/
theorem check_computes_offer :
    offerTable.TypesDeclarable ∧ offerComparison.isComplete ∧ offerComparison.OperatorsKnown ∧
      check "offer.json" offerTable offerFindings offerSum = some (.decimal, offerFindings) ∧
      ∃ own new, own ≠ [] ∧ check "offer.json" offerTable [] offerSign = some (.undefined, own) ∧
        own <:+: new ∧
        check "offer.json" offerTable offerFindings offerComparison =
          some (.undefined, offerFindings ++ new) := by
  have htable : offerTable.TypesDeclarable :=
    SymbolTable.typesDeclarable_of_forall (by decide)
  have hsum : HasType offerTable.Declares offerSum .decimal :=
    .binary (.reference rfl) .decimal (.addition .widenLeft .decimal)
  have hsign : ∀ t, ¬ HasType offerTable.Declares offerSign t := by
    intro t hsign
    cases hsign with
    | unary hoperand hop =>
      cases hoperand with
      | reference hdeclared =>
        cases hop with
        | negative hnumeric =>
          obtain rfl : .boolean = t := Option.some.inj hdeclared
          cases hnumeric
  have hknown : offerComparison.OperatorsKnown :=
    ⟨by decide, ⟨by decide, trivial, trivial⟩, by decide, trivial⟩
  refine ⟨htable, rfl, hknown, ?_, ?_⟩
  · exact ((check_computes_judgement htable rfl hknown.2.1 _).1 _ hsum).2
  · exact (check_computes_judgement htable rfl hknown _).2.2.2 _ (.right .self) hsign

end Typing

end Questionnaire
