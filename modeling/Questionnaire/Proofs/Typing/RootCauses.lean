import Questionnaire.Proofs.Typing.Reporting
import Questionnaire.Proofs.WellFormed

/-!
# Errors at their root causes

An operator is an error's root cause when its operands all have types and it has none
(`Expr.RootCause`). What is wrong further down silences every operator above, but no operator beside
it, and neither the condition nor what stands in its body. `operatorFindings_ne_nil_iff` is this for
one operator: it has something to say of itself exactly when it is a root cause.

The findings of the three other kinds are counted. `OneForEach` relates a list of nodes or of
statements with the findings on it: one for each member that gives cause for one, in order, and
none besides. Since findings of one kind come from one place in the check, it is enough to look at
one node or statement at a time (`OneForEach.flatMap`).
-/

namespace Questionnaire

/-! ### Causes -/

/-- An operator without a type whose operands all have types. -/
structure Expr.RootCause (declared : String → ValueType → Prop) (n : Expr) : Prop where
  operator : n.operands ≠ []
  operands : ∀ x ∈ n.operands, ∃ t, HasType declared x t
  illTyped : ∀ t, ¬ HasType declared n t

/-- Two operands have types that differ even when integers are widened, and the finding on this
names the left type and the right type. -/
inductive Expr.Clash (file : String) (declared : String → ValueType → Prop) :
    Expr → Finding → Prop
  | operands {p : Position} {op : BinaryOp} {l r : Expr} {lt rt : ValueType}
      (left : HasType declared l lt) (right : HasType declared r rt)
      (differ : lt.promote ≠ rt.promote) :
      Clash file declared (.binary p op l r)
        (.invalidOperandType (.ofPosition file p) op.name lt.name rt.name)

/-- The expression of a calculated question has a type other than the declared one, when integers
are widened. -/
inductive Statement.Mismatch (file : String) (declared : String → ValueType → Prop) :
    Statement → Finding → Prop
  | calculated {q : Question} {value : Expr} {t : ValueType} (typed : HasType declared value t)
      (differ : t.promote ≠ q.type.promote) :
      Mismatch file declared (.calculated q value)
        (.typeMismatch (.ofPosition file q.pos) q.id q.type.name t.name)

/-- The guard of a condition is not Boolean: it has another type, or none. -/
inductive Statement.BadGuard (file : String) (declared : String → ValueType → Prop) :
    Statement → Finding → Prop
  | typed {p : Position} {guard : Expr} {body : List Statement} {t : ValueType}
      (typed : HasType declared guard t) (notBoolean : t ≠ .boolean) :
      BadGuard file declared (.condition p guard body)
        (.invalidConditionType (.ofPosition file p) t.name)
  | untyped {p : Position} {guard : Expr} {body : List Statement}
      (illTyped : ∀ t, ¬ HasType declared guard t) :
      BadGuard file declared (.condition p guard body)
        (.invalidConditionType (.ofPosition file p) ValueType.undefined.name)

/-! ### One finding for each cause -/

/-- The findings are, in order, one for each member of a list that gives cause for one. -/
inductive OneForEach {α : Type} (cause : α → Finding → Prop) : List α → List Finding → Prop
  | nil : OneForEach cause [] []
  | skip {x : α} {xs : List α} {findings : List Finding} (none : ∀ e, ¬ cause x e)
      (rest : OneForEach cause xs findings) : OneForEach cause (x :: xs) findings
  | report {x : α} {xs : List α} {e : Finding} {findings : List Finding} (one : cause x e)
      (rest : OneForEach cause xs findings) : OneForEach cause (x :: xs) (e :: findings)

namespace OneForEach

variable {α : Type} {cause : α → Finding → Prop}

theorem append {xs ys : List α} {findings later : List Finding}
    (h : OneForEach cause xs findings) (hlater : OneForEach cause ys later) :
    OneForEach cause (xs ++ ys) (findings ++ later) := by
  induction h with
  | nil => exact hlater
  | skip hnone _ ih => exact .skip hnone ih
  | report hone _ ih => exact .report hone ih

/-- **One member at a time** is enough. -/
theorem flatMap {g : α → List Finding} {xs : List α}
    (h : ∀ x ∈ xs, OneForEach cause [x] (g x)) : OneForEach cause xs (xs.flatMap g) := by
  induction xs with
  | nil => exact .nil
  | cons x xs ih =>
    rw [List.flatMap_cons]
    exact (h x List.mem_cons_self).append (ih fun y hy ↦ h y (List.mem_cons_of_mem x hy))

theorem single {x : α} {e : Finding} (one : cause x e) : OneForEach cause [x] [e] :=
  .report one .nil

theorem none {x : α} (none : ∀ e, ¬ cause x e) : OneForEach cause [x] [] :=
  .skip none .nil

end OneForEach

theorem Expr.occurs_of_mem_operands {x n : Expr} (h : x ∈ n.operands) : Occurs x n := by
  cases n with
  | absent | literal | reference => exact absurd h List.not_mem_nil
  | unary p op y =>
    rw [List.mem_singleton.1 h]
    exact .operand .self
  | binary p op l r =>
    rcases List.mem_cons.1 h with rfl | h
    · exact .left .self
    · rw [List.mem_singleton.1 h]
      exact .right .self

namespace Typing

variable {file : String} {table : SymbolTable} {declared : String → ValueType → Prop}

/-! ### What one operator has to say -/

/-- An operand without a type silences the operator. -/
theorem operatorFindings_of_undefined {n x : Expr} (hx : x ∈ n.operands)
    (hundefined : (outcome file table x).1 = .undefined) : operatorFindings file table n = [] := by
  cases n with
  | absent | literal | reference => rfl
  | unary p op y =>
    obtain rfl := List.mem_singleton.1 hx
    rw [operatorFindings, if_pos hundefined]
  | binary p op l r =>
    rw [operatorFindings, if_pos]
    rcases List.mem_cons.1 hx with rfl | hx
    · exact Or.inl hundefined
    · exact Or.inr (List.mem_singleton.1 hx ▸ hundefined)

/-- When nothing is wrong with its operands, an operator says all that there is to say. -/
theorem outcome_snd_of_operands {n : Expr} (hn : n.isComplete) (hoperator : n.operands ≠ [])
    (hclean : ∀ x ∈ n.operands,
      (outcome file table x).1 ≠ .undefined ∧ (outcome file table x).2 = []) :
    (outcome file table n).2 = operatorFindings file table n := by
  cases n with
  | absent | literal | reference => exact absurd rfl hoperator
  | unary p op x =>
    have hx : x.isComplete := hn
    obtain ⟨htyped, hnil⟩ := hclean x List.mem_cons_self
    rw [outcome_unary_snd p op hx, operandReport_of_typed htyped, hnil, List.nil_append,
      List.nil_append]
  | binary p op l r =>
    obtain ⟨hl, hr⟩ := Bool.and_eq_true_iff.1 hn
    obtain ⟨htypedl, hnill⟩ := hclean l List.mem_cons_self
    obtain ⟨htypedr, hnilr⟩ := hclean r (List.mem_cons_of_mem _ List.mem_cons_self)
    rw [outcome_binary_snd p op hl hr, operandReport_of_typed htypedl,
      operandReport_of_typed htypedr, hnill, hnilr]
    simp only [List.nil_append]

/-- **An operator has something to say of itself** exactly when it is a root cause. -/
theorem operatorFindings_ne_nil_iff {n : Expr} (hn : n.isComplete)
    (hjudges : ∀ m, Expr.Occurs m n → Judges declared m (outcome file table m)) :
    operatorFindings file table n ≠ [] ↔ n.RootCause declared := by
  have hoperand := fun x (hx : x ∈ n.operands) ↦ hjudges x (Expr.occurs_of_mem_operands hx)
  constructor
  · intro hfindings
    have hoperator : n.operands ≠ [] := by
      intro hnil
      cases n with
      | absent | literal | reference => exact hfindings rfl
      | unary | binary => exact absurd hnil (List.cons_ne_nil _ _)
    have htyped : ∀ x ∈ n.operands, (outcome file table x).1 ≠ .undefined :=
      fun x hx hundefined ↦ hfindings (operatorFindings_of_undefined hx hundefined)
    have hself : (outcome file table n).2 = operatorFindings file table n :=
      outcome_snd_of_operands hn hoperator fun x hx ↦
        ⟨htyped x hx, (hoperand x hx).clean_iff.2 (htyped x hx)⟩
    refine ⟨hoperator, fun x hx ↦ ?_, (hjudges n .self).undefined_iff.1 ?_⟩
    · exact ⟨_, ((hoperand x hx).hasType_iff _).2 ⟨htyped x hx, rfl⟩⟩
    · by_contra hdefined
      exact hfindings (hself.symm.trans ((hjudges n .self).clean_iff.2 hdefined))
  · rintro ⟨hoperator, hoperands, hnot⟩
    have hself : (outcome file table n).2 = operatorFindings file table n := by
      refine outcome_snd_of_operands hn hoperator fun x hx ↦ ?_
      obtain ⟨t, ht⟩ := hoperands x hx
      rw [(hoperand x hx).eq_of_hasType ht]
      exact ⟨(((hoperand x hx).hasType_iff t).1 ht).1, rfl⟩
    rw [← hself]
    exact ((hjudges n .self).eq_undefined hnot).2

/-! ### Clashing operands -/

theorem typeNotAllowed_ne_invalidOperandType : Kind.typeNotAllowed ≠ .invalidOperandType := by
  decide

theorem filter_operandType (p : Position) (t : ValueType) (allowed : List ValueType)
    (operator : String) :
    ((operandType file [] p t allowed operator).2.filter
      fun e ↦ e.kind = .invalidOperandType) = [] := by
  refine List.filter_eq_nil_iff.2 fun e he hkind ↦ ?_
  rcases mem_operandType he with he | rfl
  · exact absurd he List.not_mem_nil
  · exact absurd (of_decide_eq_true hkind) typeNotAllowed_ne_invalidOperandType

theorem filter_combine_of_eq {p : Position} {op : BinaryOp} {l r : ValueType}
    (h : l.promote = r.promote) :
    ((combine file [] p op l r).2.filter fun e ↦ e.kind = .invalidOperandType) = [] := by
  rw [combine, if_neg (not_not.2 h)]
  exact filter_operandType ..

theorem filter_combine_of_ne {p : Position} {op : BinaryOp} {l r : ValueType}
    (h : l.promote ≠ r.promote) :
    ((combine file [] p op l r).2.filter fun e ↦ e.kind = .invalidOperandType) =
      [.invalidOperandType (.ofPosition file p) op.name l.name r.name] := by
  rw [combine, if_pos h, List.nil_append, incompatibleOperands, List.filter_cons_of_pos rfl,
    List.filter_eq_nil_iff.2]
  rintro e he hkind
  obtain ⟨t, -, rfl⟩ := List.mem_map.1 he
  exact absurd (of_decide_eq_true hkind) typeNotAllowed_ne_invalidOperandType

/-- **One finding for two operands that clash**, and none for other nodes. -/
theorem oneForEach_clash {n : Expr}
    (hjudges : ∀ x ∈ n.operands, Judges declared x (outcome file table x)) :
    OneForEach (Expr.Clash file declared) [n]
      ((operatorFindings file table n).filter fun e ↦ e.kind = .invalidOperandType) := by
  cases n with
  | absent | literal | reference => exact .none fun e h ↦ nomatch h
  | unary p op x =>
    have hnone : ∀ e, ¬ Expr.Clash file declared (.unary p op x) e := fun e h ↦ nomatch h
    rw [operatorFindings]
    split
    · exact .none hnone
    · rw [filter_operandType]
      exact .none hnone
  | binary p op l r =>
    have hl := hjudges l List.mem_cons_self
    have hr := hjudges r (List.mem_cons_of_mem _ List.mem_cons_self)
    -- the types in a finding are those that the check came to
    have hclash : ∀ e, Expr.Clash file declared (.binary p op l r) e →
        ((outcome file table l).1 ≠ .undefined ∧ (outcome file table r).1 ≠ .undefined) ∧
          (outcome file table l).1.promote ≠ (outcome file table r).1.promote := by
      rintro e ⟨left, right, differ⟩
      obtain ⟨hdefinedl, rfl⟩ := (hl.hasType_iff _).1 left
      obtain ⟨hdefinedr, rfl⟩ := (hr.hasType_iff _).1 right
      exact ⟨⟨hdefinedl, hdefinedr⟩, differ⟩
    rw [operatorFindings]
    split
    · rename_i hundefined
      exact .none fun e h ↦ hundefined.elim (hclash e h).1.1 (hclash e h).1.2
    · rename_i hdefined
      obtain ⟨hdefinedl, hdefinedr⟩ := not_or.1 hdefined
      by_cases hpromote : (outcome file table l).1.promote = (outcome file table r).1.promote
      · rw [filter_combine_of_eq hpromote]
        exact .none fun e h ↦ (hclash e h).2 hpromote
      · rw [filter_combine_of_ne hpromote]
        exact .single (.operands ((hl.hasType_iff _).2 ⟨hdefinedl, rfl⟩)
          ((hr.hasType_iff _).2 ⟨hdefinedr, rfl⟩) hpromote)

/-! ### What is to be said of one statement -/

/-- **One finding for a calculated question with a mismatch**, and none for other statements. -/
theorem oneForEach_mismatch {s : Statement}
    (hjudges : ∀ e, s.expr? = some e → Judges declared e (outcome file table e)) :
    OneForEach (Statement.Mismatch file declared) [s]
      ((statementFindings file table s).filter fun e ↦ e.kind = .typeMismatch) := by
  cases s with
  | question q => exact .none fun e h ↦ nomatch h
  | condition p guard body =>
    have hnone : ∀ e, ¬ Statement.Mismatch file declared (.condition p guard body) e :=
      fun e h ↦ nomatch h
    rw [statementFindings, guardFindings]
    split
    · exact .none hnone
    · exact .none hnone
  | calculated q value =>
    have hvalue := hjudges value rfl
    rw [statementFindings, calculatedFindings]
    split
    · rename_i hclean
      refine .none ?_
      rintro e ⟨typed, differ⟩
      obtain ⟨hdefined, rfl⟩ := (hvalue.hasType_iff _).1 typed
      exact hclean.elim hdefined differ
    · rename_i hdiffer
      obtain ⟨hdefined, hpromote⟩ := not_or.1 hdiffer
      exact .single (.calculated ((hvalue.hasType_iff _).2 ⟨hdefined, rfl⟩) hpromote)

/-- **One finding for a condition whose guard is not Boolean**, and none for other statements. -/
theorem oneForEach_badGuard {s : Statement}
    (hjudges : ∀ e, s.expr? = some e → Judges declared e (outcome file table e)) :
    OneForEach (Statement.BadGuard file declared) [s]
      ((statementFindings file table s).filter fun e ↦ e.kind = .invalidConditionType) := by
  cases s with
  | question q => exact .none fun e h ↦ nomatch h
  | calculated q value =>
    have hnone : ∀ e, ¬ Statement.BadGuard file declared (.calculated q value) e :=
      fun e h ↦ nomatch h
    rw [statementFindings, calculatedFindings]
    split
    · exact .none hnone
    · exact .none hnone
  | condition p guard body =>
    have hguard := hjudges guard rfl
    rw [statementFindings, guardFindings]
    split
    · rename_i hboolean
      have hasType : HasType declared guard .boolean :=
        (hguard.hasType_iff _).2 ⟨by decide, hboolean⟩
      refine .none ?_
      rintro e (⟨typed, notBoolean⟩ | illTyped)
      · exact notBoolean (hguard.unique typed hasType)
      · exact illTyped _ hasType
    · rename_i hother
      by_cases hundefined : (outcome file table guard).1 = .undefined
      · rw [hundefined]
        exact .single (.untyped (hguard.undefined_iff.1 hundefined))
      · exact .single (.typed ((hguard.hasType_iff _).2 ⟨hundefined, rfl⟩) hother)

end Typing

/-! ### All of a form -/

namespace Form

variable {f : Form}

theorem Proper.of_mem_exprs (h : f.Proper) {e : Expr} (he : e ∈ f.exprs) :
    e.isComplete ∧ e.OperatorsKnown := by
  obtain ⟨s, hs, hse⟩ := List.mem_filterMap.1 he
  have hproper := h s hs
  cases s with
  | question q => exact absurd hse (by simp [Statement.expr?])
  | calculated q value => exact Option.some.inj hse ▸ hproper.2
  | condition p guard body => exact Option.some.inj hse ▸ hproper

theorem Proper.judges_of_occurs (h : f.Proper) {n e : Expr} (he : e ∈ f.exprs)
    (hn : Expr.Occurs n e) :
    Judges f.FirstDeclared n (Typing.outcome f.file f.resolveSymbols.1 n) := by
  obtain ⟨hcomplete, hknown⟩ := h.of_mem_exprs he
  exact judges_outcome (fun q hq ↦ h.type_mem_declarable hq) (hn.isComplete hcomplete)
    (hn.operatorsKnown hknown)

/-- The nodes of a proper form, with all their parts, are judged by the check. -/
theorem Proper.judges_of_mem_nodes (h : f.Proper) {n : Expr} (hn : n ∈ f.nodes) :
    n.isComplete ∧ ∀ m, Expr.Occurs m n →
      Judges f.FirstDeclared m (Typing.outcome f.file f.resolveSymbols.1 m) := by
  obtain ⟨e, he, hne⟩ := List.mem_flatMap.1 hn
  obtain ⟨hcomplete, -⟩ := h.of_mem_exprs he
  have hoccurs := (Expr.mem_nodes_iff hcomplete).1 hne
  exact ⟨hoccurs.isComplete hcomplete, fun m hm ↦ h.judges_of_occurs he (hm.trans hoccurs)⟩

/-- **Findings on operators** come from the nodes of a form. -/
theorem Proper.filter_operator_findings (h : f.Proper) {P : Kind → Bool}
    (hreference : P .undefinedReference = false) (hmismatch : P .typeMismatch = false)
    (hcondition : P .invalidConditionType = false) :
    ((f.statementsAll.flatMap (Typing.ownFindings f.file f.resolveSymbols.1)).filter
        fun e ↦ P e.kind) =
      f.nodes.flatMap fun n ↦
        (Typing.operatorFindings f.file f.resolveSymbols.1 n).filter fun e ↦ P e.kind := by
  rw [filter_flatMap_ownFindings hmismatch hcondition, nodes, List.flatMap_assoc]
  refine List.flatMap_congr fun e he ↦ ?_
  exact Typing.filter_outcome hreference (h.of_mem_exprs he).1

/-- **Findings on statements** come from the statements of a form. -/
theorem Proper.filter_statement_findings (h : f.Proper) {P : Kind → Bool}
    (hreference : P .undefinedReference = false) (hallowed : P .typeNotAllowed = false)
    (hoperand : P .invalidOperandType = false) :
    ((f.statementsAll.flatMap (Typing.ownFindings f.file f.resolveSymbols.1)).filter
        fun e ↦ P e.kind) =
      f.statementsAll.flatMap fun s ↦
        (Typing.statementFindings f.file f.resolveSymbols.1 s).filter fun e ↦ P e.kind := by
  rw [List.filter_flatMap]
  refine List.flatMap_congr fun s hs ↦ ?_
  rw [Typing.ownFindings_eq, List.filter_append, List.filter_flatMap, List.flatMap_eq_nil_iff.2,
    List.nil_append]
  intro x hx
  have hexpr : x ∈ f.exprs := List.mem_filterMap.2 ⟨s, hs, Option.mem_toList.1 hx⟩
  rw [Typing.filter_outcome hreference (h.of_mem_exprs hexpr).1, List.flatMap_eq_nil_iff]
  refine fun n _ ↦ List.filter_eq_nil_iff.2 fun e he ↦ ?_
  obtain ⟨-, -, -, hkind | hkind⟩ := Typing.mem_operatorFindings he
  · simp [hkind, hallowed]
  · simp [hkind, hoperand]

theorem Proper.mem_operator_findings_iff (h : f.Proper) {e : Finding} :
    e ∈ f.statementsAll.flatMap (Typing.ownFindings f.file f.resolveSymbols.1) ∧
        (e.kind = .typeNotAllowed ∨ e.kind = .invalidOperandType) ↔
      ∃ n ∈ f.nodes, e ∈ Typing.operatorFindings f.file f.resolveSymbols.1 n := by
  have hfilter := Iff.of_eq (congrArg (e ∈ ·) (h.filter_operator_findings
    (P := fun k ↦ k = .typeNotAllowed ∨ k = .invalidOperandType) rfl rfl rfl))
  rw [List.mem_filter, decide_eq_true_iff, List.mem_flatMap (l := f.nodes)] at hfilter
  refine hfilter.trans (exists_congr fun n ↦ and_congr_right fun _ ↦ ?_)
  rw [List.mem_filter, decide_eq_true_iff]
  refine and_iff_left_of_imp fun he ↦ ?_
  obtain ⟨-, -, -, hkind⟩ := Typing.mem_operatorFindings he
  exact hkind

/-- **Findings on operators stand at root causes**, and every root cause has one. -/
theorem Proper.exists_operator_finding_iff (h : f.Proper) {loc : Location} :
    (∃ e ∈ f.statementsAll.flatMap (Typing.ownFindings f.file f.resolveSymbols.1),
        (e.kind = .typeNotAllowed ∨ e.kind = .invalidOperandType) ∧ e.location = loc) ↔
      ∃ n ∈ f.nodes, n.RootCause f.FirstDeclared ∧
        ∃ p, n.pos? = some p ∧ loc = .ofPosition f.file p := by
  constructor
  · rintro ⟨e, he, hkind, rfl⟩
    obtain ⟨n, hn, hen⟩ := h.mem_operator_findings_iff.1 ⟨he, hkind⟩
    obtain ⟨hcomplete, hjudges⟩ := h.judges_of_mem_nodes hn
    obtain ⟨p, hp, hlocation, -⟩ := Typing.mem_operatorFindings hen
    refine ⟨n, hn, (Typing.operatorFindings_ne_nil_iff hcomplete hjudges).1 ?_, p, hp, hlocation⟩
    exact List.ne_nil_of_mem hen
  · rintro ⟨n, hn, hcause, p, hp, rfl⟩
    obtain ⟨hcomplete, hjudges⟩ := h.judges_of_mem_nodes hn
    obtain ⟨e, hen⟩ := List.exists_mem_of_ne_nil _
      ((Typing.operatorFindings_ne_nil_iff hcomplete hjudges).2 hcause)
    obtain ⟨he, hkind⟩ := h.mem_operator_findings_iff.2 ⟨n, hn, hen⟩
    obtain ⟨q, hq, hlocation, -⟩ := Typing.mem_operatorFindings hen
    obtain rfl := Option.some.inj (hp.symm.trans hq)
    exact ⟨e, he, hkind, hlocation⟩

/-- **Errors are reported at their causes.** The type check of a proper form has a result, and in
it:

* findings on operators stand at the positions of root causes, each root cause has one, and there
  are none at other places;
* clashing operands are reported once for each operator that has such, with the left and the right
  type, and for no other;
* a mismatch is reported once for each calculated question whose expression has a type other than
  the declared one up to widening, and for no other;
* a bad guard is reported once for each condition whose guard has another type than Boolean, or no
  type, and for no other. -/
theorem type_errors_reported_at_causes (h : f.Proper) :
    ∃ findings, f.checkTypes f.resolveSymbols.1 = some findings ∧
      (∀ loc, (∃ e ∈ findings, (e.kind = .typeNotAllowed ∨ e.kind = .invalidOperandType) ∧
          e.location = loc) ↔
        ∃ n ∈ f.nodes, n.RootCause f.FirstDeclared ∧
          ∃ p, n.pos? = some p ∧ loc = .ofPosition f.file p) ∧
      OneForEach (Expr.Clash f.file f.FirstDeclared) f.nodes
        (findings.filter fun e ↦ e.kind = .invalidOperandType) ∧
      OneForEach (Statement.Mismatch f.file f.FirstDeclared) f.statementsAll
        (findings.filter fun e ↦ e.kind = .typeMismatch) ∧
      OneForEach (Statement.BadGuard f.file f.FirstDeclared) f.statementsAll
        (findings.filter fun e ↦ e.kind = .invalidConditionType) := by
  have hstatement : ∀ s ∈ f.statementsAll, ∀ e, s.expr? = some e →
      Judges f.FirstDeclared e (Typing.outcome f.file f.resolveSymbols.1 e) :=
    fun s hs e he ↦ h.judges_of_occurs (List.mem_filterMap.2 ⟨s, hs, he⟩) .self
  refine ⟨_, checkTypes_eq _ h.operandsPresent, fun loc ↦ ?_, ?_, ?_, ?_⟩
  · exact h.exists_operator_finding_iff
  · rw [h.filter_operator_findings (P := fun k ↦ k = .invalidOperandType) rfl rfl rfl]
    refine .flatMap fun n hn ↦ Typing.oneForEach_clash fun x hx ↦ ?_
    exact (h.judges_of_mem_nodes hn).2 x (Expr.occurs_of_mem_operands hx)
  · rw [h.filter_statement_findings (P := fun k ↦ k = .typeMismatch) rfl rfl rfl]
    exact .flatMap fun s hs ↦ Typing.oneForEach_mismatch (hstatement s hs)
  · rw [h.filter_statement_findings (P := fun k ↦ k = .invalidConditionType) rfl rfl rfl]
    exact .flatMap fun s hs ↦ Typing.oneForEach_badGuard (hstatement s hs)

/-- Under a guard without a type: a sum that is declared a text, and a difference whose two operands
are wrong in themselves. -/
def brokenQuote : Form where
  name := "quote"
  file := "quote.json"
  statements :=
    [.question { id := "sold", type := .boolean, pos := ⟨1, 1⟩ },
      .condition ⟨2, 1⟩ (.unary ⟨2, 5⟩ .not (.literal ⟨2, 6⟩ (.integer 1)))
        [.calculated { id := "total", type := .string, pos := ⟨3, 3⟩ }
            (.binary ⟨3, 20⟩ .addition (.literal ⟨3, 18⟩ (.integer 1))
              (.literal ⟨3, 22⟩ (.integer 2))),
          .calculated { id := "rest", type := .integer, pos := ⟨4, 3⟩ }
            (.binary ⟨4, 30⟩ .subtraction
              (.binary ⟨4, 20⟩ .addition (.reference ⟨4, 14⟩ "sold")
                (.literal ⟨4, 22⟩ (.integer 1)))
              (.unary ⟨4, 32⟩ .negative (.literal ⟨4, 33⟩ (.boolean true))))]]

/-- The difference has no type either, but is not to blame. -/
theorem type_errors_reported_brokenQuote :
    brokenQuote.Proper ∧
      (∃ n ∈ brokenQuote.nodes, n.RootCause brokenQuote.FirstDeclared ∧
        n.pos? = some ⟨4, 20⟩) ∧
      (∀ n ∈ brokenQuote.nodes, n.RootCause brokenQuote.FirstDeclared →
        n.pos? ≠ some ⟨4, 30⟩) ∧
      OneForEach (Expr.Clash "quote.json" brokenQuote.FirstDeclared) brokenQuote.nodes
        [.invalidOperandType ⟨"quote.json", "", 4, 20⟩ "Addition" "Boolean" "Integer"] ∧
      OneForEach (Statement.Mismatch "quote.json" brokenQuote.FirstDeclared)
        brokenQuote.statementsAll
        [.typeMismatch ⟨"quote.json", "", 3, 3⟩ "total" "String" "Integer"] ∧
      OneForEach (Statement.BadGuard "quote.json" brokenQuote.FirstDeclared)
        brokenQuote.statementsAll
        [.invalidConditionType ⟨"quote.json", "", 2, 1⟩ "Undefined"] := by
  have hproper : brokenQuote.Proper := by decide
  obtain ⟨findings, hcheck, hcauses, hclash, hmismatch, hguard⟩ :=
    type_errors_reported_at_causes hproper
  have hfindings : brokenQuote.checkTypes brokenQuote.resolveSymbols.1 = some
      [.typeNotAllowed ⟨"quote.json", "", 2, 5⟩ "Integer" "Not",
        .invalidConditionType ⟨"quote.json", "", 2, 1⟩ "Undefined",
        .typeMismatch ⟨"quote.json", "", 3, 3⟩ "total" "String" "Integer",
        .invalidOperandType ⟨"quote.json", "", 4, 20⟩ "Addition" "Boolean" "Integer",
        .typeNotAllowed ⟨"quote.json", "", 4, 20⟩ "Boolean" "Addition",
        .typeNotAllowed ⟨"quote.json", "", 4, 32⟩ "Boolean" "Negative",
        .undefinedReference ⟨"quote.json", "", 4, 20⟩ "sold + 1",
        .undefinedReference ⟨"quote.json", "", 4, 32⟩ "-true"] := by decide
  obtain rfl := Option.some.inj (hcheck.symm.trans hfindings)
  refine ⟨hproper, ?_, fun n hn hcause hpos ↦ ?_, hclash, hmismatch, hguard⟩
  · obtain ⟨n, hn, hcause, p, hp, hlocation⟩ :=
      (hcauses (.ofPosition "quote.json" ⟨4, 20⟩)).1 (by decide)
    obtain rfl := Location.ofPosition_injective "quote.json" hlocation
    exact ⟨n, hn, hcause, hp⟩
  · exact absurd ((hcauses _).2 ⟨n, hn, hcause, _, hpos, rfl⟩) (by decide)

end Form

end Questionnaire
