import Questionnaire.Check
import Questionnaire.Proofs.Declarations
import Questionnaire.Proofs.Places

/-!
# Where findings come from

Each phase of the analysis has its own kinds of findings (`Phase.kinds`), all of them errors, and a
verdict holds findings of its phase only (`Form.foundBy_of_check`). The lint passes only warn, and
each has its own kinds too (`LintPass.kindsOf`).
-/

namespace Questionnaire

/-! ### Kinds -/

/-- The kinds of what a phase finds. -/
def Phase.kinds : Phase → List Kind
  | symbols => [.duplicateDeclaration]
  | cycles => [.cyclicDependency]
  | types => [.undefinedReference, .invalidOperandType, .typeNotAllowed, .typeMismatch,
      .invalidConditionType]

/-- An error of a kind that a phase finds. -/
structure Finding.FoundBy (p : Phase) (e : Finding) : Prop where
  severity : e.severity = .error
  kind : e.kind ∈ p.kinds

/-- No phase finds fault with the input. -/
theorem Finding.FoundBy.kind_ne_input {p : Phase} {e : Finding} (h : e.FoundBy p) :
    e.kind ≠ .input := by
  have hinput : Kind.input ∉ p.kinds := by cases p <;> decide
  exact fun hkind ↦ hinput (hkind ▸ h.kind)

/-! ### Declarations -/

theorem SymbolTable.foundBy_declareAll {file : String} {e : Finding} (qs : List Question) :
    ∀ t : SymbolTable, e ∈ (t.declareAll file qs).2 → e.FoundBy .symbols := by
  induction qs with
  | nil => exact fun t he ↦ absurd he List.not_mem_nil
  | cons q rest ih =>
    intro t he
    rw [declareAll_cons, List.mem_append] at he
    rcases he with he | he
    · rcases t.declare_cases file q with ⟨first, -, heq⟩ | ⟨-, heq⟩
      · rw [heq] at he
        rw [List.mem_singleton.1 he]
        exact ⟨rfl, List.mem_cons_self⟩
      · rw [heq] at he
        exact absurd he List.not_mem_nil
    · exact ih _ he

/-! ### Cycles -/

namespace DependencyGraph

theorem foundBy_searchFrom {g : DependencyGraph} {state : List Nat × List Finding} {v : Nat}
    (h : ∀ e ∈ state.2, e.FoundBy .cycles) : ∀ e ∈ (g.searchFrom state v).2, e.FoundBy .cycles := by
  unfold searchFrom
  split
  · exact h
  · split
    · exact h
    · rw [List.forall_mem_append, List.forall_mem_singleton]
      exact ⟨h, rfl, List.mem_cons_self⟩

theorem foundBy_cycles (g : DependencyGraph) : ∀ e ∈ g.cycles, e.FoundBy .cycles := by
  have hrun : ∀ (vs : List Nat) (state : List Nat × List Finding),
      (∀ e ∈ state.2, e.FoundBy .cycles) →
        ∀ e ∈ (vs.foldl g.searchFrom state).2, e.FoundBy .cycles := by
    intro vs
    induction vs with
    | nil => exact fun state h ↦ h
    | cons v rest ih => exact fun state h ↦ ih _ (foundBy_searchFrom h)
  exact hrun _ _ fun e he ↦ absurd he List.not_mem_nil

end DependencyGraph

/-! ### Types -/

namespace Typing

variable {file : String} {table : SymbolTable}

/-- All of some findings are found by the type check. -/
def FoundHere (findings : List Finding) : Prop :=
  ∀ e ∈ findings, e.FoundBy .types

theorem FoundHere.append {findings later : List Finding} (h : FoundHere findings)
    (h' : FoundHere later) : FoundHere (findings ++ later) :=
  List.forall_mem_append.2 ⟨h, h'⟩

theorem FoundHere.concat {findings : List Finding} {e : Finding} (h : FoundHere findings)
    (he : e.FoundBy .types) : FoundHere (findings ++ [e]) :=
  h.append (List.forall_mem_singleton.2 he)

theorem foundBy_undefinedReference (loc : Location) (name : String) :
    (Finding.undefinedReference loc name).FoundBy .types :=
  ⟨rfl, show Kind.undefinedReference ∈ _ by decide⟩

theorem foundBy_typeNotAllowed (loc : Location) (actual operator : String) :
    (Finding.typeNotAllowed loc actual operator).FoundBy .types :=
  ⟨rfl, show Kind.typeNotAllowed ∈ _ by decide⟩

theorem foundHere_undefinedOperand {mark : Nat} {findings after : List Finding} {operand : Expr}
    (h : FoundHere findings) (hafter : undefinedOperand file mark findings operand = some after) :
    FoundHere after := by
  obtain ⟨p, -, rfl⟩ := Option.map_eq_some_iff.1 hafter
  dsimp only
  split
  · exact h
  · exact h.concat (foundBy_undefinedReference _ _)

theorem foundHere_reportOperand {mark : Nat} {findings after : List Finding} {t : ValueType}
    {operand : Expr} (h : FoundHere findings)
    (hafter : reportOperand file mark findings t operand = some after) : FoundHere after := by
  unfold reportOperand at hafter
  split at hafter
  · exact foundHere_undefinedOperand h hafter
  · exact Option.some.inj hafter ▸ h

theorem foundHere_operandType {findings : List Finding} {pos : Position} {t : ValueType}
    {allowed : List ValueType} {operator : String} (h : FoundHere findings) :
    FoundHere (operandType file findings pos t allowed operator).2 := by
  unfold operandType
  split
  · exact h
  · exact h.concat (foundBy_typeNotAllowed _ _ _)

theorem foundHere_incompatibleOperands (pos : Position) (op : BinaryOp) (l r : ValueType) :
    FoundHere (incompatibleOperands file pos op l r) := by
  refine List.forall_mem_cons.2 ⟨⟨rfl, show Kind.invalidOperandType ∈ _ by decide⟩, ?_⟩
  intro e he
  obtain ⟨t, -, rfl⟩ := List.mem_map.1 he
  exact foundBy_typeNotAllowed _ _ _

theorem foundHere_combine {findings : List Finding} {pos : Position} {op : BinaryOp}
    {l r : ValueType} (h : FoundHere findings) :
    FoundHere (combine file findings pos op l r).2 := by
  unfold combine
  split
  · exact h.append (foundHere_incompatibleOperands _ _ _ _)
  · exact foundHere_operandType h

theorem foundHere_check {e : Expr} : ∀ {findings r}, FoundHere findings →
    check file table findings e = some r → FoundHere r.2 := by
  induction e with
  | absent | literal =>
    intro findings r h hr
    cases hr
    exact h
  | reference p n =>
    intro findings r h hr
    rw [check] at hr
    split at hr
    · cases hr
      exact h
    · cases hr
      exact h.concat (foundBy_undefinedReference _ _)
  | unary p op x ih =>
    intro findings r h hr
    rw [check] at hr
    obtain ⟨⟨t, after⟩, hx, hr⟩ := Option.bind_eq_some_iff.1 hr
    have hafter : FoundHere after := ih h hx
    dsimp only at hr
    split at hr
    · obtain ⟨last, hlast, hr⟩ := Option.bind_eq_some_iff.1 hr
      cases hr
      exact foundHere_undefinedOperand hafter hlast
    · cases hr
      exact foundHere_operandType hafter
  | binary p op left right ihl ihr =>
    intro findings r h hr
    rw [check] at hr
    obtain ⟨⟨lt, afterLeft⟩, hleft, hr⟩ := Option.bind_eq_some_iff.1 hr
    obtain ⟨⟨rt, after⟩, hright, hr⟩ := Option.bind_eq_some_iff.1 hr
    have hafter : FoundHere after := ihr (ihl h hleft) hright
    dsimp only at hr
    split at hr
    · obtain ⟨next, hnext, hr⟩ := Option.bind_eq_some_iff.1 hr
      obtain ⟨last, hlast, hr⟩ := Option.bind_eq_some_iff.1 hr
      cases hr
      exact foundHere_reportOperand (foundHere_reportOperand hafter hnext) hlast
    · cases hr
      exact foundHere_combine hafter

theorem foundHere_calculatedFindings (q : Question) (t : ValueType) :
    FoundHere (calculatedFindings file q t) := by
  unfold calculatedFindings
  split
  · exact fun e he ↦ absurd he List.not_mem_nil
  · exact List.forall_mem_singleton.2 ⟨rfl, show Kind.typeMismatch ∈ _ by decide⟩

theorem foundHere_guardFindings (p : Position) (t : ValueType) :
    FoundHere (guardFindings file p t) := by
  unfold guardFindings
  split
  · exact fun e he ↦ absurd he List.not_mem_nil
  · exact List.forall_mem_singleton.2 ⟨rfl, show Kind.invalidConditionType ∈ _ by decide⟩

theorem foundHere_checkStatements {l : List Statement} : ∀ {findings after}, FoundHere findings →
    checkStatements file table findings l = some after → FoundHere after := by
  induction l using Statement.listInduction with
  | nil =>
    intro findings after h hafter
    rw [checkStatements] at hafter
    cases hafter
    exact h
  | question q rest ih =>
    intro findings after h hafter
    rw [checkStatements, checkStatement] at hafter
    exact ih h hafter
  | calculated q value rest ih =>
    intro findings after h hafter
    rw [checkStatements, checkStatement] at hafter
    obtain ⟨here, hhere, hafter⟩ := Option.bind_eq_some_iff.1 hafter
    obtain ⟨⟨t, own⟩, hown, heq⟩ := Option.bind_eq_some_iff.1 hhere
    cases heq
    exact ih ((foundHere_check h hown).append (foundHere_calculatedFindings q t)) hafter
  | condition p guard body rest ihbody ihrest =>
    intro findings after h hafter
    rw [checkStatements, checkStatement] at hafter
    obtain ⟨here, hhere, hafter⟩ := Option.bind_eq_some_iff.1 hafter
    obtain ⟨⟨t, own⟩, hown, hbody⟩ := Option.bind_eq_some_iff.1 hhere
    have hguard : FoundHere (own ++ guardFindings file p t) :=
      (foundHere_check h hown).append (foundHere_guardFindings p t)
    exact ihrest (ihbody hguard hbody) hafter

end Typing

/-! ### Verdicts -/

/-- **A verdict holds findings of its phase only.** -/
theorem Form.foundBy_of_check {f : Form} {v : Verdict} (h : f.check = some v) :
    ∀ e ∈ v.errors, e.FoundBy v.phase := by
  unfold check at h
  dsimp only at h
  split at h
  · cases h
    exact fun e he ↦ SymbolTable.foundBy_declareAll _ _ he
  · split at h
    · cases h
      exact DependencyGraph.foundBy_cycles _
    · obtain ⟨errors, herrors, rfl⟩ := Option.map_eq_some_iff.1 h
      exact Typing.foundHere_checkStatements (fun e he ↦ absurd he List.not_mem_nil) herrors

/-! ### Lint -/

/-- The kinds of what a lint pass finds, by its name. -/
def LintPass.kindsOf : String → List Kind
  | "labels" => [.duplicateLabel]
  | "conditions" => [.emptyCondition, .constantCondition]
  | "calculations" => [.constantCalculation]
  | _ => []

/-- A warning of a kind that a lint pass finds. -/
structure Finding.WarnedBy (pass : String) (e : Finding) : Prop where
  severity : e.severity = .warning
  kind : e.kind ∈ LintPass.kindsOf pass

namespace Lint

theorem warnedBy_labelsFrom {file : String} {e : Finding} (qs : List Question) :
    ∀ seen, e ∈ labelsFrom file seen qs → e.WarnedBy "labels" := by
  induction qs with
  | nil => exact fun seen he ↦ absurd he List.not_mem_nil
  | cons q rest ih =>
    intro seen he
    rw [labelsFrom] at he
    split at he
    · exact ih seen he
    · split at he
      · rcases List.mem_cons.1 he with rfl | he
        · exact ⟨rfl, show Kind.duplicateLabel ∈ _ by decide⟩
        · exact ih seen he
      · exact ih _ he

theorem warnedBy_conditions {f : Form} {e : Finding} (he : e ∈ conditions f) :
    e.WarnedBy "conditions" := by
  obtain ⟨s, -, he⟩ := List.mem_flatMap.1 he
  cases s with
  | question | calculated => exact absurd he List.not_mem_nil
  | condition p guard body =>
    rcases List.mem_append.1 he with he | he
    · split at he
      · rw [List.mem_singleton.1 he]
        exact ⟨rfl, show Kind.emptyCondition ∈ _ by decide⟩
      · exact absurd he List.not_mem_nil
    · split at he
      · rw [List.mem_singleton.1 he]
        exact ⟨rfl, show Kind.constantCondition ∈ _ by decide⟩
      · rw [List.mem_singleton.1 he]
        exact ⟨rfl, show Kind.constantCondition ∈ _ by decide⟩
      · exact absurd he List.not_mem_nil

theorem warnedBy_calculations {f : Form} {e : Finding} (he : e ∈ calculations f) :
    e.WarnedBy "calculations" := by
  obtain ⟨s, -, he⟩ := List.mem_flatMap.1 he
  cases s with
  | question | condition => exact absurd he List.not_mem_nil
  | calculated q value =>
    dsimp only at he
    split at he
    · rw [List.mem_singleton.1 he]
      exact ⟨rfl, show Kind.constantCalculation ∈ _ by decide⟩
    · exact absurd he List.not_mem_nil

end Lint

/-- **The lint passes only warn**, each of its own kinds. -/
theorem LintPass.warnedBy_of_mem_builtin {p : LintPass} (hp : p ∈ builtin) {f : Form}
    {symbols : SymbolTable} {e : Finding} (he : e ∈ p.run f symbols) : e.WarnedBy p.name := by
  simp only [builtin, List.mem_cons, List.not_mem_nil, or_false] at hp
  rcases hp with rfl | rfl | rfl
  · exact Lint.warnedBy_labelsFrom _ _ he
  · exact Lint.warnedBy_conditions he
  · exact Lint.warnedBy_calculations he

end Questionnaire
