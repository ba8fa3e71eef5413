import Questionnaire.Proofs.Dependencies
import Questionnaire.Proofs.Phases
import Questionnaire.Proofs.Typing.Judgement

/-!
# Well-formed forms

`Form.WellFormed` says what the check is for, by places, dependencies and the typing judgement and
without a word on tables, graphs, searches or findings: no id is declared at two places, nothing
depends on itself, calculated questions have expressions of their declared types, and guards are
Boolean.

`check_accepts_iff_wellFormed` is the theorem of the whole analysis. A form whose expressions are
all there, with known operators and declarable types, has a verdict, and the verdict is free of
errors exactly when the form is well-formed. It takes the three phases apart: distinct ids
(`nodup_ids_iff`), no cycle (`cycles_dependencyGraph_eq_nil_iff`) and nothing to say on the types
(`typeFindings_eq_nil_iff`).
-/

namespace Questionnaire

/-! ### Proper forms -/

instance Expr.decidableOperatorsKnown : DecidablePred Expr.OperatorsKnown
  | .absent | .literal .. | .reference .. => .isTrue trivial
  | .unary _ op x =>
    have := decidableOperatorsKnown x
    inferInstanceAs (Decidable (op ∈ UnaryOp.all ∧ x.OperatorsKnown))
  | .binary _ op l r =>
    have := decidableOperatorsKnown l
    have := decidableOperatorsKnown r
    inferInstanceAs (Decidable (op ∈ BinaryOp.all ∧ l.OperatorsKnown ∧ r.OperatorsKnown))

/-- The expression of a statement itself is there, with all its parts and known operators, and what
the statement declares is of a declarable type. -/
def Statement.Proper : Statement → Prop
  | .question q => q.type ∈ ValueType.declarable
  | .calculated q value =>
    q.type ∈ ValueType.declarable ∧ value.isComplete ∧ value.OperatorsKnown
  | .condition _ guard _ => guard.isComplete ∧ guard.OperatorsKnown

instance : DecidablePred Statement.Proper
  | .question q => inferInstanceAs (Decidable (q.type ∈ ValueType.declarable))
  | .calculated q value =>
    inferInstanceAs (Decidable (q.type ∈ ValueType.declarable ∧ value.isComplete ∧
      value.OperatorsKnown))
  | .condition _ guard _ => inferInstanceAs (Decidable (guard.isComplete ∧ guard.OperatorsKnown))

namespace Form

variable {f : Form}

/-- All statements of a form are proper ones; forms read from documents are such. -/
def Proper (f : Form) : Prop :=
  ∀ s ∈ f.statementsAll, s.Proper

instance : DecidablePred Proper :=
  fun f ↦ inferInstanceAs (Decidable (∀ s ∈ f.statementsAll, s.Proper))

theorem Proper.operandsPresent (h : f.Proper) : f.OperandsPresent := by
  intro s hs
  have hproper := h s hs
  cases s with
  | question q => trivial
  | calculated q value => exact Or.inr hproper.2.1
  | condition p guard body => exact Or.inr hproper.1

theorem Proper.type_mem_declarable (h : f.Proper) {q : Question} (hq : q ∈ f.questions) :
    q.type ∈ ValueType.declarable := by
  obtain ⟨s, hs, hsq⟩ := List.mem_filterMap.1 hq
  have hproper := h s hs
  cases s with
  | question r => exact Option.some.inj hsq ▸ hproper
  | calculated r value => exact Option.some.inj hsq ▸ hproper.1
  | condition p guard body => exact absurd hsq (by simp [Statement.question?])

/-! ### Well-formedness -/

/-- A name is declared with a type, at some place of a form. -/
def Declared (f : Form) (name : String) (t : ValueType) : Prop :=
  ∃ path q, Statement.DeclaredAt f.statements path q ∧ q.id = name ∧ q.type = t

/-- The expressions of a form have the types that their places ask for. -/
structure WellTyped (f : Form) : Prop where
  /-- The expression of a calculated question is of the declared type, up to widening. -/
  calculated : ∀ path q value, Statement.At f.statements path (.calculated q value) →
    ∃ t, HasType f.Declared value t ∧ t.promote = q.type.promote
  /-- Guards are Boolean. -/
  guards : ∀ path p guard body, Statement.At f.statements path (.condition p guard body) →
    HasType f.Declared guard .boolean

/-- A form that can be filled in. -/
structure WellFormed (f : Form) : Prop where
  idsDistinct : Statement.IdsDistinct f.statements
  acyclic : ∀ u, ¬ Relation.TransGen f.DependsOn u u
  wellTyped : f.WellTyped

/-! ### The table and the declarations -/

theorem declares_resolveSymbols (h : f.ids.Nodup) : f.resolveSymbols.1.Declares = f.Declared := by
  funext name t
  refine propext ((type?_resolveSymbols_eq_some_iff h).trans ?_)
  simp only [questions, statementsAll, Statement.mem_questions_iff]
  constructor
  · rintro ⟨q, ⟨path, hq⟩, hdeclares⟩
    exact ⟨path, q, hq, hdeclares⟩
  · rintro ⟨path, q, hq, hdeclares⟩
    exact ⟨q, ⟨path, hq⟩, hdeclares⟩

theorem Proper.typesDeclarable (h : f.Proper) (hids : f.ids.Nodup) :
    f.resolveSymbols.1.TypesDeclarable := by
  intro name t ht
  obtain ⟨q, hq, -, rfl⟩ := (type?_resolveSymbols_eq_some_iff hids).1 ht
  exact h.type_mem_declarable hq

end Form

/-! ### Nothing to say of a statement -/

namespace Typing

variable {file : String} {table : SymbolTable} {declared : String → ValueType → Prop}

theorem ownFindings_calculated_eq_nil_iff {q : Question} {value : Expr}
    (h : Judges declared value (outcome file table value)) :
    ownFindings file table (.calculated q value) = [] ↔
      ∃ t, HasType declared value t ∧ t.promote = q.type.promote := by
  rw [ownFindings, List.append_eq_nil_iff, h.clean_iff, calculatedFindings]
  simp only [h.hasType_iff]
  constructor
  · rintro ⟨hdefined, hclean⟩
    refine ⟨_, ⟨hdefined, rfl⟩, ?_⟩
    by_contra hpromote
    simp [hdefined, hpromote] at hclean
  · rintro ⟨t, ⟨hdefined, rfl⟩, hpromote⟩
    exact ⟨hdefined, if_pos (Or.inr hpromote)⟩

theorem ownFindings_condition_eq_nil_iff {p : Position} {guard : Expr} {body : List Statement}
    (h : Judges declared guard (outcome file table guard)) :
    ownFindings file table (.condition p guard body) = [] ↔ HasType declared guard .boolean := by
  rw [ownFindings, List.append_eq_nil_iff, h.clean_iff, guardFindings, h.hasType_iff]
  constructor
  · rintro ⟨-, hclean⟩
    refine ⟨by simp, ?_⟩
    by_contra hboolean
    simp [hboolean] at hclean
  · rintro ⟨-, hboolean⟩
    exact ⟨by simp [hboolean], if_pos hboolean⟩

end Typing

namespace Form

variable {f : Form}

/-- **The type check has nothing to say** exactly when the form is well-typed. -/
theorem typeFindings_eq_nil_iff (h : f.Proper) (hids : f.ids.Nodup) :
    f.typeFindings = [] ↔ f.WellTyped := by
  have hjudges : ∀ {e : Expr}, e.isComplete → e.OperatorsKnown →
      Judges f.Declared e (Typing.outcome f.file f.resolveSymbols.1 e) := by
    intro e hcomplete hknown
    rw [← declares_resolveSymbols hids]
    exact Typing.judges_outcome (h.typesDeclarable hids) hcomplete hknown
  rw [typeFindings, List.flatMap_eq_nil_iff]
  constructor
  · intro hclean
    refine ⟨fun path q value place ↦ ?_, fun path p guard body place ↦ ?_⟩
    · have hmem := Statement.mem_nestedAll_iff.2 ⟨path, place⟩
      obtain ⟨-, hcomplete, hknown⟩ := h _ hmem
      exact (Typing.ownFindings_calculated_eq_nil_iff (hjudges hcomplete hknown)).1 (hclean _ hmem)
    · have hmem := Statement.mem_nestedAll_iff.2 ⟨path, place⟩
      obtain ⟨hcomplete, hknown⟩ := h _ hmem
      exact (Typing.ownFindings_condition_eq_nil_iff (hjudges hcomplete hknown)).1 (hclean _ hmem)
  · rintro ⟨hcalculated, hguards⟩ s hs
    obtain ⟨path, place⟩ := Statement.mem_nestedAll_iff.1 hs
    have hproper := h s hs
    cases s with
    | question q => rfl
    | calculated q value =>
      obtain ⟨-, hcomplete, hknown⟩ := hproper
      exact (Typing.ownFindings_calculated_eq_nil_iff (hjudges hcomplete hknown)).2
        (hcalculated path q value place)
    | condition p guard body =>
      obtain ⟨hcomplete, hknown⟩ := hproper
      exact (Typing.ownFindings_condition_eq_nil_iff (hjudges hcomplete hknown)).2
        (hguards path p guard body place)

theorem dependenciesAcyclic_iff :
    f.DependenciesAcyclic ↔ ∀ u, ¬ Relation.TransGen f.DependsOn u u := by
  have hdepends : f.Depends = f.DependsOn := by
    funext u v
    exact propext depends_iff_dependsOn
  rw [DependenciesAcyclic, hdepends]

/-- **The check decides well-formedness.** A proper form has a verdict, and there is no error in it
exactly when the form is well-formed. -/
theorem check_accepts_iff_wellFormed (h : f.Proper) :
    ∃ v, f.check = some v ∧ (v.errors = [] ↔ f.WellFormed) := by
  by_cases hids : f.ids.Nodup
  · by_cases hacyclic : f.DependenciesAcyclic
    · -- only the types are left to decide
      refine ⟨_, check_of_acyclic hids hacyclic h.operandsPresent, ?_⟩
      refine (typeFindings_eq_nil_iff h hids).trans ⟨fun htyped ↦ ?_, WellFormed.wellTyped⟩
      exact ⟨Statement.nodup_ids_iff.1 hids, dependenciesAcyclic_iff.1 hacyclic, htyped⟩
    · -- rejected for a cycle, and not well-formed for the same one
      obtain ⟨hcheck, hne⟩ := check_of_cyclic hids hacyclic
      refine ⟨_, hcheck, fun hnil ↦ absurd hnil hne, fun hwell ↦ ?_⟩
      exact absurd (dependenciesAcyclic_iff.2 hwell.acyclic) hacyclic
  · -- rejected for an id that stands at two places
    obtain ⟨hcheck, hne⟩ := check_of_repeated hids
    refine ⟨_, hcheck, fun hnil ↦ absurd hnil hne, fun hwell ↦ ?_⟩
    exact absurd (Statement.nodup_ids_iff.2 hwell.idsDistinct) hids

/-- A form on the sale of a house: a block within a block, an integer where a decimal is declared,
and a guard on a question that is calculated from others. -/
def houseSale : Form where
  name := "houseSale"
  file := "sale.json"
  statements :=
    [.question { id := "sold", type := .boolean, pos := { line := 1, column := 1 } },
      .condition { line := 2, column := 1 } (.reference { line := 2, column := 5 } "sold")
        [.question { id := "price", type := .integer, pos := { line := 3, column := 3 } },
          .question { id := "debt", type := .decimal, pos := { line := 4, column := 3 } },
          .calculated { id := "residue", type := .decimal, pos := { line := 5, column := 3 } }
            (.binary { line := 5, column := 20 } .subtraction
              (.reference { line := 5, column := 14 } "price")
              (.reference { line := 5, column := 22 } "debt")),
          .condition { line := 6, column := 3 }
            (.binary { line := 6, column := 15 } .lessThan
              (.reference { line := 6, column := 7 } "residue")
              (.literal { line := 6, column := 17 } (.integer 0)))
            [.question { id := "remark", type := .string, pos := { line := 7, column := 5 } }]]]

theorem wellFormed_houseSale :
    houseSale.Proper ∧ (∃ v, houseSale.check = some v ∧ v.errors = []) ∧ houseSale.WellFormed := by
  have hproper : houseSale.Proper := by decide
  obtain ⟨v, hcheck, hiff⟩ := check_accepts_iff_wellFormed hproper
  have hclean : houseSale.check.map Verdict.errors = some [] := by decide
  have herrors : v.errors = [] := by
    rw [hcheck] at hclean
    exact Option.some.inj hclean
  exact ⟨hproper, ⟨v, hcheck, herrors⟩, hiff.1 herrors⟩

end Form

end Questionnaire
