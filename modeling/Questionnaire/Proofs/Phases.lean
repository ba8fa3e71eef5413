import Questionnaire.Analysis.Verdict
import Questionnaire.Proofs.Declarations
import Questionnaire.Proofs.Graph.Completeness
import Questionnaire.Proofs.Graph.Links
import Questionnaire.Proofs.Typing.Accumulation

/-!
# The phases of the check

In which phase the check of a form ends, in words that mention neither tables nor graphs nor
searches: with a repeated id in the first, with a cycle among the dependencies in the second, and in
the third otherwise. Each of the first two phases then has something to report. In the third the
errors are what the statements have to say for themselves.

The three cases exclude each other and leave no other, so what is said of all forms can be said of
each.
-/

namespace Questionnaire

namespace Form

variable {f f' : Form}

/-- The ids of all questions and calculated questions, in document order. -/
def ids (f : Form) : List String :=
  f.questions.map Question.id

/-- No question depends on itself, directly or through others. -/
def DependenciesAcyclic (f : Form) : Prop :=
  ∀ u, ¬ Relation.TransGen f.Depends u u

/-- Only which questions depend on something matters, not their order. -/
theorem dependenciesAcyclic_congr (h : ∀ d, d ∈ f.dependents ↔ d ∈ f'.dependents) :
    f.DependenciesAcyclic ↔ f'.DependenciesAcyclic := by
  have hdepends : f.Depends = f'.Depends := by
    funext u v
    simp only [Depends, h]
  rw [DependenciesAcyclic, DependenciesAcyclic, hdepends]

/-- No operator in an expression of a form lacks an operand. -/
def OperandsPresent (f : Form) : Prop :=
  ∀ s ∈ f.statementsAll, s.OperandsPresent

instance : DecidablePred OperandsPresent :=
  fun f ↦ inferInstanceAs (Decidable (∀ s ∈ f.statementsAll, s.OperandsPresent))

/-- What the type check has to say of a form with distinct ids. -/
def typeFindings (f : Form) : List Finding :=
  f.statementsAll.flatMap (Typing.ownFindings f.file f.resolveSymbols.1)

/-- The verdict when the declarations are reported. -/
def symbolsVerdict (f : Form) : Verdict :=
  { phase := .symbols, errors := f.resolveSymbols.2, symbols := f.resolveSymbols.1 }

/-- The verdict when cycles are reported. -/
def cyclesVerdict (f : Form) : Verdict :=
  { phase := .cycles, errors := (f.dependencyGraph f.resolveSymbols.1).cycles,
    symbols := f.resolveSymbols.1, graph := some (f.dependencyGraph f.resolveSymbols.1) }

/-- The verdict when the types are checked. -/
def typesVerdict (f : Form) : Verdict :=
  { phase := .types, errors := f.typeFindings, symbols := f.resolveSymbols.1,
    graph := some (f.dependencyGraph f.resolveSymbols.1) }

/-- No cycle is found exactly when the dependencies are acyclic. -/
theorem cycles_dependencyGraph_eq_nil_iff :
    (f.dependencyGraph f.resolveSymbols.1).cycles = [] ↔ f.DependenciesAcyclic := by
  have hnames := f.nodup_resolveSymbols
  rw [DependencyGraph.cycles_eq_nil_iff_acyclic (built_dependencyGraph hnames).edges_inRange,
    acyclic_dependencyGraph_iff hnames]
  rfl

/-- **The first phase** ends the check of a form with a repeated id. -/
theorem check_of_repeated (h : ¬ f.ids.Nodup) :
    f.check = some f.symbolsVerdict ∧ f.symbolsVerdict.errors ≠ [] := by
  have hne : f.resolveSymbols.2 ≠ [] := fun hnil ↦ h (resolveSymbols_snd_eq_nil_iff.1 hnil)
  refine ⟨?_, hne⟩
  rw [check]
  simp only [Bool.not_eq_true', List.isEmpty_eq_false_iff, ne_eq, hne, not_false_eq_true, if_true]
  rfl

/-- **The second phase** ends the check of a form with distinct ids and a cycle of dependencies. -/
theorem check_of_cyclic (h : f.ids.Nodup) (hcyclic : ¬ f.DependenciesAcyclic) :
    f.check = some f.cyclesVerdict ∧ f.cyclesVerdict.errors ≠ [] := by
  have hnil : f.resolveSymbols.2 = [] := resolveSymbols_snd_eq_nil_iff.2 h
  have hne : (f.dependencyGraph f.resolveSymbols.1).cycles ≠ [] :=
    fun hnil ↦ hcyclic (cycles_dependencyGraph_eq_nil_iff.1 hnil)
  refine ⟨?_, hne⟩
  rw [check]
  simp only [hnil, List.isEmpty_nil, Bool.not_true, Bool.false_eq_true, if_false,
    Bool.not_eq_true', List.isEmpty_eq_false_iff, hne, ne_eq, not_false_eq_true, if_true]
  rfl

/-- **The third phase** ends the check of every other form. -/
theorem check_of_acyclic (h : f.ids.Nodup) (hacyclic : f.DependenciesAcyclic)
    (hpresent : f.OperandsPresent) : f.check = some f.typesVerdict := by
  have hnil : f.resolveSymbols.2 = [] := resolveSymbols_snd_eq_nil_iff.2 h
  have hcycles := cycles_dependencyGraph_eq_nil_iff.2 hacyclic
  rw [check]
  simp only [hnil, hcycles, List.isEmpty_nil, Bool.not_true, Bool.false_eq_true, if_false,
    checkTypes_eq f.resolveSymbols.1 hpresent, Option.map_some]
  rfl

end Form

end Questionnaire
