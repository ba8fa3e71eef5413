import Questionnaire.Proofs.Dependencies
import Questionnaire.Proofs.Phases
import Questionnaire.Proofs.Typing.Widening

/-!
# Integers and decimals in forms

Two forms are **alike** when they have the same statements at the same positions, with the same ids,
and alike expressions. Nothing else is compared: not the name of the form, not the labels, not the
values of literals, and not which of the numeric types is declared or written.

Such forms are checked in lockstep. The declarations give tables that are alike and the very same
findings, the dependencies are the same, so the graphs and the cycles in them are; and the findings
on types agree one by one, since those on each expression do.
-/

namespace Questionnaire

/-- Two questions that differ at most in label and numeric type. -/
structure Question.Alike (q q' : Question) : Prop where
  pos : q.pos = q'.pos
  id : q.id = q'.id
  type : q.type.Alike q'.type

/-! ### Statements -/

namespace Statement

variable {l l' : List Statement}

/-- Two lists of statements with alike questions and expressions, block by block. -/
inductive Alike : List Statement → List Statement → Prop
  | nil : Alike [] []
  | question {q q' : Question} {rest rest' : List Statement} (hq : q.Alike q')
      (h : Alike rest rest') : Alike (.question q :: rest) (.question q' :: rest')
  | calculated {q q' : Question} {value value' : Expr} {rest rest' : List Statement}
      (hq : q.Alike q') (hvalue : value.Alike value') (h : Alike rest rest') :
      Alike (.calculated q value :: rest) (.calculated q' value' :: rest')
  | condition {p : Position} {guard guard' : Expr} {body body' rest rest' : List Statement}
      (hguard : guard.Alike guard') (hbody : Alike body body') (h : Alike rest rest') :
      Alike (.condition p guard body :: rest) (.condition p guard' body' :: rest')

theorem Alike.filterMap_question? (h : Alike l l') :
    List.Forall₂ Question.Alike (l.filterMap question?) (l'.filterMap question?) := by
  induction h with
  | nil => exact .nil
  | question hq _ ih => exact .cons hq ih
  | calculated hq _ _ ih => exact .cons hq ih
  | condition _ _ _ _ ih => exact ih

/-- The questions at any depth are alike. -/
theorem Alike.questions (h : Alike l l') :
    List.Forall₂ Question.Alike ((nestedAll l).filterMap question?)
      ((nestedAll l').filterMap question?) := by
  induction h with
  | nil => exact nestedAll_nil ▸ .nil
  | question hq _ ih =>
    rw [nestedAll_question, nestedAll_question]
    exact .cons hq ih
  | calculated hq _ _ ih =>
    rw [nestedAll_calculated, nestedAll_calculated]
    exact .cons hq ih
  | condition _ _ _ ihbody ihrest =>
    rw [nestedAll_condition, nestedAll_condition, List.filterMap_cons_none rfl,
      List.filterMap_cons_none rfl, List.filterMap_append, List.filterMap_append]
    exact List.rel_append ihbody ihrest

theorem dependentOn_eq_of_alike {q q' : Question} {e e' : Expr} (he : e.Alike e')
    (hq : q.Alike q') : dependentOn e q = dependentOn e' q' := by
  rw [dependentOn, dependentOn, hq.id, hq.pos, he.references_eq]

theorem Alike.dependentsAll_eq (h : Alike l l') : dependentsAll l = dependentsAll l' := by
  induction h with
  | nil => rfl
  | question _ _ ih => rw [dependentsAll_question, dependentsAll_question, ih]
  | calculated hq hvalue _ ih =>
    rw [dependentsAll_calculated, dependentsAll_calculated, ih, dependentOn_eq_of_alike hvalue hq]
  | condition hguard hbody _ ihbody ihrest =>
    have hdirect := map_eq_of_forall₂ (fun q q' hq ↦ dependentOn_eq_of_alike hguard hq)
      hbody.filterMap_question?
    rw [dependentsAll_condition, dependentsAll_condition, ihbody, ihrest, hdirect]

theorem Alike.operandsPresent (h : Alike l l') :
    (∀ s ∈ nestedAll l, s.OperandsPresent) → ∀ s ∈ nestedAll l', s.OperandsPresent := by
  induction h with
  | nil => simp
  | question _ _ ih =>
    rw [nestedAll_question, nestedAll_question, List.forall_mem_cons, List.forall_mem_cons]
    exact fun h ↦ ⟨trivial, ih h.2⟩
  | calculated _ hvalue _ ih =>
    rw [nestedAll_calculated, nestedAll_calculated, List.forall_mem_cons, List.forall_mem_cons]
    exact fun h ↦ ⟨hvalue.operandsPresent h.1, ih h.2⟩
  | condition hguard _ _ ihbody ihrest =>
    simp only [nestedAll_condition, List.forall_mem_cons, List.forall_mem_append]
    exact fun h ↦ ⟨hguard.operandsPresent h.1, ihbody h.2.1, ihrest h.2.2⟩

end Statement

/-! ### What is said of a statement -/

namespace Typing

variable {file : String} {table table' : SymbolTable}

theorem calculatedFindings_agrees {q q' : Question} {t t' : ValueType} (hq : q.Alike q')
    (ht : t.Alike t') :
    List.Forall₂ Finding.Agrees (calculatedFindings file q t) (calculatedFindings file q' t') := by
  unfold calculatedFindings
  rw [show t.promote = t'.promote from ht, show q.type.promote = q'.type.promote from hq.type]
  simp only [ht.eq_undefined_iff]
  split
  · exact .nil
  · rw [hq.pos]
    exact .cons ⟨rfl, rfl, rfl, rfl, rfl, rfl⟩ .nil

theorem guardFindings_agrees {t t' : ValueType} (p : Position) (ht : t.Alike t') :
    List.Forall₂ Finding.Agrees (guardFindings file p t) (guardFindings file p t') := by
  unfold guardFindings
  simp only [ht.eq_boolean_iff]
  split
  · exact .nil
  · exact .cons ⟨rfl, rfl, rfl, rfl, rfl, rfl⟩ .nil

/-- **The findings on alike statements agree**, statement by statement. -/
theorem flatMap_ownFindings_agrees (htable : table.Alike table') {l l' : List Statement}
    (h : Statement.Alike l l') :
    (∀ s ∈ Statement.nestedAll l, s.OperandsPresent) →
      List.Forall₂ Finding.Agrees ((Statement.nestedAll l).flatMap (ownFindings file table))
        ((Statement.nestedAll l').flatMap (ownFindings file table')) := by
  induction h with
  | nil => exact fun _ ↦ Statement.nestedAll_nil ▸ .nil
  | question _ _ ih =>
    rw [Statement.nestedAll_question, Statement.nestedAll_question, List.forall_mem_cons]
    exact fun hpresent ↦ ih hpresent.2
  | calculated hq hvalue _ ih =>
    rw [Statement.nestedAll_calculated, Statement.nestedAll_calculated, List.forall_mem_cons]
    rintro ⟨hpresent, hrest⟩
    have hagree := outcome_agree file htable hvalue hpresent
    exact List.rel_append
      (List.rel_append hagree.findings (calculatedFindings_agrees hq hagree.type)) (ih hrest)
  | condition hguard _ _ ihbody ihrest =>
    simp only [Statement.nestedAll_condition, List.forall_mem_cons, List.forall_mem_append]
    rintro ⟨hpresent, hbody, hrest⟩
    have hagree := outcome_agree file htable hguard hpresent
    rw [List.flatMap_cons, List.flatMap_cons, List.flatMap_append, List.flatMap_append]
    exact List.rel_append
      (List.rel_append hagree.findings (guardFindings_agrees _ hagree.type))
      (List.rel_append (ihbody hbody) (ihrest hrest))

end Typing

/-! ### Declarations -/

namespace SymbolTable

variable {file : String} {t t' : SymbolTable}

theorem Alike.declare (h : t.Alike t') {q q' : Question} (hq : q.Alike q') :
    (t.declare file q).1.Alike (t'.declare file q').1 ∧
      (t.declare file q).2 = (t'.declare file q').2 := by
  have hlookup := h.lookup q.id
  rw [SymbolTable.declare, SymbolTable.declare, ← hq.id]
  generalize t.lookup q.id = found, t'.lookup q.id = found' at hlookup ⊢
  cases hlookup with
  | some hs =>
    refine ⟨h, ?_⟩
    simp only [hq.pos, hs.pos]
  | none =>
    have hsize : t.size = t'.size := List.Forall₂.length_eq h
    exact ⟨List.rel_append h (.cons ⟨hq.id, hq.type, hsize, hq.pos⟩ .nil), rfl⟩

/-- Alike declarations give alike tables and the same findings. -/
theorem Alike.declareAll {qs qs' : List Question} (hqs : List.Forall₂ Question.Alike qs qs') :
    ∀ {t t' : SymbolTable}, t.Alike t' →
      (t.declareAll file qs).1.Alike (t'.declareAll file qs').1 ∧
        (t.declareAll file qs).2 = (t'.declareAll file qs').2 := by
  induction hqs with
  | nil => exact fun h ↦ ⟨h, rfl⟩
  | cons hq _ ih =>
    intro t t' h
    obtain ⟨htable, hfindings⟩ := h.declare hq
    obtain ⟨htables, hlater⟩ := ih htable
    rw [declareAll_cons, declareAll_cons]
    exact ⟨htables, congrArg₂ (· ++ ·) hfindings hlater⟩

end SymbolTable

/-! ### Forms -/

namespace Form

variable {f f' : Form}

/-- Two forms of the same file with alike statements. -/
structure Alike (f f' : Form) : Prop where
  file : f.file = f'.file
  statements : Statement.Alike f.statements f'.statements

namespace Alike

theorem ids_eq (h : f.Alike f') : f.ids = f'.ids :=
  map_eq_of_forall₂ (fun _ _ hq ↦ hq.id) h.statements.questions

theorem dependents_eq (h : f.Alike f') : f.dependents = f'.dependents :=
  h.statements.dependentsAll_eq

theorem dependenciesAcyclic_iff (h : f.Alike f') :
    f.DependenciesAcyclic ↔ f'.DependenciesAcyclic :=
  dependenciesAcyclic_congr fun _ ↦ by rw [h.dependents_eq]

theorem resolveSymbols (h : f.Alike f') :
    f.resolveSymbols.1.Alike f'.resolveSymbols.1 ∧ f.resolveSymbols.2 = f'.resolveSymbols.2 := by
  rw [Form.resolveSymbols, Form.resolveSymbols, h.file]
  exact SymbolTable.Alike.declareAll h.statements.questions .nil

/-- The graphs are the same: their nodes hold no types. -/
theorem dependencyGraph_eq (h : f.Alike f') :
    f.dependencyGraph f.resolveSymbols.1 = f'.dependencyGraph f'.resolveSymbols.1 := by
  have hnodes : f.resolveSymbols.1.symbols.map (fun s ↦ (s.name, s.pos)) =
      f'.resolveSymbols.1.symbols.map fun s ↦ (s.name, s.pos) :=
    map_eq_of_forall₂ (fun s s' hs ↦ by rw [hs.name, hs.pos]) h.resolveSymbols.1
  -- a graph is made from names and positions only
  have hgraph : ∀ symbols : List Symbol, DependencyGraph.ofSymbols f'.file symbols =
      (symbols.map fun s ↦ (s.name, s.pos)).foldl
        (fun g d ↦ (g.withNode d.1 d.2).1) { file := f'.file } :=
    fun symbols ↦ by rw [DependencyGraph.ofSymbols, List.foldl_map]
  rw [dependencyGraph, dependencyGraph, h.dependents_eq, h.file, hgraph, hgraph, hnodes]

theorem typeFindings_agrees (h : f.Alike f') (hpresent : f.OperandsPresent) :
    List.Forall₂ Finding.Agrees f.typeFindings f'.typeFindings := by
  rw [typeFindings, typeFindings, h.file]
  exact Typing.flatMap_ownFindings_agrees h.resolveSymbols.1 h.statements hpresent

end Alike

/-- **Integers and decimals are interchangeable, and values and labels do not matter.** Two alike
forms end in the same phase, with findings that agree one by one. -/
theorem check_alike (hpresent : f.OperandsPresent) (h : f.Alike f') :
    ∃ v v', f.check = some v ∧ f'.check = some v' ∧ v.phase = v'.phase ∧
      List.Forall₂ Finding.Agrees v.errors v'.errors := by
  have hsame : ∀ findings : List Finding, List.Forall₂ Finding.Agrees findings findings :=
    fun _ ↦ List.forall₂_same.2 fun a _ ↦ .refl a
  by_cases hids : f.ids.Nodup
  · have hids' : f'.ids.Nodup := h.ids_eq ▸ hids
    by_cases hacyclic : f.DependenciesAcyclic
    · have hpresent' : f'.OperandsPresent := h.statements.operandsPresent hpresent
      exact ⟨_, _, check_of_acyclic hids hacyclic hpresent,
        check_of_acyclic hids' (h.dependenciesAcyclic_iff.1 hacyclic) hpresent', rfl,
        h.typeFindings_agrees hpresent⟩
    · have hacyclic' := mt h.dependenciesAcyclic_iff.2 hacyclic
      refine ⟨_, _, (check_of_cyclic hids hacyclic).1, (check_of_cyclic hids' hacyclic').1, rfl, ?_⟩
      rw [cyclesVerdict, cyclesVerdict, h.dependencyGraph_eq]
      exact hsame _
  · have hids' : ¬ f'.ids.Nodup := h.ids_eq ▸ hids
    refine ⟨_, _, (check_of_repeated hids).1, (check_of_repeated hids').1, rfl, ?_⟩
    rw [symbolsVerdict, symbolsVerdict, h.resolveSymbols.2]
    exact hsame _

/-- A form with type errors around a numeric question and a literal: a product of the wrong type, a
guard on operands that are not Boolean, and operands that cannot be combined. -/
def rateForm (type : ValueType) (value : Literal) (label : String) : Form where
  name := label
  file := "rates.json"
  statements :=
    [.question { id := "rate", type, label, pos := { line := 1, column := 1 } },
      .question { id := "count", type := .integer, pos := { line := 2, column := 1 } },
      .calculated { id := "charge", type := .string, pos := { line := 3, column := 1 } }
        (.binary { line := 3, column := 14 } .multiply
          (.reference { line := 3, column := 10 } "rate")
          (.reference { line := 3, column := 16 } "count")),
      .condition { line := 4, column := 1 }
        (.binary { line := 4, column := 7 } .or (.literal { line := 4, column := 5 } value)
          (.reference { line := 4, column := 10 } "rate"))
        [.calculated { id := "note", type := .boolean, pos := { line := 5, column := 3 } }
          (.binary { line := 5, column := 12 } .and (.literal { line := 5, column := 10 } value)
            (.literal { line := 5, column := 15 } (.string "")))]]

/-- An integer product against one that is widened: the types named differ, and nothing else that is
compared. -/
theorem check_alike_rateForm :
    let f := rateForm .integer (.integer 1) "first"
    let f' := rateForm .decimal (.decimal (.zero false)) "second"
    f.OperandsPresent ∧ f.Alike f' ∧
      ∃ v v', f.check = some v ∧ f'.check = some v' ∧ v.phase = v'.phase ∧
        List.Forall₂ Finding.Agrees v.errors v'.errors ∧
        v.errors.map Finding.actual ≠ v'.errors.map Finding.actual := by
  intro f f'
  have hpresent : f.OperandsPresent := by decide
  have halike : f.Alike f' := by
    refine ⟨rfl, .question ⟨rfl, rfl, rfl⟩ (.question ⟨rfl, rfl, rfl⟩ ?_)⟩
    refine .calculated ⟨rfl, rfl, rfl⟩ (.binary .reference .reference) ?_
    refine .condition (.binary (.literal rfl) .reference) ?_ .nil
    exact .calculated ⟨rfl, rfl, rfl⟩ (.binary (.literal rfl) (.literal rfl)) .nil
  obtain ⟨v, v', hcheck, hcheck', hphase, hagrees⟩ := check_alike hpresent halike
  have hdiffer : (f.check.map fun v ↦ v.errors.map Finding.actual) ≠
      f'.check.map fun v ↦ v.errors.map Finding.actual := by decide
  rw [hcheck, hcheck'] at hdiffer
  exact ⟨hpresent, halike, v, v', hcheck, hcheck', hphase, hagrees,
    fun heq ↦ hdiffer (congrArg some heq)⟩

end Form

end Questionnaire
