import Questionnaire.Proofs.Findings
import Questionnaire.Proofs.Graph.Layout
import Questionnaire.Proofs.Graph.Reported
import Questionnaire.Proofs.Phases
import Questionnaire.Proofs.Resolution
import Questionnaire.Proofs.Typing.Nodes

/-!
# Findings stand at nodes of the form

Every finding of the check stands in the file of the form, at the position of a statement or of a
node of an expression (`Form.NodeAt`). Each phase gives its own reason:

* a repeated declaration is reported at that declaration, with an earlier one (`mem_repeats`);
* a cycle is reported at a node of the dependency graph, and a node of an undeclared id has no
  position. But such a node has no edges either, so that it is on no cycle (`lt_length_of_edge`);
* the type check reports at operands, operators and statements (`exists_node_of_mem_outcome`, by
  induction over the expression).
-/

namespace Questionnaire

/-! ### Nodes and positions -/

/-- A statement of a form, or a node of an expression in it, has a position. -/
inductive Form.NodeAt (f : Form) : Position → Prop
  | statement {path : List Nat} {s : Statement} (place : Statement.At f.statements path s) :
      NodeAt f s.pos
  | expression {path : List Nat} {s : Statement} {e n : Expr} {p : Position}
      (place : Statement.At f.statements path s) (holds : s.expr? = some e)
      (part : Expr.Occurs n e) (pos : n.pos? = some p) : NodeAt f p

theorem Statement.DeclaredAt.nodeAt {f : Form} {path : List Nat} {q : Question}
    (h : DeclaredAt f.statements path q) : f.NodeAt q.pos := by
  obtain ⟨s, place, hq⟩ := h
  have hpos : s.pos = q.pos := by
    cases s with
    | question r | calculated r => rw [← Option.some.inj hq]; rfl
    | condition => exact absurd hq (by simp [question?])
  exact hpos ▸ .statement place

/-- An error that stands in the file of a form at the position of one of its nodes. -/
structure Finding.StandsIn (f : Form) (e : Finding) : Prop where
  severity : e.severity = .error
  file : e.location.file = f.file
  path : e.location.path = ""
  node : f.NodeAt ⟨e.location.line, e.location.column⟩

theorem Finding.standsIn_of_location {f : Form} {e : Finding} {p : Position}
    (hseverity : e.severity = .error) (hp : f.NodeAt p)
    (h : e.location = .ofPosition f.file p) : e.StandsIn f where
  severity := hseverity
  file := by rw [h]; rfl
  path := by rw [h]; rfl
  node := by rw [h]; exact hp

/-- A declaration is reported, and with it an earlier one of the same id. -/
def Finding.ReportsRepeat (f : Form) (e : Finding) : Prop :=
  ∃ path path' q q', path < path' ∧ Statement.DeclaredAt f.statements path q ∧
    Statement.DeclaredAt f.statements path' q' ∧ q.id = q'.id ∧ e.name = q'.id ∧
    e.location = .ofPosition f.file q'.pos ∧ e.related = some (.ofPosition f.file q.pos)

/-- All ids of a cycle are declared, and it is reported at the only declaration of the first. -/
def Finding.ReportsDeclared (f : Form) (e : Finding) : Prop :=
  (∀ id ∈ e.cycle, f.DeclaresId id) ∧
    ∃ path q, Statement.DeclaredAt f.statements path q ∧ e.cycle.head? = some q.id ∧
      e.location = .ofPosition f.file q.pos ∧
      ∀ path' q', Statement.DeclaredAt f.statements path' q' → q'.id = q.id → path' = path

/-! ### Repeated declarations -/

/-- A repeat stands behind the declaration that it goes with. -/
theorem Question.mem_repeats {qs : List Question} {q first : Question}
    (h : (q, first) ∈ repeats qs) :
    ∃ i j : Nat, i < j ∧ qs[i]? = some first ∧ qs[j]? = some q ∧ first.id = q.id := by
  obtain ⟨⟨earlier, r⟩, hmem, hfind⟩ := List.mem_filterMap.1 h
  obtain ⟨first', hfirst, heq⟩ := Option.map_eq_some_iff.1 hfind
  obtain ⟨rfl, rfl⟩ := Prod.mk.inj heq
  obtain ⟨⟨s, j⟩, hs, heq⟩ := List.mem_map.1 hmem
  obtain ⟨rfl, rfl⟩ := Prod.mk.inj heq
  obtain ⟨i, hi, hget⟩ := List.mem_take_iff_getElem.1 (List.mem_of_find?_eq_some hfirst)
  refine ⟨i, j, (Nat.lt_min.1 hi).1, ?_, ?_, by simpa using List.find?_some hfirst⟩
  · rw [← hget]
    exact List.getElem?_eq_getElem _
  · exact List.mem_zipIdx_iff_getElem?.1 hs

/-- **A repeated declaration** is reported with an earlier one. -/
theorem Form.reportsRepeat_of_mem_resolveSymbols {f : Form} {e : Finding}
    (he : e ∈ f.resolveSymbols.2) : e.ReportsRepeat f := by
  obtain ⟨entries, horder, hquestions⟩ := Statement.exists_inDocumentOrder f.statements
  rw [resolveSymbols, SymbolTable.findings_declareAll] at he
  obtain ⟨⟨q, first⟩, hd, rfl⟩ := List.mem_map.1 he
  obtain ⟨i, j, hij, hi, hj, hid⟩ := Question.mem_repeats hd
  rw [questions, statementsAll, ← hquestions, List.getElem?_map, Option.map_eq_some_iff] at hi hj
  obtain ⟨⟨path, _⟩, hpath, rfl⟩ := hi
  obtain ⟨⟨path', _⟩, hpath', rfl⟩ := hj
  exact ⟨path, path', _, _, horder.lt_of_getElem? hij hpath hpath',
    (horder.mem_iff _ _).1 (List.mem_of_getElem? hpath),
    (horder.mem_iff _ _).1 (List.mem_of_getElem? hpath'), hid, rfl, rfl, rfl⟩

/-! ### Cycles -/

namespace DependencyGraph

variable {g : DependencyGraph} {symbols : List Symbol}

/-- **Only nodes of symbols have edges.** -/
theorem Laid.lt_length_of_edge (h : g.Laid symbols) {v w : Nat} (hvw : g.Edge v w) :
    v < symbols.length := by
  by_contra hle
  rw [Edge, (h.bare v (Nat.le_of_not_lt hle)).2] at hvw
  exact absurd hvw List.not_mem_nil

/-- Every node of a cycle has an edge. -/
theorem IsCycle.exists_edge {v x : Nat} {between : List Nat} (h : g.IsCycle v between)
    (hx : x ∈ v :: between) : ∃ w, g.Edge x w := by
  obtain ⟨front, rest, hsplit⟩ := List.append_of_mem hx
  rw [IsCycle, ← List.cons_append, hsplit, List.append_assoc, List.cons_append] at h
  have hchain := h.right_of_append
  obtain ⟨w, tail, hw⟩ : ∃ w tail, rest ++ [v] = w :: tail :=
    List.exists_cons_of_ne_nil (by simp)
  rw [hw] at hchain
  exact ⟨w, (List.isChain_cons_cons.1 hchain).1⟩

theorem mem_cycleNodes {path : List Nat} {target v : Nat} (h : v ∈ cycleNodes path target) :
    v ∈ target :: segment path target := by
  rw [cycleNodes_eq] at h
  simp only [List.mem_cons, List.mem_append, List.not_mem_nil, or_false] at h ⊢
  tauto

theorem file_withNode (name : String) (pos : Position) :
    (g.withNode name pos).1.file = g.file := by
  rcases g.withNode_cases name pos with ⟨i, -, -, heq⟩ | ⟨-, heq⟩
  · rw [heq]
  · rw [heq]
    rfl

theorem file_withDependent (d : Dependent) : (g.withDependent d).file = g.file :=
  List.foldlRecOn (motive := fun g' : DependencyGraph ↦ g'.file = g.file) _ _
    (file_withNode d.source d.pos) fun _ hg name _ ↦ (file_withNode name {}).trans hg

theorem file_ofSymbols (file : String) (symbols : List Symbol) :
    (ofSymbols file symbols).file = file :=
  List.foldlRecOn (motive := fun g : DependencyGraph ↦ g.file = file) _ _ rfl
    fun _ hg s _ ↦ (file_withNode s.name s.pos).trans hg

end DependencyGraph

namespace Form

variable {f : Form}

theorem file_dependencyGraph (f : Form) (t : SymbolTable) : (f.dependencyGraph t).file = f.file :=
  List.foldlRecOn (motive := fun g : DependencyGraph ↦ g.file = f.file) _ _
    (DependencyGraph.file_ofSymbols f.file t.symbols)
    fun _ hg d _ ↦ (DependencyGraph.file_withDependent d).trans hg

/-- **A node of a symbol** has the name and the position of a declaration. -/
theorem exists_declaredAt_of_lt {v : Nat} (hv : v < f.resolveSymbols.1.symbols.length) :
    ∃ path q, Statement.DeclaredAt f.statements path q ∧
      (f.dependencyGraph f.resolveSymbols.1).nameAt v = q.id ∧
      (f.dependencyGraph f.resolveSymbols.1).posAt v = q.pos := by
  obtain ⟨s, hs⟩ : ∃ s, f.resolveSymbols.1.symbols[v]? = some s := ⟨_, List.getElem?_eq_getElem hv⟩
  obtain ⟨-, hname, hpos⟩ := f.laid_dependencyGraph.of_getElem? hs
  rw [resolveSymbols, SymbolTable.getElem?_symbols_declareAll, Option.map_eq_some_iff] at hs
  obtain ⟨q, hq, rfl⟩ := hs
  obtain ⟨path, place⟩ := Statement.mem_questions_iff.1
    (Question.mem_of_mem_firsts (List.mem_of_getElem? hq))
  exact ⟨path, q, place, hname, hpos⟩

/-- **A cycle** runs through declared ids only, and is reported at a declaration of the first. -/
theorem reportsDeclared_of_mem_cycles (hids : f.ids.Nodup) {e : Finding}
    (he : e ∈ (f.dependencyGraph f.resolveSymbols.1).cycles) : e.ReportsDeclared f := by
  have hbuilt : (f.dependencyGraph f.resolveSymbols.1).Built :=
    built_dependencyGraph f.nodup_resolveSymbols
  obtain ⟨trail, target, hcloses, rfl⟩ :=
    (DependencyGraph.searched_cycles hbuilt.edges_inRange).closes e he
  -- a node of the cycle has an edge, so that it is the node of a symbol
  have hdeclared : ∀ v ∈ target :: DependencyGraph.segment trail target,
      ∃ path q, Statement.DeclaredAt f.statements path q ∧
        (f.dependencyGraph f.resolveSymbols.1).nameAt v = q.id ∧
        (f.dependencyGraph f.resolveSymbols.1).posAt v = q.pos := by
    intro v hv
    obtain ⟨w, hvw⟩ := hcloses.isCycle.exists_edge hv
    exact exists_declaredAt_of_lt (f.laid_dependencyGraph.lt_length_of_edge hvw)
  refine ⟨fun id hid ↦ ?_, ?_⟩
  · obtain ⟨v, hv, rfl⟩ := List.mem_map.1 hid
    obtain ⟨path, q, place, hname, -⟩ := hdeclared v (DependencyGraph.mem_cycleNodes hv)
    exact ⟨path, q, place, hname.symm⟩
  · obtain ⟨path, q, place, hname, hpos⟩ := hdeclared target List.mem_cons_self
    refine ⟨path, q, place, ?_, ?_, fun path' q' place' hid ↦ ?_⟩
    · exact congrArg some hname
    · show Location.ofPosition _ _ = _
      rw [file_dependencyGraph, hpos]
    · exact Statement.nodup_ids_iff.1 hids path' path q' q place' place hid

end Form

/-! ### Types -/

namespace Typing

variable {file : String} {table : SymbolTable}

/-- The report of an operand stands at the operand. -/
theorem location_of_mem_operandReport {seen : List Finding} {t : ValueType} {operand : Expr}
    {x : Finding} (h : x ∈ operandReport file seen t operand) :
    ∃ p, operand.pos? = some p ∧ x.location = .ofPosition file p := by
  unfold operandReport at h
  split at h
  · obtain ⟨p, hp, rfl⟩ := List.mem_map.1 h
    exact ⟨p, Option.mem_toList.1 (List.mem_of_mem_filter hp), rfl⟩
  · exact absurd h List.not_mem_nil

/-- **What is found on an expression** stands at a node of it. -/
theorem exists_node_of_mem_outcome {e : Expr} (he : e.isComplete) {x : Finding}
    (hx : x ∈ (outcome file table e).2) :
    ∃ n p, Expr.Occurs n e ∧ n.pos? = some p ∧ x.location = .ofPosition file p := by
  induction e with
  | absent | literal => exact absurd hx List.not_mem_nil
  | reference p name =>
    rw [outcome_reference] at hx
    split at hx
    · exact absurd hx List.not_mem_nil
    · rw [List.mem_singleton.1 hx]
      exact ⟨_, p, .self, rfl, rfl⟩
  | unary p op operand ih =>
    have hoperand : operand.isComplete := he
    rw [outcome_unary_snd p op hoperand, List.mem_append, List.mem_append] at hx
    rcases hx with (hx | hx) | hx
    · obtain ⟨n, q, hn, hq, hlocation⟩ := ih hoperand hx
      exact ⟨n, q, .operand hn, hq, hlocation⟩
    · obtain ⟨q, hq, hlocation⟩ := location_of_mem_operandReport hx
      exact ⟨operand, q, .operand .self, hq, hlocation⟩
    · obtain ⟨q, hq, hlocation, -⟩ := mem_operatorFindings hx
      exact ⟨_, q, .self, hq, hlocation⟩
  | binary p op l r ihl ihr =>
    obtain ⟨hl, hr⟩ := Bool.and_eq_true_iff.1 he
    rw [outcome_binary_snd p op hl hr] at hx
    simp only [List.mem_append] at hx
    rcases hx with (((hx | hx) | hx) | hx) | hx
    · obtain ⟨n, q, hn, hq, hlocation⟩ := ihl hl hx
      exact ⟨n, q, .left hn, hq, hlocation⟩
    · obtain ⟨n, q, hn, hq, hlocation⟩ := ihr hr hx
      exact ⟨n, q, .right hn, hq, hlocation⟩
    · obtain ⟨q, hq, hlocation⟩ := location_of_mem_operandReport hx
      exact ⟨l, q, .left .self, hq, hlocation⟩
    · obtain ⟨q, hq, hlocation⟩ := location_of_mem_operandReport hx
      exact ⟨r, q, .right .self, hq, hlocation⟩
    · obtain ⟨q, hq, hlocation, -⟩ := mem_operatorFindings hx
      exact ⟨_, q, .self, hq, hlocation⟩

theorem location_of_mem_statementFindings {s : Statement} {x : Finding}
    (h : x ∈ statementFindings file table s) : x.location = .ofPosition file s.pos := by
  cases s with
  | question q => exact absurd h List.not_mem_nil
  | calculated q value =>
    rw [statementFindings, calculatedFindings] at h
    split at h
    · exact absurd h List.not_mem_nil
    · exact List.mem_singleton.1 h ▸ rfl
  | condition p guard body =>
    rw [statementFindings, guardFindings] at h
    split at h
    · exact absurd h List.not_mem_nil
    · exact List.mem_singleton.1 h ▸ rfl

end Typing

namespace Form

variable {f : Form}

/-- **What the type check finds** stands at a node of the form. -/
theorem exists_nodeAt_of_mem_typeFindings (h : f.OperandsPresent) {e : Finding}
    (he : e ∈ f.typeFindings) : ∃ p, f.NodeAt p ∧ e.location = .ofPosition f.file p := by
  obtain ⟨s, hs, hown⟩ := List.mem_flatMap.1 he
  obtain ⟨path, place⟩ := Statement.mem_nestedAll_iff.1 hs
  rw [Typing.ownFindings_eq, List.mem_append] at hown
  rcases hown with hown | hown
  · obtain ⟨x, hx, hout⟩ := List.mem_flatMap.1 hown
    have hexpr : s.expr? = some x := Option.mem_toList.1 hx
    rcases Statement.operandsPresent_iff.1 (h s hs) x hexpr with rfl | hcomplete
    · -- nothing is found on an expression that is not there
      exact absurd hout List.not_mem_nil
    · obtain ⟨n, p, hn, hp, hlocation⟩ := Typing.exists_node_of_mem_outcome hcomplete hout
      exact ⟨p, .expression place hexpr hn hp, hlocation⟩
  · exact ⟨s.pos, .statement place, Typing.location_of_mem_statementFindings hown⟩

/-! ### All phases -/

/-- **Every finding points at a node.** The check of a form in which no operator lacks an operand
has a verdict. All its findings are errors in the file of the form, with no path, at the position of
a statement or of a node of an expression. A repeated declaration is reported with an earlier one of
the same id. The ids of a cycle are all declared, and the cycle is reported at the declaration of
the first. -/
theorem check_points_at_nodes (h : f.OperandsPresent) :
    ∃ v, f.check = some v ∧ ∀ e ∈ v.errors, e.StandsIn f ∧
      (e.kind = .duplicateDeclaration → e.ReportsRepeat f) ∧
      (e.kind = .cyclicDependency → e.ReportsDeclared f) := by
  by_cases hids : f.ids.Nodup
  · by_cases hacyclic : f.DependenciesAcyclic
    · have hcheck := check_of_acyclic hids hacyclic h
      refine ⟨_, hcheck, fun e he ↦ ?_⟩
      have hfound : e.FoundBy .types := foundBy_of_check hcheck e he
      obtain ⟨p, hp, hlocation⟩ := exists_nodeAt_of_mem_typeFindings h he
      refine ⟨Finding.standsIn_of_location hfound.severity hp hlocation, fun hkind ↦ ?_,
        fun hkind ↦ ?_⟩
      · exact absurd (hkind ▸ hfound.kind) (by decide)
      · exact absurd (hkind ▸ hfound.kind) (by decide)
    · have hcheck := (check_of_cyclic hids hacyclic).1
      refine ⟨_, hcheck, fun e he ↦ ?_⟩
      have hfound : e.FoundBy .cycles := foundBy_of_check hcheck e he
      have hreports : e.ReportsDeclared f := reportsDeclared_of_mem_cycles hids he
      refine ⟨?_, fun hkind ↦ absurd (hkind ▸ hfound.kind) (by decide), fun _ ↦ hreports⟩
      obtain ⟨-, path, q, place, -, hlocation, -⟩ := hreports
      exact Finding.standsIn_of_location hfound.severity place.nodeAt hlocation
  · have hcheck := (check_of_repeated hids).1
    refine ⟨_, hcheck, fun e he ↦ ?_⟩
    have hfound : e.FoundBy .symbols := foundBy_of_check hcheck e he
    have hreports : e.ReportsRepeat f := reportsRepeat_of_mem_resolveSymbols he
    refine ⟨?_, fun _ ↦ hreports, fun hkind ↦ absurd (hkind ▸ hfound.kind) (by decide)⟩
    obtain ⟨path, path', q, q', -, -, place, -, -, hlocation, -⟩ := hreports
    exact Finding.standsIn_of_location hfound.severity place.nodeAt hlocation

/-- Two questions that depend on each other, and both on one that is not declared. -/
def ghostLoop : Form where
  file := "loop.json"
  statements :=
    [.condition ⟨1, 1⟩ (.reference ⟨1, 5⟩ "ghost")
        [.calculated { id := "total", type := .integer, pos := ⟨2, 3⟩ }
          (.binary ⟨2, 30⟩ .addition (.reference ⟨2, 24⟩ "ghost") (.reference ⟨2, 32⟩ "tax"))],
      .calculated { id := "tax", type := .integer, pos := ⟨3, 1⟩ }
        (.binary ⟨3, 30⟩ .addition (.reference ⟨3, 24⟩ "ghost") (.reference ⟨3, 32⟩ "total"))]

/-- The id that is not declared has a node in the graph, but is no part of the cycle. -/
theorem check_points_ghostLoop :
    ghostLoop.OperandsPresent ∧ ∃ v e, ghostLoop.check = some v ∧ e ∈ v.errors ∧
      e.cycle = ["total", "tax", "total"] ∧ e.location = ⟨"loop.json", "", 2, 3⟩ ∧
      e.StandsIn ghostLoop ∧ e.ReportsDeclared ghostLoop := by
  have hpresent : ghostLoop.OperandsPresent := by decide
  obtain ⟨v, hv, hall⟩ := check_points_at_nodes hpresent
  have herrors : ghostLoop.check.map Verdict.errors = some
      [.cyclicDependency ⟨"loop.json", "", 2, 3⟩ ["total", "tax", "total"]] := by decide
  rw [hv, Option.map_some, Option.some.injEq] at herrors
  have he : .cyclicDependency ⟨"loop.json", "", 2, 3⟩ ["total", "tax", "total"] ∈ v.errors :=
    herrors ▸ List.mem_singleton.2 rfl
  obtain ⟨hstands, -, hcycle⟩ := hall _ he
  exact ⟨hpresent, v, _, hv, he, rfl, rfl, hstands, hcycle rfl⟩

end Form

end Questionnaire
