import Questionnaire.Proofs.Typing.Reporting
import Questionnaire.Proofs.WellFormed

/-!
# Undefined references are reported once

A reference to an undeclared id reports itself. An operand without a type is reported by its
operator, unless it was noted at its position before. The aim of looking back is to report an
undeclared reference that is an operand once and not twice, but what is compared are positions, not
nodes.

When all nodes have positions of their own the two come to the same (`operandReport_eq`): among what
an operator looks back at, the position of an operand was noted exactly when the operand is a
reference, which then reported itself. So each reportable node (`Expr.reportable`) without a type is
reported once (`filter_outcome_perm`). That gives both halves of `undefined_reported_once`: the
positions of the reports are some of the positions of the nodes, without repetition, and the reports
are those that the rules of `Expr.Unresolved` ask for.
-/

namespace Questionnaire

namespace Expr

/-! ### Reportable nodes -/

/-- Whether an expression is a reference. -/
def isReference : Expr → Bool
  | .reference .. => true
  | .absent | .literal .. | .unary .. | .binary .. => false

/-- The nodes of an expression that can be reported as undefined: its references and operands. -/
def reportable : Expr → List Expr
  | .reference p n => [.reference p n]
  | .unary _ _ x => x.nodes
  | .binary _ _ l r => l.nodes ++ r.nodes
  | .absent | .literal .. => []

/-- The expression, unless it is a reference, which reports itself. -/
def unlessReference (e : Expr) : List Expr :=
  if e.isReference then [] else [e]

theorem nodes_eq {e : Expr} (he : e.isComplete) : e.nodes = e.reportable ++ e.unlessReference := by
  cases e with
  | absent => exact absurd he (by simp [isComplete])
  | literal | reference | unary | binary => rfl

theorem reportable_sublist (e : Expr) : e.reportable.Sublist e.nodes := by
  cases e with
  | absent | literal => exact List.nil_sublist _
  | reference => exact List.Sublist.refl _
  | unary | binary => exact List.sublist_append_left _ _

theorem self_mem_nodes {e : Expr} (he : e.isComplete) : e ∈ e.nodes :=
  (mem_nodes_iff he).2 .self

theorem exists_pos {e : Expr} (he : e.isComplete) : ∃ p, e.pos? = some p := by
  cases e with
  | absent => exact absurd he (by simp [isComplete])
  | literal p | reference p | unary p | binary p => exact ⟨p, rfl⟩

theorem pos_mem_nodes {e : Expr} (he : e.isComplete) {p : Position} (hp : e.pos? = some p) :
    p ∈ e.nodes.filterMap pos? :=
  List.mem_filterMap.2 ⟨e, self_mem_nodes he, hp⟩

theorem mem_nodes_cases {n e : Expr} (he : e.isComplete) (h : n ∈ e.nodes) :
    n ∈ e.reportable ∨ n = e := by
  rw [nodes_eq he, List.mem_append, unlessReference] at h
  refine h.imp_right fun h ↦ ?_
  split at h
  · exact absurd h List.not_mem_nil
  · exact List.mem_singleton.1 h

theorem flatMap_reportable_sublist (es : List Expr) :
    (es.flatMap reportable).Sublist (es.flatMap nodes) := by
  induction es with
  | nil => exact List.Sublist.refl _
  | cons e es ih =>
    rw [List.flatMap_cons, List.flatMap_cons]
    exact e.reportable_sublist.append ih

/-- A reportable node that is no reference is an operand. -/
theorem exists_operator_of_mem_reportable {n e : Expr} (he : e.isComplete) (h : n ∈ e.reportable)
    (hn : ¬ n.isReference) : ∃ parent, Occurs parent e ∧ n ∈ parent.operands := by
  induction e with
  | absent | literal => exact absurd h List.not_mem_nil
  | reference p name => exact absurd (List.mem_singleton.1 h ▸ rfl) hn
  | unary p op x ih =>
    have hx : x.isComplete := he
    rcases mem_nodes_cases hx h with h | rfl
    · obtain ⟨parent, hparent, hoperand⟩ := ih he h
      exact ⟨parent, .operand hparent, hoperand⟩
    · exact ⟨_, .self, List.mem_singleton.2 rfl⟩
  | binary p op l r ihl ihr =>
    obtain ⟨hl, hr⟩ := Bool.and_eq_true_iff.1 he
    rcases List.mem_append.1 h with h | h
    · rcases mem_nodes_cases hl h with h | rfl
      · obtain ⟨parent, hparent, hoperand⟩ := ihl hl h
        exact ⟨parent, .left hparent, hoperand⟩
      · exact ⟨_, .self, List.mem_cons_self⟩
    · rcases mem_nodes_cases hr h with h | rfl
      · obtain ⟨parent, hparent, hoperand⟩ := ihr hr h
        exact ⟨parent, .right hparent, hoperand⟩
      · exact ⟨_, .self, List.mem_cons_of_mem _ List.mem_cons_self⟩

/-- An operand is a reportable node. -/
theorem mem_reportable_of_operand {n parent e : Expr} (he : e.isComplete) (h : Occurs parent e)
    (hn : n ∈ parent.operands) : n ∈ e.reportable := by
  induction h with
  | self =>
    cases parent with
    | absent | literal | reference => exact absurd hn List.not_mem_nil
    | unary p op x =>
      rw [List.mem_singleton.1 hn]
      exact self_mem_nodes he
    | binary p op l r =>
      obtain ⟨hl, hr⟩ := Bool.and_eq_true_iff.1 he
      rcases List.mem_cons.1 hn with rfl | hn
      · exact List.mem_append_left _ (self_mem_nodes hl)
      · rw [List.mem_singleton.1 hn]
        exact List.mem_append_right _ (self_mem_nodes hr)
  | operand _ ih => exact (reportable_sublist _).subset (ih he)
  | left _ ih =>
    exact List.mem_append_left _ ((reportable_sublist _).subset (ih (Bool.and_eq_true_iff.1 he).1))
  | right _ ih =>
    exact List.mem_append_right _ ((reportable_sublist _).subset (ih (Bool.and_eq_true_iff.1 he).2))

/-- A reference is a reportable node. -/
theorem mem_reportable_of_reference {p : Position} {name : String} {e : Expr} (he : e.isComplete)
    (h : Occurs (.reference p name) e) : .reference p name ∈ e.reportable := by
  rcases mem_nodes_cases he ((mem_nodes_iff he).2 h) with h | rfl
  · exact h
  · exact List.mem_singleton.2 rfl

/-! ### What is to be reported -/

/-- An expression has, at a position, a reference to an undeclared name or an operand without a
type; the operand is given by its text. -/
inductive Unresolved (declared : String → ValueType → Prop) (e : Expr) : Position → String → Prop
  | reference {p : Position} {name : String} (node : Occurs (.reference p name) e)
      (undeclared : ∀ t, ¬ declared name t) : Unresolved declared e p name
  | operand {parent x : Expr} {p : Position} (node : Occurs parent e)
      (operand : x ∈ parent.operands) (pos : x.pos? = some p) (notReference : ¬ x.isReference)
      (illTyped : ∀ t, ¬ HasType declared x t) : Unresolved declared e p x.text

theorem not_unresolved_absent {declared : String → ValueType → Prop} {p : Position}
    {name : String} : ¬ Unresolved declared .absent p name := by
  rintro (⟨node, -⟩ | ⟨node, operand, -⟩)
  · cases node
  · cases node
    exact absurd operand List.not_mem_nil

end Expr

namespace Typing

variable {file : String} {table : SymbolTable}

/-- The reports of those nodes of a list that have no type. -/
def reports (file : String) (table : SymbolTable) (ns : List Expr) : List Finding :=
  (ns.filter fun n ↦ (outcome file table n).1 = .undefined).filterMap fun n ↦
    n.pos?.map fun p ↦ .undefinedReference (.ofPosition file p) n.text

theorem reports_append (ns ns' : List Expr) :
    reports file table (ns ++ ns') = reports file table ns ++ reports file table ns' := by
  rw [reports, List.filter_append, List.filterMap_append]
  rfl

theorem reports_flatMap {α : Type} (l : List α) (g : α → List Expr) :
    reports file table (l.flatMap g) = l.flatMap fun x ↦ reports file table (g x) := by
  rw [reports, List.filter_flatMap, List.filterMap_flatMap]
  rfl

theorem mem_reports_iff {ns : List Expr} {f : Finding} :
    f ∈ reports file table ns ↔ ∃ n ∈ ns, (outcome file table n).1 = .undefined ∧
      ∃ p, n.pos? = some p ∧ f = .undefinedReference (.ofPosition file p) n.text := by
  simp only [reports, List.mem_filterMap, List.mem_filter, decide_eq_true_eq,
    Option.map_eq_some_iff, and_assoc, eq_comm (a := f)]

/-- The reports stand at positions of the nodes, in their order. -/
theorem location_reports (ns : List Expr) :
    (reports file table ns).map Finding.location =
      ((ns.filter fun n ↦ (outcome file table n).1 = .undefined).filterMap Expr.pos?).map
        (Location.ofPosition file) := by
  rw [reports, List.map_filterMap, List.map_filterMap]
  refine List.filterMap_congr fun n _ ↦ ?_
  cases n.pos? <;> rfl

/-- What the rules ask for are the reports of the reportable nodes. -/
theorem exists_mem_reportable_iff {declared : String → ValueType → Prop} {e : Expr}
    (he : e.isComplete)
    (hjudges : ∀ n, Expr.Occurs n e → Judges declared n (outcome file table n)) {p : Position}
    {name : String} :
    (∃ n ∈ e.reportable, (outcome file table n).1 = .undefined ∧ n.pos? = some p ∧ name = n.text) ↔
      e.Unresolved declared p name := by
  have hoccurs : ∀ n ∈ e.reportable, Expr.Occurs n e := fun n hn ↦
    (Expr.mem_nodes_iff he).1 ((Expr.reportable_sublist e).subset hn)
  constructor
  · rintro ⟨n, hn, hundefined, hpos, rfl⟩
    have hnot := (hjudges n (hoccurs n hn)).undefined_iff.1 hundefined
    by_cases href : n.isReference
    · cases n with
      | absent | literal | unary | binary => exact absurd href Bool.false_ne_true
      | reference q name =>
        obtain rfl := Option.some.inj hpos
        exact .reference (hoccurs _ hn) fun t ht ↦ hnot t (.reference ht)
    · obtain ⟨parent, hparent, hoperand⟩ := Expr.exists_operator_of_mem_reportable he hn href
      exact .operand hparent hoperand hpos href hnot
  · rintro (⟨node, undeclared⟩ | ⟨node, operand, pos, -, illTyped⟩)
    · refine ⟨_, Expr.mem_reportable_of_reference he node,
        (hjudges _ node).undefined_iff.2 fun t ht ↦ ?_, rfl, rfl⟩
      cases ht with
      | reference ht => exact undeclared t ht
    · have hmem := Expr.mem_reportable_of_operand he node operand
      exact ⟨_, hmem, (hjudges _ (hoccurs _ hmem)).undefined_iff.2 illTyped, pos, rfl⟩

/-! ### What was noted -/

theorem noted_append {findings later : List Finding} {p : Position} :
    noted file (findings ++ later) p ↔ noted file findings p ∨ noted file later p := by
  rw [noted, List.any_append, Bool.or_eq_true]
  rfl

/-- What was noted comes from nodes at that position. -/
theorem mem_pos_of_noted {findings : List Finding} {ns : List Expr} {p : Position}
    (hperm : (findings.filter fun f ↦ f.kind = .undefinedReference).Perm (reports file table ns))
    (h : noted file findings p) : p ∈ ns.filterMap Expr.pos? := by
  obtain ⟨f, hf, hkind, hlocation⟩ := noted_iff.1 h
  have hmem : f ∈ reports file table ns :=
    hperm.subset (List.mem_filter.2 ⟨hf, decide_eq_true hkind⟩)
  obtain ⟨n, hn, -, q, hq, rfl⟩ := mem_reports_iff.1 hmem
  obtain rfl := Location.ofPosition_injective file hlocation
  exact List.mem_filterMap.2 ⟨n, hn, hq⟩

theorem pos_of_noted_operandReport {seen : List Finding} {t : ValueType} {x : Expr} {p : Position}
    (h : noted file (operandReport file seen t x) p) : x.pos? = some p := by
  obtain ⟨f, hf, -, hlocation⟩ := noted_iff.1 h
  unfold operandReport at hf
  split at hf
  · obtain ⟨q, hq, rfl⟩ := List.mem_map.1 hf
    obtain rfl := Location.ofPosition_injective file hlocation
    exact Option.mem_toList.1 (List.mem_filter.1 hq).1
  · exact absurd hf List.not_mem_nil

/-- A reference without a type reports itself. -/
theorem outcome_reference_snd (ht : table.TypesDeclarable) (p : Position) (name : String) :
    (outcome file table (.reference p name)).2 = reports file table [.reference p name] := by
  have houtcome : outcome file table (.reference p name) = _ := outcome_reference p name
  cases hlookup : table.lookup name with
  | none =>
    rw [hlookup] at houtcome
    simp [reports, houtcome, Expr.pos?, Expr.text]
  | some s =>
    rw [hlookup] at houtcome
    have htype : table.Declares name s.type := by
      rw [SymbolTable.Declares, SymbolTable.type?, hlookup]
      rfl
    simp [reports, houtcome, ValueType.ne_undefined_of_mem_declarable (ht name s.type htype)]

/-- **An operand is noted in what was found on it** exactly when it is a reference. -/
theorem noted_outcome_iff (ht : table.TypesDeclarable) {x : Expr} (hx : x.isComplete)
    (hpos : (x.nodes.filterMap Expr.pos?).Nodup)
    (hperm : ((outcome file table x).2.filter fun f ↦ f.kind = .undefinedReference).Perm
      (reports file table x.reportable))
    {p : Position} (hp : x.pos? = some p) (hundefined : (outcome file table x).1 = .undefined) :
    noted file (outcome file table x).2 p ↔ x.isReference := by
  constructor
  · intro hnoted
    by_contra href
    rw [Expr.nodes_eq hx, Expr.unlessReference, if_neg href, List.filterMap_append,
      List.nodup_append] at hpos
    exact hpos.2.2 p (mem_pos_of_noted hperm hnoted) p (by simp [hp]) rfl
  · intro href
    cases x with
    | absent | literal | unary | binary => exact absurd href Bool.false_ne_true
    | reference q name =>
      obtain rfl := Option.some.inj hp
      refine noted_iff.2 ⟨.undefinedReference (.ofPosition file q) name, ?_, rfl, rfl⟩
      rw [outcome_reference_snd ht]
      exact mem_reports_iff.2 ⟨_, List.mem_singleton.2 rfl, hundefined, q, rfl, rfl⟩

/-- **An operator reports** an operand without a type unless it is a reference, when it looks back
at nothing else with the position of the operand. -/
theorem operandReport_eq {x : Expr} (hx : x.isComplete) {seen : List Finding}
    (hseen : ∀ p, x.pos? = some p → (outcome file table x).1 = .undefined →
      (noted file seen p ↔ x.isReference)) :
    operandReport file seen (outcome file table x).1 x = reports file table x.unlessReference := by
  obtain ⟨p, hp⟩ := Expr.exists_pos hx
  by_cases hundefined : (outcome file table x).1 = .undefined
  · have hnoted := hseen p hp hundefined
    rw [operandReport, if_pos hundefined, hp, Option.toList_some, Expr.unlessReference]
    by_cases href : x.isReference
    · simp [reports, href, hnoted.2 href]
    · simp [reports, href, hundefined, hp, mt hnoted.1 href]
  · rw [operandReport_of_typed hundefined, Expr.unlessReference]
    split
    · rfl
    · simp [reports, hundefined]

/-! ### All expressions -/

theorem filter_undefined_reports (ns : List Expr) :
    ((reports file table ns).filter fun f ↦ f.kind = .undefinedReference) =
      reports file table ns := by
  refine List.filter_eq_self.2 fun f hf ↦ ?_
  obtain ⟨n, -, -, p, -, rfl⟩ := mem_reports_iff.1 hf
  rfl

theorem filter_undefined_operatorFindings (n : Expr) :
    ((operatorFindings file table n).filter fun f ↦ f.kind = .undefinedReference) = [] := by
  refine List.filter_eq_nil_iff.2 fun f hf hkind ↦ ?_
  obtain ⟨-, -, -, hoperator⟩ := mem_operatorFindings hf
  rw [of_decide_eq_true hkind] at hoperator
  exact absurd hoperator (by decide)

/-- **Each reportable node without a type is reported once**, when the nodes have positions of their
own. -/
theorem filter_outcome_perm (ht : table.TypesDeclarable) {e : Expr} (he : e.isComplete)
    (hpos : (e.nodes.filterMap Expr.pos?).Nodup) :
    ((outcome file table e).2.filter fun f ↦ f.kind = .undefinedReference).Perm
      (reports file table e.reportable) := by
  induction e with
  | absent => exact absurd he (by simp [Expr.isComplete])
  | literal p v => exact List.Perm.refl _
  | reference p name =>
    rw [outcome_reference_snd ht, filter_undefined_reports]
    exact List.Perm.refl _
  | unary p op x ih =>
    have hx : x.isComplete := he
    rw [Expr.nodes, List.filterMap_append, List.nodup_append] at hpos
    have hperm := ih hx hpos.1
    have hreport : operandReport file (outcome file table x).2 (outcome file table x).1 x =
        reports file table x.unlessReference :=
      operandReport_eq hx fun q hq hundefined ↦ noted_outcome_iff ht hx hpos.1 hperm hq hundefined
    rw [outcome_unary_snd p op hx, hreport, List.filter_append, List.filter_append,
      filter_undefined_reports, filter_undefined_operatorFindings, List.append_nil,
      Expr.reportable, Expr.nodes_eq hx, reports_append]
    exact hperm.append_right _
  | binary p op l r ihl ihr =>
    obtain ⟨hl, hr⟩ := Bool.and_eq_true_iff.1 he
    rw [Expr.nodes, List.filterMap_append, List.filterMap_append, List.nodup_append,
      List.nodup_append] at hpos
    obtain ⟨⟨hposl, hposr, hdisjoint⟩, -, -⟩ := hpos
    have hperml := ihl hl hposl
    have hpermr := ihr hr hposr
    have hleft : operandReport file ((outcome file table l).2 ++ (outcome file table r).2)
        (outcome file table l).1 l = reports file table l.unlessReference := by
      refine operandReport_eq hl fun q hq hundefined ↦ ?_
      have hright : ¬ noted file (outcome file table r).2 q := fun hnoted ↦
        hdisjoint q (Expr.pos_mem_nodes hl hq) q
          ((r.reportable_sublist.filterMap _).subset (mem_pos_of_noted hpermr hnoted)) rfl
      rw [noted_append, or_iff_left hright]
      exact noted_outcome_iff ht hl hposl hperml hq hundefined
    have hright : operandReport file ((outcome file table r).2 ++ operandReport file
          ((outcome file table l).2 ++ (outcome file table r).2) (outcome file table l).1 l)
        (outcome file table r).1 r = reports file table r.unlessReference := by
      refine operandReport_eq hr fun q hq hundefined ↦ ?_
      rw [noted_append, or_iff_left fun hnoted ↦ hdisjoint q
        (Expr.pos_mem_nodes hl (pos_of_noted_operandReport hnoted)) q
        (Expr.pos_mem_nodes hr hq) rfl]
      exact noted_outcome_iff ht hr hposr hpermr hq hundefined
    rw [outcome_binary_snd p op hl hr, hright, hleft, Expr.reportable, reports_append,
      Expr.nodes_eq hl, Expr.nodes_eq hr, reports_append, reports_append]
    simp only [List.filter_append, filter_undefined_reports, filter_undefined_operatorFindings,
      List.append_nil]
    -- the report of the left operand moves in front of what was found on the right one
    refine (((hperml.append hpermr).append_right _).append_right _).trans ?_
    simp only [List.append_assoc]
    exact (List.perm_append_comm_assoc _ _ _).append_left _

end Typing

/-! ### All expressions of a form -/

namespace Form

variable {f : Form}

/-- No two nodes of the expressions of a form have the same position. -/
def PositionsDistinct (f : Form) : Prop :=
  (f.nodes.filterMap Expr.pos?).Nodup

instance : DecidablePred PositionsDistinct :=
  fun f ↦ inferInstanceAs (Decidable (f.nodes.filterMap Expr.pos?).Nodup)

/-- A form has, at a position, a reference to an undeclared name or an operand without a type. -/
def Unresolved (f : Form) (p : Position) (name : String) : Prop :=
  ∃ e ∈ f.exprs, e.Unresolved f.FirstDeclared p name

theorem OperandsPresent.of_mem_exprs (h : f.OperandsPresent) {e : Expr} (he : e ∈ f.exprs) :
    e.OperandsPresent := by
  obtain ⟨s, hs, hse⟩ := List.mem_filterMap.1 he
  exact Statement.operandsPresent_iff.1 (h s hs) e hse

theorem PositionsDistinct.of_mem_exprs (h : f.PositionsDistinct) {e : Expr} (he : e ∈ f.exprs) :
    (e.nodes.filterMap Expr.pos?).Nodup := by
  rw [PositionsDistinct, nodes, List.filterMap_flatMap] at h
  exact (List.nodup_flatMap.1 h).1 e he

/-- **Each reportable node of a form without a type is reported once.** -/
theorem filter_ownFindings_perm (hpresent : f.OperandsPresent)
    (htypes : ∀ q ∈ f.questions, q.type ∈ ValueType.declarable) (hpos : f.PositionsDistinct) :
    ((f.statementsAll.flatMap (Typing.ownFindings f.file f.resolveSymbols.1)).filter
      fun e ↦ e.kind = .undefinedReference).Perm
        (Typing.reports f.file f.resolveSymbols.1 (f.exprs.flatMap Expr.reportable)) := by
  rw [filter_flatMap_ownFindings (P := fun k ↦ k = .undefinedReference) rfl rfl,
    Typing.reports_flatMap]
  refine List.Perm.flatMap_left _ fun e he ↦ ?_
  rcases hpresent.of_mem_exprs he with rfl | hcomplete
  · exact List.Perm.refl _
  · exact Typing.filter_outcome_perm (typesDeclarable_resolveSymbols htypes) hcomplete
      (hpos.of_mem_exprs he)

/-- **Undefined references are reported once, and nothing is reported without cause.** In a form
whose operators are known and have their operands, with declarable types and with positions of their
own for all nodes of expressions, no two undefined references are reported at the same place; and
what is reported are the references to undeclared ids, by their names, and the other operands
without a type, by their texts. -/
theorem undefined_reported_once (hpresent : f.OperandsPresent)
    (hknown : ∀ e ∈ f.exprs, e.OperatorsKnown)
    (htypes : ∀ q ∈ f.questions, q.type ∈ ValueType.declarable) (hpos : f.PositionsDistinct) :
    ∃ findings, f.checkTypes f.resolveSymbols.1 = some findings ∧
      ((findings.filter fun e ↦ e.kind = .undefinedReference).map Finding.location).Nodup ∧
      ∀ e, e ∈ findings ∧ e.kind = .undefinedReference ↔
        ∃ p name, f.Unresolved p name ∧ e = .undefinedReference (.ofPosition f.file p) name := by
  have hperm := filter_ownFindings_perm hpresent htypes hpos
  refine ⟨_, checkTypes_eq _ hpresent, ?_, fun e ↦ ?_⟩
  · rw [(hperm.map Finding.location).nodup_iff, Typing.location_reports]
    refine List.Nodup.map (Location.ofPosition_injective f.file) (List.Nodup.sublist ?_ hpos)
    exact (List.filter_sublist.trans (Expr.flatMap_reportable_sublist f.exprs)).filterMap _
  · have hrules : ∀ x ∈ f.exprs, ∀ p name,
        (∃ n ∈ x.reportable, (Typing.outcome f.file f.resolveSymbols.1 n).1 = .undefined ∧
          n.pos? = some p ∧ name = n.text) ↔ x.Unresolved f.FirstDeclared p name := by
      intro x hx p name
      rcases hpresent.of_mem_exprs hx with rfl | hcomplete
      · refine iff_of_false ?_ Expr.not_unresolved_absent
        rintro ⟨n, hn, -⟩
        exact absurd hn List.not_mem_nil
      · exact Typing.exists_mem_reportable_iff hcomplete fun n hn ↦
          judges_outcome htypes (hn.isComplete hcomplete) (hn.operatorsKnown (hknown x hx))
    have hmem := (hperm.mem_iff (a := e)).trans Typing.mem_reports_iff
    rw [List.mem_filter, decide_eq_true_eq] at hmem
    refine hmem.trans ⟨?_, ?_⟩
    · rintro ⟨n, hn, hundefined, p, hp, rfl⟩
      obtain ⟨x, hx, hn⟩ := List.mem_flatMap.1 hn
      exact ⟨p, n.text, ⟨x, hx, (hrules x hx p n.text).1 ⟨n, hn, hundefined, hp, rfl⟩⟩, rfl⟩
    · rintro ⟨p, name, ⟨x, hx, hunresolved⟩, rfl⟩
      obtain ⟨n, hn, hundefined, hp, rfl⟩ := (hrules x hx p name).2 hunresolved
      exact ⟨n, List.mem_flatMap.2 ⟨x, hx, hn⟩, hundefined, p, hp, rfl⟩

/-- A sum of what is not declared and of the sign of a truth value, and a guard that is missing. -/
def roughQuote : Form where
  name := "quote"
  file := "quote.json"
  statements :=
    [.question { id := "sold", type := .boolean, pos := ⟨1, 1⟩ },
      .calculated { id := "total", type := .integer, pos := ⟨2, 1⟩ }
        (.binary ⟨2, 20⟩ .addition (.reference ⟨2, 14⟩ "price")
          (.unary ⟨2, 22⟩ .negative (.reference ⟨2, 23⟩ "sold"))),
      .condition ⟨3, 1⟩ .absent []]

/-- The undeclared operand is reported by itself, and the other one by the sum. -/
theorem undefined_reported_roughQuote :
    roughQuote.OperandsPresent ∧ (∀ e ∈ roughQuote.exprs, e.OperatorsKnown) ∧
      (∀ q ∈ roughQuote.questions, q.type ∈ ValueType.declarable) ∧
      roughQuote.PositionsDistinct ∧ roughQuote.Unresolved ⟨2, 22⟩ "-sold" ∧
      ∃ findings, roughQuote.checkTypes roughQuote.resolveSymbols.1 = some findings ∧
        (findings.filter fun e ↦ e.kind = .undefinedReference) =
          [.undefinedReference ⟨"quote.json", "", 2, 14⟩ "price",
            .undefinedReference ⟨"quote.json", "", 2, 22⟩ "-sold"] := by
  have hpresent : roughQuote.OperandsPresent := by decide
  have hknown : ∀ e ∈ roughQuote.exprs, e.OperatorsKnown := by decide
  have htypes : ∀ q ∈ roughQuote.questions, q.type ∈ ValueType.declarable := by decide
  have hpos : roughQuote.PositionsDistinct := by decide
  obtain ⟨findings, hcheck, -, hiff⟩ := undefined_reported_once hpresent hknown htypes hpos
  have hfindings : (roughQuote.checkTypes roughQuote.resolveSymbols.1).map
      (fun findings ↦ findings.filter fun e ↦ e.kind = .undefinedReference) =
        some [.undefinedReference ⟨"quote.json", "", 2, 14⟩ "price",
          .undefinedReference ⟨"quote.json", "", 2, 22⟩ "-sold"] := by decide
  rw [hcheck, Option.map_some, Option.some.injEq] at hfindings
  have hmem : .undefinedReference ⟨"quote.json", "", 2, 22⟩ "-sold" ∈
      findings.filter fun e ↦ e.kind = .undefinedReference := by
    rw [hfindings]
    exact List.mem_cons_of_mem _ List.mem_cons_self
  obtain ⟨p, name, hunresolved, heq⟩ := (hiff _).1 ⟨(List.mem_filter.1 hmem).1, rfl⟩
  obtain rfl : ⟨2, 22⟩ = p :=
    Location.ofPosition_injective "quote.json" (congrArg Finding.location heq)
  obtain rfl : "-sold" = name := congrArg Finding.name heq
  exact ⟨hpresent, hknown, htypes, hpos, hunresolved, findings, hcheck, hfindings⟩

end Form

end Questionnaire
