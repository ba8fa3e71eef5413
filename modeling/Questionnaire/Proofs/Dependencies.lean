import Questionnaire.Proofs.Graph.Links
import Questionnaire.Proofs.Places

/-!
# What depends on what

`Form.DependsOn` says when one question depends on another, by two rules over the places of a form:
a calculated question depends on what its expression mentions, and a question directly in the block
of a condition on what the guard mentions. `depends_iff_dependsOn` says that the dependent questions
of a form and what they depend on are exactly these.
-/

namespace Questionnaire

/-- An expression refers to a name somewhere. -/
inductive Expr.Mentions : Expr → String → Prop
  | reference {p : Position} {n : String} : Mentions (.reference p n) n
  | operand {p : Position} {op : UnaryOp} {x : Expr} {n : String} (h : Mentions x n) :
      Mentions (.unary p op x) n
  | left {p : Position} {op : BinaryOp} {l r : Expr} {n : String} (h : Mentions l n) :
      Mentions (.binary p op l r) n
  | right {p : Position} {op : BinaryOp} {l r : Expr} {n : String} (h : Mentions r n) :
      Mentions (.binary p op l r) n

theorem Expr.mentions_iff {e : Expr} {n : String} :
    e.Mentions n ↔ ∃ r ∈ e.references, r.2 = n := by
  constructor
  · intro h
    induction h with
    | reference => exact ⟨_, List.mem_singleton.2 rfl, rfl⟩
    | operand _ ih => exact ih
    | left _ ih =>
      obtain ⟨r, hr, hn⟩ := ih
      exact ⟨r, List.mem_append_left _ hr, hn⟩
    | right _ ih =>
      obtain ⟨r, hr, hn⟩ := ih
      exact ⟨r, List.mem_append_right _ hr, hn⟩
  · rintro ⟨r, hr, rfl⟩
    induction e with
    | absent => exact absurd hr List.not_mem_nil
    | literal => exact absurd hr List.not_mem_nil
    | reference p n =>
      rw [List.mem_singleton.1 hr]
      exact .reference
    | unary p op x ih => exact .operand (ih hr)
    | binary p op l r ihl ihr =>
      rcases List.mem_append.1 hr with hr | hr
      · exact .left (ihl hr)
      · exact .right (ihr hr)

/-- One question of a form depends on another. -/
inductive Form.DependsOn (f : Form) : String → String → Prop
  | calculated {path : List Nat} {q : Question} {value : Expr} {v : String}
      (place : Statement.At f.statements path (.calculated q value)) (mentions : value.Mentions v) :
      DependsOn f q.id v
  | guarded {path : List Nat} {p : Position} {guard : Expr} {body : List Statement}
      {s : Statement} {q : Question} {v : String}
      (place : Statement.At f.statements path (.condition p guard body)) (inside : s ∈ body)
      (asks : s.question? = some q) (mentions : guard.Mentions v) : DependsOn f q.id v

namespace Statement

/-- The questions that depend on something by a statement, without those of the statements below
it. -/
def ownDependents : Statement → List Dependent
  | question _ => []
  | calculated q value => [dependentOn value q]
  | condition _ guard body => (body.filterMap question?).map (dependentOn guard)

theorem dependentsAll_question (q : Question) (rest : List Statement) :
    dependentsAll (.question q :: rest) = dependentsAll rest := by
  rw [dependentsAll, dependents, List.nil_append]

theorem dependentsAll_calculated (q : Question) (value : Expr) (rest : List Statement) :
    dependentsAll (.calculated q value :: rest) =
      dependentOn value q :: dependentsAll rest := by
  rw [dependentsAll, dependents, List.singleton_append]

theorem dependentsAll_condition (p : Position) (guard : Expr) (body rest : List Statement) :
    dependentsAll (.condition p guard body :: rest) =
      (body.filterMap question?).map (dependentOn guard) ++
        (dependentsAll body ++ dependentsAll rest) := by
  rw [dependentsAll, dependents, List.append_assoc]

/-- The dependent questions of a list of statements, statement by statement. -/
theorem dependentsAll_eq_flatMap (l : List Statement) :
    dependentsAll l = (nestedAll l).flatMap ownDependents := by
  induction l using listInduction with
  | nil => rw [dependentsAll, nestedAll_nil, List.flatMap_nil]
  | question q rest ih =>
    rw [dependentsAll_question, nestedAll_question, List.flatMap_cons, ih]
    rfl
  | calculated q value rest ih =>
    rw [dependentsAll_calculated, nestedAll_calculated, List.flatMap_cons, ih]
    rfl
  | condition p guard body rest ihbody ihrest =>
    rw [dependentsAll_condition, nestedAll_condition, List.flatMap_cons, List.flatMap_append,
      ihbody, ihrest]
    rfl

theorem mem_targets_dependentOn {q : Question} {e : Expr} {v : String} :
    v ∈ (dependentOn e q).targets ↔ e.Mentions v := by
  rw [Expr.mentions_iff]
  exact List.mem_map

end Statement

namespace Form

variable {f : Form}

/-- The dependent questions of a form are calculated ones, and questions in blocks. -/
theorem mem_dependents_iff {d : Dependent} :
    d ∈ f.dependents ↔
      ∃ s, (∃ path, Statement.At f.statements path s) ∧ d ∈ s.ownDependents := by
  rw [dependents, Statement.dependentsAll_eq_flatMap, List.mem_flatMap]
  simp only [Statement.mem_nestedAll_iff]

/-- **The dependencies of a form** are what the two rules give. -/
theorem depends_iff_dependsOn {u v : String} : f.Depends u v ↔ f.DependsOn u v := by
  constructor
  · rintro ⟨d, hd, rfl, hv⟩
    obtain ⟨s, ⟨path, place⟩, hd⟩ := mem_dependents_iff.1 hd
    cases s with
    | question q => exact absurd hd List.not_mem_nil
    | calculated q value =>
      rw [List.mem_singleton.1 hd] at hv ⊢
      exact .calculated place (Statement.mem_targets_dependentOn.1 hv)
    | condition p guard body =>
      obtain ⟨q, hq, rfl⟩ := List.mem_map.1 hd
      obtain ⟨s, inside, asks⟩ := List.mem_filterMap.1 hq
      exact .guarded place inside asks (Statement.mem_targets_dependentOn.1 hv)
  · rintro (⟨place, mentions⟩ | ⟨place, inside, asks, mentions⟩)
    · exact ⟨_, mem_dependents_iff.2 ⟨_, ⟨_, place⟩, List.mem_singleton.2 rfl⟩, rfl,
        Statement.mem_targets_dependentOn.2 mentions⟩
    · refine ⟨_, mem_dependents_iff.2 ⟨_, ⟨_, place⟩, ?_⟩, rfl,
        Statement.mem_targets_dependentOn.2 mentions⟩
      exact List.mem_map_of_mem (List.mem_filterMap.2 ⟨_, inside, asks⟩)

end Form

end Questionnaire
