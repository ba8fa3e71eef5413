import Questionnaire.Proofs.Document.Decoded
import Questionnaire.Proofs.Json.Numerals

/-!
# The rules of the document format, node by node

A form document is a tree of statements and expressions. Each of these nodes has a rule of its own,
on its plain members (`DocNode.Obeys`), and the kind of a node says which of the documents it has
room for are nodes below it (`DocNode.children`): what stands in the other places is never looked
at. `DocNode.Breaks` says how a node breaks its rule, with the member at fault.
-/

namespace Questionnaire

/-! ### Words and symbols -/

/-- A word names a declarable type, in any case. -/
def ValueType.NamedBy (t : ValueType) (word : String) : Prop :=
  t ∈ declarable ∧ Text.lower word = t.keyword

theorem ValueType.ofKeyword?_eq_some_iff {word : String} {t : ValueType} :
    ofKeyword? word = some t ↔ t.NamedBy word := by
  constructor
  · intro h
    refine ⟨mem_declarable_of_ofKeyword? h, ?_⟩
    unfold ofKeyword? at h
    split at h <;> cases h <;> assumption
  · rintro ⟨ht, hword⟩
    rw [ofKeyword?, hword]
    clear hword
    revert t
    decide

theorem ValueType.ofKeyword?_eq_none_iff {word : String} :
    ofKeyword? word = none ↔ ∀ t : ValueType, ¬ t.NamedBy word := by
  rw [Option.eq_none_iff_forall_ne_some]
  exact forall_congr' fun t ↦ not_congr ofKeyword?_eq_some_iff

theorem ValueType.NamedBy.unique {word : String} {t u : ValueType} (ht : t.NamedBy word)
    (hu : u.NamedBy word) : t = u :=
  Option.some.inj ((ofKeyword?_eq_some_iff.2 ht).symm.trans (ofKeyword?_eq_some_iff.2 hu))

theorem UnaryOp.ofSymbol?_eq_none_iff {s : String} :
    ofSymbol? s = none ↔ ∀ op ∈ all, op.symbol ≠ s := by
  simp [ofSymbol?]

theorem BinaryOp.ofSymbol?_eq_none_iff {s : String} :
    ofSymbol? s = none ↔ ∀ op ∈ all, op.symbol ≠ s := by
  simp [ofSymbol?]

/-! ### Literal values -/

/-- A JSON value is one of a type. Null is one of every type. -/
def Json.IsOf : ValueType → Json → Prop
  | _, .null => True
  | .boolean, .bool _ => True
  | .integer, .number n => n.IsWord
  | .decimal, .number n => n.toBinary64.isFinite
  | .string, .string _ => True
  | _, _ => False

theorem ExprDoc.makeLiteral_eq_error {α : Type} {t : ValueType} {wanted : String}
    {make : α → Literal} {read : Except Json.Mismatch α} {fault : DecodeFault}
    (h : makeLiteral t wanted make read = .error fault) : ∃ m, fault = .invalidLiteral t m := by
  cases read with
  | ok a => cases h
  | error m => exact ⟨_, (Except.error.inj h).symm⟩

theorem ExprDoc.literalOf_eq_error {t : ValueType} {j : Json} {fault : DecodeFault}
    (h : literalOf t j = .error fault) : ∃ m, fault = .invalidLiteral t m := by
  unfold literalOf at h
  split at h <;> exact makeLiteral_eq_error h

/-- **A literal is read** from the values of its type, and from no others. -/
theorem ExprDoc.exists_literalOf_iff {t : ValueType} (ht : t ∈ ValueType.declarable) {j : Json} :
    (∃ v, literalOf t j = .ok v) ↔ j.IsOf t := by
  cases t with
  | undefined | unknown => exact absurd ht (by simp [ValueType.declarable])
  | boolean => cases j <;> simp [literalOf, Json.readBool, Json.IsOf]
  | integer =>
    cases j with
    | number n =>
      rw [Json.IsOf, Json.Numeral.isWord_iff, literalOf, Json.readInt64]
      cases n.toInt64? <;> simp
    | _ => simp [literalOf, Json.readInt64, Json.IsOf]
  | decimal =>
    cases j with
    | number n =>
      rw [Json.IsOf, literalOf, Json.readBinary64]
      split <;> simp_all
    | _ => simp [literalOf, Json.readBinary64, Json.IsOf]
  | string => cases j <;> simp [literalOf, Json.readText, Json.IsOf]

/-! ### Nodes -/

/-- A node of a form document. -/
inductive DocNode where
  | statement (d : StatementDoc)
  | expr (d : ExprDoc)

/-- A step to a node, from the form or from the node above it. -/
inductive NodeStep where
  | statement (index : Nat)
  | expression
  | guard
  | body (index : Nat)
  | operand
  | left
  | right
  deriving DecidableEq

namespace NodeStep

/-- The text of a step in a path. -/
def text : NodeStep → String
  | statement i => s!"[{i}]"
  | expression => ".expression"
  | guard => ".guard"
  | body i => ".body" ++ s!"[{i}]"
  | operand => ".operand"
  | left => ".left"
  | right => ".right"

/-- One of two steps from the same node comes before the other: items by index, a guard before the
body, the left operand before the right one. -/
inductive Before : NodeStep → NodeStep → Prop
  | statement {i j : Nat} (h : i < j) : Before (statement i) (statement j)
  | guard {j : Nat} : Before guard (body j)
  | body {i j : Nat} (h : i < j) : Before (body i) (body j)
  | left : Before left right

end NodeStep

namespace DocNode

/-- Statements as nodes, the first of them by the step with the given index. -/
def numbered (step : Nat → NodeStep) (index : Nat) (docs : List StatementDoc) :
    List (NodeStep × DocNode) :=
  (docs.zipIdx index).map fun (d, i) ↦ (step i, statement d)

/-- The nodes that the kind of a node calls for below it, in document order. -/
def children : DocNode → List (NodeStep × DocNode)
  | statement (.mk h e g body _) =>
    match h.kind with
    | "calculated" => [(.expression, expr e)]
    | "condition" => (.guard, expr g) :: numbered .body 0 body
    | _ => []
  | expr .absent => []
  | expr (.node h x l r) =>
    match h.kind with
    | "unary" => [(.operand, expr x)]
    | "binary" => [(.left, expr l), (.right, expr r)]
    | _ => []

section Children

variable {hs : StatementHead} {e g : ExprDoc} {body spare : List StatementDoc} {he : ExprHead}
  {x l r : ExprDoc}

theorem numbered_cons (step : Nat → NodeStep) (index : Nat) (d : StatementDoc)
    (rest : List StatementDoc) :
    numbered step index (d :: rest) =
      [(step index, statement d)] ++ numbered step (index + 1) rest := by
  rw [numbered, List.zipIdx_cons, List.map_cons]
  rfl

theorem exists_of_mem_numbered {step : Nat → NodeStep} {index : Nat} {docs : List StatementDoc}
    {p : NodeStep × DocNode} (h : p ∈ numbered step index docs) :
    ∃ i, index ≤ i ∧ p.1 = step i := by
  obtain ⟨⟨d, i⟩, hmem, rfl⟩ := List.mem_map.1 h
  exact ⟨i, (List.mem_zipIdx hmem).1, rfl⟩

theorem children_question (kind : hs.kind = "question") :
    (statement (.mk hs e g body spare)).children = [] := by
  simp [children, kind]

theorem children_calculated (kind : hs.kind = "calculated") :
    (statement (.mk hs e g body spare)).children = [(.expression, expr e)] := by
  simp [children, kind]

theorem children_condition (kind : hs.kind = "condition") :
    (statement (.mk hs e g body spare)).children =
      [(.guard, expr g)] ++ numbered .body 0 body := by
  simp [children, kind]

theorem children_literal (kind : he.kind = "literal") :
    (expr (.node he x l r)).children = [] := by
  simp [children, kind]

theorem children_reference (kind : he.kind = "reference") :
    (expr (.node he x l r)).children = [] := by
  simp [children, kind]

theorem children_unary (kind : he.kind = "unary") :
    (expr (.node he x l r)).children = [(.operand, expr x)] := by
  simp [children, kind]

theorem children_binary (kind : he.kind = "binary") :
    (expr (.node he x l r)).children = [(.left, expr l)] ++ [(.right, expr r)] := by
  simp [children, kind]

end Children

/-- A node obeys the rule for its kind. -/
inductive Obeys : DocNode → Prop
  | declaration {h : StatementHead} {e g : ExprDoc} {body spare : List StatementDoc} {t : ValueType}
      (kind : h.kind ∈ ["question", "calculated"]) (id : h.id ≠ "") (type : t.NamedBy h.type) :
      Obeys (statement (.mk h e g body spare))
  | condition {h : StatementHead} {e g : ExprDoc} {body spare : List StatementDoc}
      (kind : h.kind = "condition") : Obeys (statement (.mk h e g body spare))
  | literal {h : ExprHead} {x l r : ExprDoc} {t : ValueType} {j : Json} (kind : h.kind = "literal")
      (value : h.value = some j) (type : t.NamedBy h.type) (isOf : j.IsOf t) :
      Obeys (expr (.node h x l r))
  | reference {h : ExprHead} {x l r : ExprDoc} (kind : h.kind = "reference") (name : h.name ≠ "") :
      Obeys (expr (.node h x l r))
  | unary {h : ExprHead} {x l r : ExprDoc} {op : UnaryOp} (kind : h.kind = "unary")
      (operator : op ∈ UnaryOp.all ∧ op.symbol = h.operator) : Obeys (expr (.node h x l r))
  | binary {h : ExprHead} {x l r : ExprDoc} {op : BinaryOp} (kind : h.kind = "binary")
      (operator : op ∈ BinaryOp.all ∧ op.symbol = h.operator) : Obeys (expr (.node h x l r))

/-- A node breaks its rule: what the path to the node is followed by, and what is wrong there. Where
a rule asks for several things, the first that fails counts. -/
inductive Breaks : DocNode → String → DecodeFault → Prop
  | kind {h : StatementHead} {e g : ExprDoc} {body spare : List StatementDoc}
      (kind : h.kind ∉ ["question", "calculated", "condition"]) :
      Breaks (statement (.mk h e g body spare)) ".kind" (.unknownStatementKind h.kind)
  | id {h : StatementHead} {e g : ExprDoc} {body spare : List StatementDoc}
      (kind : h.kind ∈ ["question", "calculated"]) (id : h.id = "") :
      Breaks (statement (.mk h e g body spare)) "" .missingId
  | type {h : StatementHead} {e g : ExprDoc} {body spare : List StatementDoc}
      (kind : h.kind ∈ ["question", "calculated"]) (id : h.id ≠ "")
      (type : ∀ t : ValueType, ¬ t.NamedBy h.type) :
      Breaks (statement (.mk h e g body spare)) ".type" (.unknownType h.type)
  | absent : Breaks (expr .absent) "" .missingExpression
  | exprKind {h : ExprHead} {x l r : ExprDoc}
      (kind : h.kind ∉ ["literal", "reference", "unary", "binary"]) :
      Breaks (expr (.node h x l r)) ".kind" (.unknownExprKind h.kind)
  | value {h : ExprHead} {x l r : ExprDoc} (kind : h.kind = "literal") (value : h.value = none) :
      Breaks (expr (.node h x l r)) ".value" .missingValue
  | literalType {h : ExprHead} {x l r : ExprDoc} {j : Json} (kind : h.kind = "literal")
      (value : h.value = some j) (type : ∀ t : ValueType, ¬ t.NamedBy h.type) :
      Breaks (expr (.node h x l r)) ".type" (.unknownType h.type)
  | literalValue {h : ExprHead} {x l r : ExprDoc} {j : Json} {t : ValueType} {m : Json.Mismatch}
      (kind : h.kind = "literal") (value : h.value = some j) (type : t.NamedBy h.type)
      (isOf : ¬ j.IsOf t) : Breaks (expr (.node h x l r)) ".value" (.invalidLiteral t m)
  | name {h : ExprHead} {x l r : ExprDoc} (kind : h.kind = "reference") (name : h.name = "") :
      Breaks (expr (.node h x l r)) ".name" .missingName
  | unaryOperator {h : ExprHead} {x l r : ExprDoc} (kind : h.kind = "unary")
      (operator : ∀ op ∈ UnaryOp.all, op.symbol ≠ h.operator) :
      Breaks (expr (.node h x l r)) ".operator" (.unknownUnaryOp h.operator)
  | binaryOperator {h : ExprHead} {x l r : ExprDoc} (kind : h.kind = "binary")
      (operator : ∀ op ∈ BinaryOp.all, op.symbol ≠ h.operator) :
      Breaks (expr (.node h x l r)) ".operator" (.unknownBinaryOp h.operator)

/-- A node that breaks its rule does not obey it. -/
theorem Breaks.not_obeys {n : DocNode} {member : String} {fault : DecodeFault}
    (h : n.Breaks member fault) : ¬ n.Obeys := by
  intro hobeys
  cases h <;> cases hobeys <;> grind [ValueType.NamedBy.unique]

end DocNode

end Questionnaire
