import Questionnaire.Check
import Questionnaire.Proofs.Document.Decoding
import Questionnaire.Proofs.Typing.Operands
import Questionnaire.Proofs.WellFormed

/-!
# Decoded forms

A document may leave out any part of a form, give null for it or give it several times. Decoding
fails where a part is missing in the end, so a form that it gives is **whole** (`Form.Whole`): at
every place, expressions are there with all their parts, operators and declared types are known
ones, and ids and references are not empty (`Form.whole_of_decode`).

The type check breaks down on missing operands only, so it does not on such forms.
`Form.decoded_has_verdict` puts the two together: what is decoded has a verdict, and the check of
its document goes through all its stages.
-/

namespace Questionnaire

/-! ### Whole forms -/

/-- An expression of which no part is missing. Its operators are known, its references named. -/
inductive Expr.Whole : Expr → Prop
  | literal {p : Position} {v : Literal} : Whole (.literal p v)
  | reference {p : Position} {name : String} (named : name ≠ "") : Whole (.reference p name)
  | unary {p : Position} {op : UnaryOp} {x : Expr} (known : op ∈ UnaryOp.all) (operand : Whole x) :
      Whole (.unary p op x)
  | binary {p : Position} {op : BinaryOp} {l r : Expr} (known : op ∈ BinaryOp.all)
      (left : Whole l) (right : Whole r) : Whole (.binary p op l r)

/-- A declaration with an id and a type that can be declared. -/
structure Question.Whole (q : Question) : Prop where
  named : q.id ≠ ""
  typed : q.type ∈ ValueType.declarable

/-- A statement that is whole itself, whatever its block holds. -/
inductive Statement.Whole : Statement → Prop
  | question {q : Question} (declares : q.Whole) : Whole (.question q)
  | calculated {q : Question} {value : Expr} (declares : q.Whole) (expression : value.Whole) :
      Whole (.calculated q value)
  | condition {p : Position} {guard : Expr} {body : List Statement} (expression : guard.Whole) :
      Whole (.condition p guard body)

/-- A form whose statements are whole, at every place. -/
def Form.Whole (f : Form) : Prop :=
  ∀ path s, Statement.At f.statements path s → s.Whole

theorem Expr.Whole.isComplete {e : Expr} (h : e.Whole) : e.isComplete := by
  induction h with
  | literal => rfl
  | reference => rfl
  | unary _ _ ih => exact ih
  | binary _ _ _ ihl ihr => exact Bool.and_eq_true_iff.2 ⟨ihl, ihr⟩

theorem Expr.Whole.operatorsKnown {e : Expr} (h : e.Whole) : e.OperatorsKnown := by
  induction h with
  | literal => trivial
  | reference => trivial
  | unary known _ ih => exact ⟨known, ih⟩
  | binary known _ _ ihl ihr => exact ⟨known, ihl, ihr⟩

theorem Form.Whole.proper {f : Form} (h : f.Whole) : f.Proper := by
  intro s hs
  obtain ⟨path, place⟩ := Statement.mem_nestedAll_iff.1 hs
  cases h path s place with
  | question declares => exact declares.typed
  | calculated declares expression =>
    exact ⟨declares.typed, expression.isComplete, expression.operatorsKnown⟩
  | condition expression => exact ⟨expression.isComplete, expression.operatorsKnown⟩

/-! ### Words and symbols -/

theorem ValueType.mem_declarable_of_ofKeyword? {s : String} {t : ValueType}
    (h : ofKeyword? s = some t) : t ∈ declarable := by
  unfold ofKeyword? at h
  split at h <;> cases h <;> decide

theorem UnaryOp.ofSymbol?_eq_some {s : String} {op : UnaryOp} (h : ofSymbol? s = some op) :
    op ∈ all ∧ op.symbol = s :=
  ⟨List.mem_of_find?_eq_some h, by simpa using List.find?_some h⟩

theorem BinaryOp.ofSymbol?_eq_some {s : String} {op : BinaryOp} (h : ofSymbol? s = some op) :
    op ∈ all ∧ op.symbol = s :=
  ⟨List.mem_of_find?_eq_some h, by simpa using List.find?_some h⟩

/-! ### What is decoded is whole -/

theorem ExprDoc.Decodes.whole {d : ExprDoc} {e : Expr} (h : d.Decodes e) : e.Whole := by
  induction h with
  | literal => exact .literal
  | reference _ name => exact .reference name
  | unary _ operator _ ih => exact .unary (UnaryOp.ofSymbol?_eq_some operator).1 ih
  | binary _ operator _ _ ihl ihr => exact .binary (BinaryOp.ofSymbol?_eq_some operator).1 ihl ihr

theorem StatementHead.Declares.whole {h : StatementHead} {q : Question} (hd : h.Declares q) :
    q.Whole where
  named := hd.id.2 ▸ hd.id.1
  typed := ValueType.mem_declarable_of_ofKeyword? hd.type

/-- Statements that are decoded are whole, and so are those in their blocks. -/
theorem StatementDoc.whole_of_decodes {docs : List StatementDoc} :
    ∀ {l}, List.Forall₂ Decodes docs l → ∀ s ∈ Statement.nestedAll l, s.Whole := by
  induction docs using StatementDoc.listInduction with
  | nil =>
    rintro l ⟨⟩ s hs
    exact absurd hs (by simp)
  | cons hd e g body spare rest ihbody ihrest =>
    rintro l (_ | ⟨head, tail⟩) s hs
    have hrest := ihrest tail s
    cases head with
    | question _ declares =>
      rw [Statement.nestedAll_question, List.mem_cons] at hs
      rcases hs with rfl | hs
      · exact .question declares.whole
      · exact hrest hs
    | calculated _ declares decodes =>
      rw [Statement.nestedAll_calculated, List.mem_cons] at hs
      rcases hs with rfl | hs
      · exact .calculated declares.whole decodes.whole
      · exact hrest hs
    | condition _ decodesGuard decodesBody =>
      rw [Statement.nestedAll_condition, List.mem_cons, List.mem_append] at hs
      rcases hs with rfl | hs | hs
      · exact .condition decodesGuard.whole
      · exact ihbody decodesBody s hs
      · exact hrest hs

namespace Form

variable {f : Form}

/-- **A decoded form is whole.** -/
theorem whole_of_decode {text : List Char} (h : Form.decode text = .ok f) : f.Whole := by
  obtain ⟨j, d, -, -, -, -, hall⟩ := Form.decode_eq_ok_iff.1 h
  intro path s place
  exact StatementDoc.whole_of_decodes hall s (Statement.mem_nestedAll_iff.2 ⟨path, place⟩)

/-! ### The analysis of whole forms -/

/-- A form that lacks no operand has a verdict, whichever phase gives it. -/
theorem exists_check_of_operandsPresent (h : f.OperandsPresent) : ∃ v, f.check = some v := by
  by_cases hids : f.ids.Nodup
  · by_cases hacyclic : f.DependenciesAcyclic
    · exact ⟨_, check_of_acyclic hids hacyclic h⟩
    · exact ⟨_, (check_of_cyclic hids hacyclic).1⟩
  · exact ⟨_, (check_of_repeated hids).1⟩

end Form

namespace Disk

variable {passes : List LintPass} {o : CheckOptions} {f : Form} {c : Checked}

/-- Each selected pass leaves a step behind. -/
theorem trail_lint (symbols : SymbolTable) :
    (lint passes o f symbols c).trail = c.trail ++
      (passes.filter fun p ↦ o.selects p.name).map
        fun p ↦ .linted p.name (p.run f symbols).length := by
  unfold lint
  induction passes.filter fun p ↦ o.selects p.name generalizing c with
  | nil => simp
  | cons p rest ih => rw [List.foldl_cons, ih, List.map_cons, List.append_assoc]; rfl

/-- A form with a verdict is noted as analysed, and one without errors goes through the passes. -/
theorem trail_analyse {v : Verdict} (h : f.check = some v) :
    (analyse passes o f c).trail = c.trail ++ .analysed v.phase v.errors.length ::
      if !v.errors.isEmpty || o.noWarnings then [] else
        (passes.filter fun p ↦ o.selects p.name).map
          fun p ↦ .linted p.name (p.run f v.symbols).length := by
  unfold analyse
  rw [h]
  dsimp only
  split
  · rfl
  · rw [trail_lint, List.append_assoc]
    rfl

end Disk

/-- **What is decoded has a verdict.** The type check has no result exactly when an operator lacks
an operand, in an expression at some place of the form. A form that a text is decoded to is whole,
so it has a verdict, and after it the check of the document runs the lint passes to their end. -/
theorem Form.decoded_has_verdict :
    (∀ (f : Form) (table : SymbolTable), f.checkTypes table = none ↔
      ∃ path s e n, Statement.At f.statements path s ∧ s.expr? = some e ∧ Expr.Occurs n e ∧
        n.LacksOperand) ∧
    ∀ (text : List Char) (f : Form), Form.decode text = .ok f →
      f.Whole ∧ ∃ v, f.check = some v ∧ ∀ passes o c,
        (Disk.analyse passes o f c).trail = c.trail ++ .analysed v.phase v.errors.length ::
          if !v.errors.isEmpty || o.noWarnings then [] else
            (passes.filter fun p ↦ o.selects p.name).map
              fun p ↦ .linted p.name (p.run f v.symbols).length := by
  refine ⟨fun f table ↦ checkTypes_eq_none_iff, fun text f hdecode ↦ ?_⟩
  have hwhole := whole_of_decode hdecode
  obtain ⟨v, hv⟩ := exists_check_of_operandsPresent hwhole.proper.operandsPresent
  exact ⟨hwhole, v, hv, fun passes o c ↦ Disk.trail_analyse hv⟩

-- a text is read one call deeper for each of its characters
set_option maxRecDepth 2000

/-- A condition whose guard is given twice: an operator without its symbol and operand, and then the
two of them. -/
def guardInTwo : String :=
  "\x7b\"statements\":[\x7b\"kind\":\"condition\",
   \"guard\":\x7b\"kind\":\"unary\",\"operand\":null\x7d,
   \"Guard\":\x7b\"operator\":\"!\",
   \"operand\":\x7b\"kind\":\"reference\",\"name\":\"a\"\x7d\x7d\x7d]\x7d"

theorem Form.decoded_guardInTwo :
    ∃ f, Form.decode guardInTwo.toList = .ok f ∧ f.Whole ∧ ∃ v, f.check = some v := by
  have hdecode : Form.decode guardInTwo.toList = .ok
      { statements := [.condition {} (.unary {} .not (.reference {} "a")) []] } := by
    rw [guardInTwo, String.toList_ofList]
    rfl
  obtain ⟨hwhole, v, hv, -⟩ := decoded_has_verdict.2 _ _ hdecode
  exact ⟨_, hdecode, hwhole, v, hv⟩

end Questionnaire
