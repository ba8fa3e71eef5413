import Mathlib.Data.List.Forall2
import Questionnaire.Proofs.Json.Members
import Questionnaire.Proofs.Json.Numerals
import Questionnaire.Proofs.Places

/-!
# Forms described by documents

`Form.DescribedBy` says what form a document describes when the last members with exactly the names
of the format count: kinds, positions, ids, types, labels, operators, names, values and children,
node by node. It says nothing of how documents are read. A document describes at most one form
(`Form.DescribedBy.unique`), since the positions, operators and types of a form can be told from
what is written for them.
-/

namespace Questionnaire

open Json (member?)

/-! ### The description -/

/-- The position in the members of an object. -/
structure Position.DescribedBy (members : List (String × Json)) (p : Position) : Prop where
  line : ∃ n, member? "line" members = some (.number n) ∧ n.value = p.line.toInt
  column : ∃ n, member? "column" members = some (.number n) ∧ n.value = p.column.toInt

/-- The literal of a type that a value gives. -/
inductive Literal.DescribedBy : ValueType → Json → Literal → Prop
  | boolean {b : Bool} : DescribedBy .boolean (.bool b) (.boolean b)
  | integer {n : Json.Numeral} {i : Int64} (h : n.value = i.toInt) :
      DescribedBy .integer (.number n) (.integer i)
  | decimal {n : Json.Numeral} (h : n.toBinary64.isFinite) :
      DescribedBy .decimal (.number n) (.decimal n.toBinary64)
  | string {s : String} : DescribedBy .string (.string s) (.string s)

/-- The expression that a value describes. -/
inductive Expr.DescribedBy : Json → Expr → Prop
  | literal {members : List (String × Json)} {p : Position} {t : ValueType} {j : Json} {v : Literal}
      (kind : member? "kind" members = some (.string "literal")) (pos : p.DescribedBy members)
      (type : member? "type" members = some (.string t.keyword))
      (value : member? "value" members = some j) (describes : v.DescribedBy t j) :
      DescribedBy (.object members) (.literal p v)
  | reference {members : List (String × Json)} {p : Position} {name : String}
      (kind : member? "kind" members = some (.string "reference")) (pos : p.DescribedBy members)
      (hname : member? "name" members = some (.string name)) :
      DescribedBy (.object members) (.reference p name)
  | unary {members : List (String × Json)} {p : Position} {op : UnaryOp} {j : Json} {x : Expr}
      (kind : member? "kind" members = some (.string "unary")) (pos : p.DescribedBy members)
      (operator : member? "operator" members = some (.string op.symbol))
      (known : op ∈ UnaryOp.all) (operand : member? "operand" members = some j)
      (describes : DescribedBy j x) : DescribedBy (.object members) (.unary p op x)
  | binary {members : List (String × Json)} {p : Position} {op : BinaryOp} {j k : Json} {l r : Expr}
      (kind : member? "kind" members = some (.string "binary")) (pos : p.DescribedBy members)
      (operator : member? "operator" members = some (.string op.symbol))
      (known : op ∈ BinaryOp.all) (left : member? "left" members = some j)
      (describesLeft : DescribedBy j l) (right : member? "right" members = some k)
      (describesRight : DescribedBy k r) : DescribedBy (.object members) (.binary p op l r)

/-- The question that the members of an object declare. -/
structure Question.DescribedBy (members : List (String × Json)) (q : Question) : Prop where
  pos : q.pos.DescribedBy members
  id : member? "id" members = some (.string q.id)
  type : q.type ∈ ValueType.declarable ∧ member? "type" members = some (.string q.type.keyword)
  label : member? "label" members = some (.string q.label)

/-- The statement that a value describes. -/
inductive Statement.DescribedBy : Json → Statement → Prop
  | question {members : List (String × Json)} {q : Question}
      (kind : member? "kind" members = some (.string "question"))
      (declares : q.DescribedBy members) : DescribedBy (.object members) (.question q)
  | calculated {members : List (String × Json)} {q : Question} {j : Json} {value : Expr}
      (kind : member? "kind" members = some (.string "calculated"))
      (declares : q.DescribedBy members) (expression : member? "expression" members = some j)
      (describes : value.DescribedBy j) : DescribedBy (.object members) (.calculated q value)
  | condition {members : List (String × Json)} {p : Position} {j : Json} {g : Expr}
      {items : List Json} {statements : List Statement}
      (kind : member? "kind" members = some (.string "condition")) (pos : p.DescribedBy members)
      (guard : member? "guard" members = some j) (describes : g.DescribedBy j)
      (body : member? "body" members = some (.array items))
      (describesBody : List.Forall₂ DescribedBy items statements) :
      DescribedBy (.object members) (.condition p g statements)

/-- A text in the members of an object that may be left out, and is then empty. -/
def TextGiven (name : String) (members : List (String × Json)) (s : String) : Prop :=
  member? name members = some (.string s) ∨ member? name members = none ∧ s = ""

/-- The form that a document describes. -/
inductive Form.DescribedBy : Json → Form → Prop
  | mk {members : List (String × Json)} {items : List Json} {f : Form}
      (name : TextGiven "name" members f.name) (file : TextGiven "file" members f.file)
      (statements : member? "statements" members = some (.array items))
      (describes : List.Forall₂ Statement.DescribedBy items f.statements) :
      DescribedBy (.object members) f

/-! ### Words and symbols -/

theorem UnaryOp.symbol_injective : ∀ op ∈ all, ∀ op' ∈ all, op.symbol = op'.symbol → op = op' := by
  decide

theorem BinaryOp.symbol_injective : ∀ op ∈ all, ∀ op' ∈ all, op.symbol = op'.symbol → op = op' := by
  decide

theorem ValueType.keyword_injective :
    ∀ t ∈ declarable, ∀ t' ∈ declarable, t.keyword = t'.keyword → t = t' := by
  decide

/-! ### One form at most -/

variable {members : List (String × Json)}

/-- The word of 64 bits under a name is told by the value of the number there. -/
theorem word_unique {name : String} {i i' : Int64}
    (h : ∃ n, member? name members = some (.number n) ∧ n.value = i.toInt)
    (h' : ∃ n, member? name members = some (.number n) ∧ n.value = i'.toInt) : i = i' := by
  obtain ⟨n, hn, hi⟩ := h
  obtain ⟨n', hn', hi'⟩ := h'
  obtain rfl : n = n' := Json.number.inj (Option.some.inj (hn.symm.trans hn'))
  have hvalues : (i.toInt : ℚ) = i'.toInt := hi.symm.trans hi'
  exact Int64.toInt_inj.1 (Int.cast_injective hvalues)

theorem Position.DescribedBy.unique {p p' : Position} (h : p.DescribedBy members)
    (h' : p'.DescribedBy members) : p = p' := by
  obtain ⟨line, column⟩ := p
  obtain ⟨line', column'⟩ := p'
  obtain rfl : line = line' := word_unique h.line h'.line
  obtain rfl : column = column' := word_unique h.column h'.column
  rfl

theorem Literal.DescribedBy.mem_declarable {t : ValueType} {j : Json} {v : Literal}
    (h : v.DescribedBy t j) : t ∈ ValueType.declarable := by
  cases h <;> decide

theorem Literal.DescribedBy.unique {t : ValueType} {j : Json} {v v' : Literal}
    (h : v.DescribedBy t j) (h' : v'.DescribedBy t j) : v = v' := by
  cases h with
  | boolean => cases h'; rfl
  | @integer n i h =>
    cases h' with
    | @integer _ i' h' =>
      have hvalues : (i.toInt : ℚ) = i'.toInt := h.symm.trans h'
      rw [Int64.toInt_inj.1 (Int.cast_injective hvalues)]
  | decimal => cases h'; rfl
  | string => cases h'; rfl

theorem Expr.DescribedBy.unique {j : Json} {e : Expr} (h : e.DescribedBy j) :
    ∀ {e'}, e'.DescribedBy j → e = e' := by
  induction h with
  | literal kind pos type value describes =>
    intro e' h'
    cases h' with
    | literal _ pos' type' value' describes' =>
      have hkeyword := Json.string.inj (Option.some.inj (type.symm.trans type'))
      obtain rfl := ValueType.keyword_injective _ describes.mem_declarable _
        describes'.mem_declarable hkeyword
      obtain rfl := Option.some.inj (value.symm.trans value')
      rw [pos.unique pos', describes.unique describes']
    | _ => simp_all
  | reference kind pos hname =>
    intro e' h'
    cases h' with
    | reference _ pos' hname' =>
      obtain rfl := Json.string.inj (Option.some.inj (hname.symm.trans hname'))
      rw [pos.unique pos']
    | _ => simp_all
  | unary kind pos operator known operand _ ih =>
    intro e' h'
    cases h' with
    | unary _ pos' operator' known' operand' describes' =>
      have hsymbol := Json.string.inj (Option.some.inj (operator.symm.trans operator'))
      obtain rfl := Option.some.inj (operand.symm.trans operand')
      rw [pos.unique pos', UnaryOp.symbol_injective _ known _ known' hsymbol, ih describes']
    | _ => simp_all
  | binary kind pos operator known left _ right _ ihl ihr =>
    intro e' h'
    cases h' with
    | binary _ pos' operator' known' left' describesLeft' right' describesRight' =>
      have hsymbol := Json.string.inj (Option.some.inj (operator.symm.trans operator'))
      obtain rfl := Option.some.inj (left.symm.trans left')
      obtain rfl := Option.some.inj (right.symm.trans right')
      rw [pos.unique pos', BinaryOp.symbol_injective _ known _ known' hsymbol, ihl describesLeft',
        ihr describesRight']
    | _ => simp_all

theorem Question.DescribedBy.unique {q q' : Question} (h : q.DescribedBy members)
    (h' : q'.DescribedBy members) : q = q' := by
  obtain ⟨pos, id, type, label⟩ := q
  obtain ⟨pos', id', type', label'⟩ := q'
  obtain rfl : pos = pos' := h.pos.unique h'.pos
  obtain rfl : id = id' := Json.string.inj (Option.some.inj (h.id.symm.trans h'.id))
  obtain rfl : type = type' := ValueType.keyword_injective _ h.type.1 _ h'.type.1
    (Json.string.inj (Option.some.inj (h.type.2.symm.trans h'.type.2)))
  obtain rfl : label = label' := Json.string.inj (Option.some.inj (h.label.symm.trans h'.label))
  rfl

/-- Values describe at most one list of statements. -/
theorem Statement.describedBy_unique {l : List Statement} : ∀ {items l'},
    List.Forall₂ Statement.DescribedBy items l → List.Forall₂ Statement.DescribedBy items l' →
      l = l' := by
  induction l using Statement.listInduction with
  | nil =>
    rintro items l' ⟨⟩ ⟨⟩
    rfl
  | question q rest ih =>
    rintro items l' (_ | ⟨head, tail⟩) (_ | ⟨head', tail'⟩)
    rcases head with ⟨kind, declares⟩
    cases head' with
    | question _ declares' => rw [declares.unique declares', ih tail tail']
    | _ => simp_all
  | calculated q value rest ih =>
    rintro items l' (_ | ⟨head, tail⟩) (_ | ⟨head', tail'⟩)
    cases head with
    | calculated kind declares expression describes =>
      cases head' with
      | calculated _ declares' expression' describes' =>
        obtain rfl := Option.some.inj (expression.symm.trans expression')
        rw [declares.unique declares', describes.unique describes', ih tail tail']
      | _ => simp_all
  | condition p guard body rest ihbody ihrest =>
    rintro items l' (_ | ⟨head, tail⟩) (_ | ⟨head', tail'⟩)
    cases head with
    | condition kind pos guard describes body describesBody =>
      cases head' with
      | condition _ pos' guard' describes' body' describesBody' =>
        obtain rfl := Option.some.inj (guard.symm.trans guard')
        obtain rfl := Json.array.inj (Option.some.inj (body.symm.trans body'))
        rw [pos.unique pos', describes.unique describes', ihbody describesBody describesBody',
          ihrest tail tail']
      | _ => simp_all

theorem TextGiven.unique {name s s' : String} (h : TextGiven name members s)
    (h' : TextGiven name members s') : s = s' := by
  rcases h with h | ⟨h, rfl⟩ <;> rcases h' with h' | ⟨h', rfl⟩ <;> simp_all

/-- **A document describes at most one form.** -/
theorem Form.DescribedBy.unique {doc : Json} {f f' : Form} (h : f.DescribedBy doc)
    (h' : f'.DescribedBy doc) : f = f' := by
  obtain ⟨name, file, statements, describes⟩ := h
  obtain ⟨name', file', statements', describes'⟩ := h'
  obtain rfl := Json.array.inj (Option.some.inj (statements.symm.trans statements'))
  cases f
  cases f'
  simp only [Form.mk.injEq]
  exact ⟨name.unique name', file.unique file', Statement.describedBy_unique describes describes'⟩

end Questionnaire
