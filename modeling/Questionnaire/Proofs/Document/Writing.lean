import Questionnaire.Proofs.Document.Decoded
import Questionnaire.Proofs.Json.Texts
import Questionnaire.Proofs.Number.Exact

/-!
# Forms written as documents

`Form.WrittenAs` says how a form is written as a document: a kind, a line, a column and the members
of the kind for each statement and expression, in any order of the members; keywords for types,
symbols for operators, and values for literals, where a decimal may be spelled in any way that reads
back. A name or a file that is empty may be left out.

Whatever is written has a text (`Form.WrittenAs.textOf_compactChars`), and a form can be written
when no part of it is missing and its decimals are finite (`Form.exists_writtenAs`).
-/

namespace Questionnaire

/-! ### Documents of forms -/

/-- The members that every statement and every expression has. -/
def headMembers (kind : String) (p : Position) : List (String × Json) :=
  [("kind", .string kind), ("line", .int p.line.toInt), ("column", .int p.column.toInt)]

/-- The value that is written for a literal. -/
inductive Literal.WrittenAs : Literal → Json → Prop
  | boolean {b : Bool} : WrittenAs (.boolean b) (.bool b)
  | integer {i : Int64} : WrittenAs (.integer i) (.int i.toInt)
  | decimal {x : Binary64} {n : Json.Numeral} (spelled : n.Grammatical)
      (readsBack : n.toBinary64 = x) : WrittenAs (.decimal x) (.number n)
  | string {s : String} : WrittenAs (.string s) (.string s)

/-- The object that is written for an expression. -/
inductive Expr.WrittenAs : Expr → Json → Prop
  | literal {p : Position} {v : Literal} {j : Json} {members : List (String × Json)}
      (value : v.WrittenAs j)
      (holds : members.Perm (headMembers "literal" p ++
        [("type", .string v.type.keyword), ("value", j)])) :
      WrittenAs (.literal p v) (.object members)
  | reference {p : Position} {name : String} {members : List (String × Json)}
      (holds : members.Perm (headMembers "reference" p ++ [("name", .string name)])) :
      WrittenAs (.reference p name) (.object members)
  | unary {p : Position} {op : UnaryOp} {x : Expr} {j : Json} {members : List (String × Json)}
      (operand : WrittenAs x j)
      (holds : members.Perm (headMembers "unary" p ++
        [("operator", .string op.symbol), ("operand", j)])) :
      WrittenAs (.unary p op x) (.object members)
  | binary {p : Position} {op : BinaryOp} {l r : Expr} {j k : Json}
      {members : List (String × Json)} (left : WrittenAs l j) (right : WrittenAs r k)
      (holds : members.Perm (headMembers "binary" p ++
        [("operator", .string op.symbol), ("left", j), ("right", k)])) :
      WrittenAs (.binary p op l r) (.object members)

/-- The members that declare a question. -/
def Question.members (q : Question) : List (String × Json) :=
  [("id", .string q.id), ("type", .string q.type.keyword), ("label", .string q.label)]

/-- The object that is written for a statement. -/
inductive Statement.WrittenAs : Statement → Json → Prop
  | question {q : Question} {members : List (String × Json)}
      (holds : members.Perm (headMembers "question" q.pos ++ q.members)) :
      WrittenAs (.question q) (.object members)
  | calculated {q : Question} {value : Expr} {j : Json} {members : List (String × Json)}
      (expression : value.WrittenAs j)
      (holds : members.Perm (headMembers "calculated" q.pos ++ q.members ++ [("expression", j)])) :
      WrittenAs (.calculated q value) (.object members)
  | condition {p : Position} {g : Expr} {body : List Statement} {j : Json} {items : List Json}
      {members : List (String × Json)} (guard : g.WrittenAs j)
      (inside : List.Forall₂ WrittenAs body items)
      (holds : members.Perm (headMembers "condition" p ++
        [("guard", j), ("body", .array items)])) :
      WrittenAs (.condition p g body) (.object members)

/-- The member for a text, which may be left out if the text is empty. -/
def TextMember (name s : String) (part : List (String × Json)) : Prop :=
  part = [(name, .string s)] ∨ part = [] ∧ s = ""

/-- The document that is written for a form. -/
inductive Form.WrittenAs : Form → Json → Prop
  | mk {f : Form} {name file members : List (String × Json)} {items : List Json}
      (named : TextMember "name" f.name name) (filed : TextMember "file" f.file file)
      (inside : List.Forall₂ Statement.WrittenAs f.statements items)
      (holds : members.Perm (name ++ file ++ [("statements", .array items)])) :
      WrittenAs f (.object members)

/-! ### What is written has a text -/

/-- An object can be spelled if its members behind the head can. -/
theorem spellable_of_perm {kind : String} {p : Position} {members rest : List (String × Json)}
    (holds : members.Perm (headMembers kind p ++ rest)) (h : ∀ m ∈ rest, m.2.Spellable) :
    (Json.object members).Spellable := by
  have hhead : ∀ m ∈ headMembers kind p, m.2.Spellable := by
    simp only [headMembers, List.forall_mem_cons]
    exact ⟨.string, .number (Json.Numeral.grammatical_ofInt _),
      .number (Json.Numeral.grammatical_ofInt _), by simp⟩
  exact .object fun m hm ↦ List.forall_mem_append.2 ⟨hhead, h⟩ m (holds.mem_iff.1 hm)

theorem Literal.WrittenAs.spellable {v : Literal} {j : Json} (h : v.WrittenAs j) :
    j.Spellable := by
  cases h with
  | boolean => exact .bool
  | integer => exact .number (Json.Numeral.grammatical_ofInt _)
  | decimal spelled => exact .number spelled
  | string => exact .string

theorem Expr.WrittenAs.spellable {e : Expr} {j : Json} (h : e.WrittenAs j) : j.Spellable := by
  induction h with
  | literal value holds =>
    refine spellable_of_perm holds ?_
    simp only [List.forall_mem_cons]
    exact ⟨.string, value.spellable, by simp⟩
  | reference holds => exact spellable_of_perm holds (List.forall_mem_singleton.2 .string)
  | unary _ holds ih =>
    refine spellable_of_perm holds ?_
    simp only [List.forall_mem_cons]
    exact ⟨.string, ih, by simp⟩
  | binary _ _ holds ihl ihr =>
    refine spellable_of_perm holds ?_
    simp only [List.forall_mem_cons]
    exact ⟨.string, ihl, ihr, by simp⟩

theorem Question.spellable_members (q : Question) : ∀ m ∈ q.members, m.2.Spellable := by
  simp only [Question.members, List.forall_mem_cons]
  exact ⟨.string, .string, .string, by simp⟩

theorem Statement.spellable_of_writtenAs {l : List Statement} :
    ∀ {items}, List.Forall₂ WrittenAs l items → ∀ j ∈ items, j.Spellable := by
  -- over the statements: `WrittenAs` is nested in `Forall₂` and has no induction of its own
  induction l using Statement.listInduction with
  | nil =>
    rintro items ⟨⟩
    simp
  | question q rest ih =>
    rintro items (_ | ⟨⟨holds⟩, tail⟩)
    exact List.forall_mem_cons.2 ⟨spellable_of_perm holds q.spellable_members, ih tail⟩
  | calculated q value rest ih =>
    rintro items (_ | ⟨_ | ⟨written, holds⟩, tail⟩)
    rw [List.append_assoc] at holds
    refine List.forall_mem_cons.2 ⟨spellable_of_perm holds ?_, ih tail⟩
    exact List.forall_mem_append.2
      ⟨q.spellable_members, List.forall_mem_singleton.2 written.spellable⟩
  | condition p guard body rest ihbody ih =>
    rintro items (_ | ⟨_ | _ | ⟨written, inside, holds⟩, tail⟩)
    refine List.forall_mem_cons.2 ⟨spellable_of_perm holds ?_, ih tail⟩
    simp only [List.forall_mem_cons]
    exact ⟨written.spellable, .array (ihbody inside), by simp⟩

theorem TextMember.spellable {name s : String} {part : List (String × Json)}
    (h : TextMember name s part) : ∀ m ∈ part, m.2.Spellable := by
  rcases h with rfl | ⟨rfl, rfl⟩
  · exact List.forall_mem_singleton.2 .string
  · simp

/-- **What is written for a form has a text**, one without blanks for example. -/
theorem Form.WrittenAs.textOf_compactChars {f : Form} {doc : Json} (h : f.WrittenAs doc) :
    Json.TextOf (.element doc) doc.compactChars := by
  obtain ⟨named, filed, inside, holds⟩ := h
  refine (Json.textOf_compactChars (.object fun m hm ↦ ?_)).element_of_value
  refine List.forall_mem_append.2 ⟨List.forall_mem_append.2 ⟨named.spellable, filed.spellable⟩,
    List.forall_mem_singleton.2 ?_⟩ m (holds.mem_iff.1 hm)
  exact .array (Statement.spellable_of_writtenAs inside)

/-! ### Every whole form can be written -/

/-- The decimal numbers among the literals of an expression are finite. -/
def Expr.DecimalsFinite (e : Expr) : Prop :=
  ∀ p x, Occurs (.literal p (.decimal x)) e → x.isFinite

/-- The decimal numbers in the expression of a statement are finite. -/
def Statement.DecimalsFinite (s : Statement) : Prop :=
  ∀ e, s.expr? = some e → e.DecimalsFinite

/-- The decimal numbers in the expressions of a form are finite. -/
def Form.DecimalsFinite (f : Form) : Prop :=
  ∀ path s, Statement.At f.statements path s → s.DecimalsFinite

theorem Form.nested_of_whole {f : Form} (hwhole : f.Whole) (hfinite : f.DecimalsFinite) :
    ∀ s ∈ Statement.nestedAll f.statements, s.Whole ∧ s.DecimalsFinite := by
  intro s hs
  obtain ⟨path, place⟩ := Statement.mem_nestedAll_iff.1 hs
  exact ⟨hwhole path s place, hfinite path s place⟩

/-- **A whole expression can be written.** -/
theorem Expr.Whole.exists_writtenAs {e : Expr} (h : e.Whole) :
    e.DecimalsFinite → ∃ j, e.WrittenAs j := by
  induction h with
  | @literal p v =>
    intro hfinite
    cases v with
    | boolean b => exact ⟨_, .literal .boolean (.refl _)⟩
    | integer i => exact ⟨_, .literal .integer (.refl _)⟩
    | decimal x =>
      obtain ⟨n, spelled, readsBack⟩ := Json.Numeral.exists_spelling (hfinite p x .self)
      exact ⟨_, .literal (.decimal spelled readsBack) (.refl _)⟩
    | string s => exact ⟨_, .literal .string (.refl _)⟩
  | reference => exact fun _ ↦ ⟨_, .reference (.refl _)⟩
  | unary _ _ ih =>
    intro hfinite
    obtain ⟨j, written⟩ := ih fun p x hx ↦ hfinite p x hx.operand
    exact ⟨_, .unary written (.refl _)⟩
  | binary _ _ _ ihl ihr =>
    intro hfinite
    obtain ⟨j, writtenLeft⟩ := ihl fun p x hx ↦ hfinite p x hx.left
    obtain ⟨k, writtenRight⟩ := ihr fun p x hx ↦ hfinite p x hx.right
    exact ⟨_, .binary writtenLeft writtenRight (.refl _)⟩

/-- **Whole statements can be written.** -/
theorem Statement.exists_writtenAs {l : List Statement} :
    (∀ s ∈ nestedAll l, s.Whole ∧ s.DecimalsFinite) → ∃ items, List.Forall₂ WrittenAs l items := by
  induction l using Statement.listInduction with
  | nil => exact fun _ ↦ ⟨[], .nil⟩
  | question q rest ih =>
    intro hall
    rw [nestedAll_question, List.forall_mem_cons] at hall
    obtain ⟨items, written⟩ := ih hall.2
    exact ⟨_, .cons (.question (.refl _)) written⟩
  | calculated q value rest ih =>
    intro hall
    rw [nestedAll_calculated, List.forall_mem_cons] at hall
    obtain ⟨⟨- | ⟨-, whole⟩, hfinite⟩, hrest⟩ := hall
    obtain ⟨j, expression⟩ := whole.exists_writtenAs (hfinite value rfl)
    obtain ⟨items, written⟩ := ih hrest
    exact ⟨_, .cons (.calculated expression (.refl _)) written⟩
  | condition p guard body rest ihbody ih =>
    intro hall
    rw [nestedAll_condition, List.forall_mem_cons, List.forall_mem_append] at hall
    obtain ⟨⟨- | - | ⟨whole⟩, hfinite⟩, hbody, hrest⟩ := hall
    obtain ⟨j, expression⟩ := whole.exists_writtenAs (hfinite guard rfl)
    obtain ⟨block, inside⟩ := ihbody hbody
    obtain ⟨items, written⟩ := ih hrest
    exact ⟨_, .cons (.condition expression inside (.refl _)) written⟩

/-- **A whole form can be written.** -/
theorem Form.exists_writtenAs {f : Form} (hwhole : f.Whole) (hfinite : f.DecimalsFinite) :
    ∃ doc, f.WrittenAs doc := by
  obtain ⟨items, inside⟩ := Statement.exists_writtenAs (nested_of_whole hwhole hfinite)
  exact ⟨_, .mk (.inl rfl) (.inl rfl) inside (.refl _)⟩

end Questionnaire
