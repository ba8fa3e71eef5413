import Mathlib.Data.List.Forall2
import Questionnaire.Form.Decode
import Questionnaire.Proofs.Json.Records

/-!
# What form documents decode to

Decoding goes by the kinds of statements and expressions, and carries the place along for the fault
it may have to report. `ExprDoc.Decodes` and `StatementDoc.Decodes` say by rules what a document
decodes to, without places and faults: `ExprDoc.decode_eq_ok_iff` and
`StatementDoc.decodeAll_eq_ok_iff` tie the two together, at every place.
-/

namespace Questionnaire

/-! ### Expressions -/

/-- The plain members of an expression give a type and a value of that type. -/
def ExprHead.GivesLiteral (h : ExprHead) (v : Literal) : Prop :=
  ∃ j t, h.value = some j ∧ ValueType.ofKeyword? h.type = some t ∧ ExprDoc.literalOf t j = .ok v

/-- A document decodes to an expression. -/
inductive ExprDoc.Decodes : ExprDoc → Expr → Prop
  | literal {h : ExprHead} {x l r : ExprDoc} {v : Literal} (kind : h.kind = "literal")
      (value : h.GivesLiteral v) : Decodes (node h x l r) (.literal ⟨h.line, h.column⟩ v)
  | reference {h : ExprHead} {x l r : ExprDoc} (kind : h.kind = "reference") (name : h.name ≠ "") :
      Decodes (node h x l r) (.reference ⟨h.line, h.column⟩ h.name)
  | unary {h : ExprHead} {x l r : ExprDoc} {op : UnaryOp} {operand : Expr} (kind : h.kind = "unary")
      (operator : UnaryOp.ofSymbol? h.operator = some op) (decodes : Decodes x operand) :
      Decodes (node h x l r) (.unary ⟨h.line, h.column⟩ op operand)
  | binary {h : ExprHead} {x l r : ExprDoc} {op : BinaryOp} {left right : Expr}
      (kind : h.kind = "binary") (operator : BinaryOp.ofSymbol? h.operator = some op)
      (decodesLeft : Decodes l left) (decodesRight : Decodes r right) :
      Decodes (node h x l r) (.binary ⟨h.line, h.column⟩ op left right)

namespace ExprDoc

theorem decodeLiteral_eq_ok_iff {path : DocPath} {h : ExprHead} {v : Literal} :
    decodeLiteral path h = .ok v ↔ h.GivesLiteral v := by
  unfold decodeLiteral ExprHead.GivesLiteral
  cases h.value with
  | none => simp
  | some j =>
    cases ValueType.ofKeyword? h.type with
    | none => simp
    | some t => cases hv : literalOf t j <;> simp [hv]

theorem decode_eq_ok_of_decodes {d : ExprDoc} {e : Expr} (h : d.Decodes e) :
    ∀ path, d.decode path = .ok e := by
  induction h with
  | literal kind value =>
    intro path
    rw [decode, kind]
    exact map_eq_ok_iff.2 ⟨_, decodeLiteral_eq_ok_iff.2 value, rfl⟩
  | reference kind name =>
    intro path
    rw [decode, kind]
    simp [name]
  | unary kind operator _ ih =>
    intro path
    rw [decode, kind]
    simp only [operator, ih]
    rfl
  | binary kind operator _ _ ihl ihr =>
    intro path
    rw [decode, kind]
    simp only [operator, ihl, ihr]
    rfl

theorem decodes_of_decode_eq_ok {d : ExprDoc} :
    ∀ {path e}, d.decode path = .ok e → d.Decodes e := by
  induction d with
  | absent => exact fun h ↦ absurd h (by simp [decode])
  | node hd x l r ihx ihl ihr =>
    intro path e h
    unfold decode at h
    dsimp only at h
    split at h
    · next kind =>
      obtain ⟨v, hv, rfl⟩ := map_eq_ok_iff.1 h
      exact .literal kind (decodeLiteral_eq_ok_iff.1 hv)
    · next kind =>
      split at h
      · exact absurd h (by simp)
      · next name =>
        cases h
        exact .reference kind (by simpa using name)
    · next kind =>
      split at h
      · exact absurd h (by simp)
      · next op operator =>
        obtain ⟨operand, hx, rfl⟩ := map_eq_ok_iff.1 h
        exact .unary kind operator (ihx hx)
    · next kind =>
      split at h
      · exact absurd h (by simp)
      · next op operator =>
        obtain ⟨left, hl, h⟩ := bind_eq_ok_iff.1 h
        obtain ⟨right, hr, h⟩ := bind_eq_ok_iff.1 h
        cases h
        exact .binary kind operator (ihl hl) (ihr hr)
    · exact absurd h (by simp)

/-- **An expression is decoded** to what the rules say. -/
theorem decode_eq_ok_iff {path : DocPath} {d : ExprDoc} {e : Expr} :
    d.decode path = .ok e ↔ d.Decodes e :=
  ⟨decodes_of_decode_eq_ok, fun h ↦ decode_eq_ok_of_decodes h path⟩

end ExprDoc

/-! ### Statements -/

/-- The plain members of a statement declare a question. -/
structure StatementHead.Declares (h : StatementHead) (q : Question) : Prop where
  id : h.id ≠ "" ∧ q.id = h.id
  type : ValueType.ofKeyword? h.type = some q.type
  label : q.label = h.label
  pos : q.pos = ⟨h.line, h.column⟩

/-- A document decodes to a statement. -/
inductive StatementDoc.Decodes : StatementDoc → Statement → Prop
  | question {h : StatementHead} {e g : ExprDoc} {body spare : List StatementDoc} {q : Question}
      (kind : h.kind = "question") (declares : h.Declares q) :
      Decodes (.mk h e g body spare) (.question q)
  | calculated {h : StatementHead} {e g : ExprDoc} {body spare : List StatementDoc} {q : Question}
      {value : Expr} (kind : h.kind = "calculated") (declares : h.Declares q)
      (decodes : e.Decodes value) : Decodes (.mk h e g body spare) (.calculated q value)
  | condition {h : StatementHead} {e g : ExprDoc} {body spare : List StatementDoc} {guard : Expr}
      {statements : List Statement} (kind : h.kind = "condition") (decodesGuard : g.Decodes guard)
      (decodesBody : List.Forall₂ Decodes body statements) :
      Decodes (.mk h e g body spare) (.condition ⟨h.line, h.column⟩ guard statements)

namespace StatementDoc

/-- Induction over a list of documents of statements and the bodies in it. -/
@[elab_as_elim]
theorem listInduction {motive : List StatementDoc → Prop} (nil : motive [])
    (cons : ∀ h e g body spare rest, motive body → motive rest →
      motive (.mk h e g body spare :: rest)) :
    ∀ l : List StatementDoc, motive l
  | [] => nil
  | .mk h e g body spare :: rest =>
    cons h e g body spare rest (listInduction nil cons body) (listInduction nil cons rest)

theorem decodeQuestion_eq_ok_iff {path : DocPath} {h : StatementHead} {q : Question} :
    decodeQuestion path h = .ok q ↔ h.Declares q := by
  unfold decodeQuestion
  by_cases hid : h.id = ""
  · refine iff_of_false (by simp [hid]) fun hd ↦ hd.id.1 hid
  · rw [if_neg (by simpa using hid)]
    cases htype : ValueType.ofKeyword? h.type with
    | none => exact iff_of_false (by simp) fun hd ↦ absurd (htype.symm.trans hd.type) (by simp)
    | some t =>
      simp only [Except.ok.injEq]
      constructor
      · rintro rfl
        exact ⟨⟨hid, rfl⟩, htype, rfl, rfl⟩
      · rintro ⟨⟨-, hqid⟩, hqtype, hlabel, hpos⟩
        obtain ⟨pos, id, type, label⟩ := q
        simp_all

/-- A statement is decoded by the rules, as soon as the statements of its body are. -/
theorem decode_eq_ok_iff_of_body {path : DocPath} {h : StatementHead} {e g : ExprDoc}
    {body spare : List StatementDoc} {s : Statement}
    (hbody : ∀ path index {l}, decodeAll path index body = .ok l ↔ List.Forall₂ Decodes body l) :
    decode path (.mk h e g body spare) = .ok s ↔ Decodes (.mk h e g body spare) s := by
  constructor
  · intro hs
    unfold decode at hs
    split at hs
    · next kind =>
      obtain ⟨q, hq, rfl⟩ := map_eq_ok_iff.1 hs
      exact .question kind (decodeQuestion_eq_ok_iff.1 hq)
    · next kind =>
      obtain ⟨q, hq, hs⟩ := bind_eq_ok_iff.1 hs
      obtain ⟨value, hvalue, hs⟩ := bind_eq_ok_iff.1 hs
      cases hs
      exact .calculated kind (decodeQuestion_eq_ok_iff.1 hq) (ExprDoc.decode_eq_ok_iff.1 hvalue)
    · next kind =>
      obtain ⟨guard, hguard, hs⟩ := bind_eq_ok_iff.1 hs
      obtain ⟨inner, hinner, hs⟩ := bind_eq_ok_iff.1 hs
      cases hs
      exact .condition kind (ExprDoc.decode_eq_ok_iff.1 hguard) ((hbody _ _).1 hinner)
    · exact absurd hs (by simp)
  · rintro (⟨kind, declares⟩ | ⟨kind, declares, decodes⟩ | ⟨kind, decodesGuard, decodesBody⟩)
    · rw [decode, kind]
      exact map_eq_ok_iff.2 ⟨_, decodeQuestion_eq_ok_iff.2 declares, rfl⟩
    · rw [decode, kind]
      exact bind_eq_ok_iff.2 ⟨_, decodeQuestion_eq_ok_iff.2 declares,
        bind_eq_ok_iff.2 ⟨_, ExprDoc.decode_eq_ok_iff.2 decodes, rfl⟩⟩
    · rw [decode, kind]
      exact bind_eq_ok_iff.2 ⟨_, ExprDoc.decode_eq_ok_iff.2 decodesGuard,
        bind_eq_ok_iff.2 ⟨_, (hbody _ _).2 decodesBody, rfl⟩⟩

/-- **A list of statements is decoded** to what the rules say. -/
theorem decodeAll_eq_ok_iff {docs : List StatementDoc} :
    ∀ (path : DocPath) (index : Nat) {statements}, decodeAll path index docs = .ok statements ↔
      List.Forall₂ Decodes docs statements := by
  induction docs using listInduction with
  | nil =>
    intro path index statements
    rw [decodeAll]
    constructor
    · intro h
      cases h
      exact .nil
    · rintro ⟨⟩
      rfl
  | cons hd e g body spare rest ihbody ihrest =>
    intro path index statements
    rw [decodeAll]
    constructor
    · intro h
      obtain ⟨s, hs, h⟩ := bind_eq_ok_iff.1 h
      obtain ⟨tail, htail, h⟩ := bind_eq_ok_iff.1 h
      cases h
      exact .cons ((decode_eq_ok_iff_of_body ihbody).1 hs) ((ihrest _ _).1 htail)
    · rintro ⟨⟩
      next s tail head htail =>
      exact bind_eq_ok_iff.2 ⟨s, (decode_eq_ok_iff_of_body ihbody).2 head,
        bind_eq_ok_iff.2 ⟨tail, (ihrest _ _).2 htail, rfl⟩⟩

end StatementDoc

/-! ### Forms -/

/-- A text that is decoded is JSON, describes a document, and this decodes. -/
theorem Form.decode_eq_ok_iff {text : List Char} {f : Form} :
    Form.decode text = .ok f ↔ ∃ j d, Json.parseChars text = some j ∧ FormDoc.ofJson j = .ok d ∧
      f.name = d.name ∧ f.file = d.file ∧
      List.Forall₂ StatementDoc.Decodes d.statements.items f.statements := by
  unfold Form.decode
  cases Json.parseChars text with
  | none => simp
  | some j =>
    cases hd : FormDoc.ofJson j with
    | error e => simp [hd]
    | ok d =>
      have hall := @StatementDoc.decodeAll_eq_ok_iff d.statements.items
        (DocPath.member {} "statements") 0 f.statements
      simp only [Option.some.injEq, exists_and_left, exists_eq_left', hd, Except.ok.injEq, ← hall,
        FormDoc.decode]
      cases StatementDoc.decodeAll (DocPath.member {} "statements") 0 d.statements.items with
      | error e => simp [Except.map]
      | ok l =>
        obtain ⟨name, file, statements⟩ := f
        simp [Except.map, eq_comm]

end Questionnaire
