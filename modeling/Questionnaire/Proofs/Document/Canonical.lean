import Questionnaire.Proofs.Document.Fidelity
import Questionnaire.Proofs.Check.Stages
import Questionnaire.Toolkit.Standard

/-!
# Canonical documents

Validation and decoding are two accounts of the same format. They part where a document is written
in an unusual way: members given twice or in another case, members that an expression of its kind
does not use, integers with a point or an exponent, numbers out of range. On **canonical** documents
(`Canonical`), which do none of this, they agree: what has no faults is decoded, and a check does
not fail between the two stages (`Form.decodes_of_canonical`).

The argument goes along the grammar. An expression that follows it can be read over anything that an
earlier member has left, and whatever is read then decodes (`Canonical.exists_expression`); the same
holds of statements.
-/

namespace Questionnaire

open Json (member? PartOf)

/-! ### Canonical documents -/

/-- An object is a literal of a type, with a number for its value. -/
structure IsNumberLiteral (type : String) (members : List (String × Json)) (n : Json.Numeral) :
    Prop where
  kind : member? "kind" members = some (.string "literal")
  type : member? "type" members = some (.string type)
  value : member? "value" members = some (.number n)

/-- A document that is written in the usual way. -/
structure Canonical (doc : Json) : Prop where
  /-- No object gives a member twice. -/
  distinct : ∀ members, PartOf (.object members) doc → (members.map Prod.fst).Nodup
  /-- Expressions have the members of their kind only. -/
  own : ∀ members kind, ExpressionIn doc (.object members) →
    member? "kind" members = some (.string kind) → Schema.HasOnly (ExprDoc.membersOf kind) members
  /-- Lines and columns are plain integers of 64 bits. -/
  coordinates : ∀ members n, PartOf (.object members) doc → ∀ name ∈ ["line", "column"],
    member? name members = some (.number n) → n.IsWord
  /-- So are the values of integer literals. -/
  integers : ∀ members n, ExpressionIn doc (.object members) →
    IsNumberLiteral "integer" members n → n.IsWord
  /-- The values of decimal literals are within the range of binary64. -/
  decimals : ∀ members n, ExpressionIn doc (.object members) →
    IsNumberLiteral "decimal" members n → |n.value| ≤ Binary64.largest

/-- The members of each kind differ in more than case. -/
theorem ExprDoc.nodup_membersOf (kind : String) : ((membersOf kind).map Json.foldName).Nodup := by
  unfold membersOf
  split <;> decide

/-- Case makes no difference in a canonical document. -/
theorem Canonical.expressionsExact {doc : Json} (h : Canonical doc) : ExpressionsExact doc :=
  fun members kind hin hkind ↦
    Json.namesExact_of_forall_mem (ExprDoc.nodup_membersOf kind) (h.own members kind hin hkind)

/-! ### Members -/

variable {integer : Json.Numeral → Prop} {doc : Json}

/-- The parts that every object with a head has. -/
def headParts : List (String × PartSort) :=
  [("kind", .text), ("line", .word), ("column", .word)]

/-- The head of an object in a canonical document can be read. -/
theorem Canonical.takes_headParts (h : Canonical doc) {members : List (String × Json)}
    {kind : String} (hpart : PartOf (.object members) doc)
    (head : Schema.HasHead integer kind members) :
    ∀ p ∈ headParts, ∀ j, member? p.1 members = some j → p.2.Takes j := by
  have hword : ∀ name ∈ ["line", "column"], ∀ j, member? name members = some j →
      (∃ k, member? name members = some k ∧ Schema.IsCoordinate integer k) →
        PartSort.word.Takes j := by
    rintro name hname j hj ⟨k, hk, ⟨hn, -⟩⟩
    obtain rfl := Option.some.inj (hj.symm.trans hk)
    obtain ⟨i, hi⟩ := Json.Numeral.isWord_iff.1 (h.coordinates members _ hpart name hname hk)
    exact ⟨_, i, rfl, hi⟩
  simp only [headParts, List.forall_mem_cons]
  refine ⟨fun j hj ↦ ?_, fun j hj ↦ ?_, fun j hj ↦ ?_, by simp⟩
  · exact ⟨kind, Option.some.inj (hj.symm.trans head.kind)⟩
  · exact hword "line" (by simp) j hj head.line
  · exact hword "column" (by simp) j hj head.column

/-- The members of an object are of the sorts of their fields when its parts behind the head are. -/
theorem Canonical.takes_members (h : Canonical doc) {F : Type} {table : List (String × F)}
    {sort : F → PartSort} (htable : Json.IsTable table) (parts : List (String × PartSort))
    {members : List (String × Json)} {kind : String} (hpart : PartOf (.object members) doc)
    (head : Schema.HasHead integer kind members)
    (honly : Schema.HasOnly ((headParts ++ parts).map Prod.fst) members)
    (hfields : ∀ p ∈ headParts ++ parts, ∃ q ∈ table, q.1 = p.1 ∧ sort q.2 = p.2)
    (htakes : ∀ p ∈ parts, ∃ j, member? p.1 members = some j ∧ p.2.Takes j) :
    ∀ m ∈ members, ∀ f, Json.field? table m.1 = some f → (sort f).Takes m.2 := by
  refine PartSort.takes_of_parts htable _ hfields (h.distinct members hpart) honly ?_
  refine List.forall_mem_append.2 ⟨h.takes_headParts hpart head, fun p hp j hj ↦ ?_⟩
  obtain ⟨k, hk, htakes⟩ := htakes p hp
  rwa [Option.some.inj (hj.symm.trans hk)]

/-- The literal that a value of its type gives in a canonical document. -/
theorem Canonical.exists_literalOf (h : Canonical doc) {members : List (String × Json)}
    {type : String} {j : Json} (hin : ExpressionIn doc (.object members))
    (hkind : member? "kind" members = some (.string "literal"))
    (htype : member? "type" members = some (.string type))
    (hvalue : member? "value" members = some j) (hliteral : Schema.IsLiteral integer type j) :
    ∃ t v, ValueType.ofKeyword? type = some t ∧ ExprDoc.literalOf t j = .ok v := by
  cases hliteral with
  | boolean => exact ⟨.boolean, _, by decide, rfl⟩
  | @integer n _ =>
    obtain ⟨i, hi⟩ := Json.Numeral.isWord_iff.1 (h.integers members n hin ⟨hkind, htype, hvalue⟩)
    exact ⟨.integer, .integer i, by decide, by simp [ExprDoc.literalOf, Json.readInt64, hi]⟩
  | @decimal n =>
    have hfinite : n.toBinary64.isFinite :=
      Json.Numeral.isFinite_toBinary64 (h.decimals members n hin ⟨hkind, htype, hvalue⟩)
    exact ⟨.decimal, .decimal n.toBinary64, by decide, by
      simp [ExprDoc.literalOf, Json.readBinary64, hfinite]⟩
  | string => exact ⟨.string, _, by decide, rfl⟩

theorem UnaryOp.exists_ofSymbol? {s : String} (h : s ∈ ["!", "-", "+"]) :
    ∃ op, ofSymbol? s = some op := by
  rw [← Option.isSome_iff_exists]
  revert s
  decide

theorem BinaryOp.exists_ofSymbol? {s : String}
    (h : s ∈ ["+", "-", "*", "/", "%", "^", "&&", "||", "==", "!=", "<", "<=", ">", ">="]) :
    ∃ op, ofSymbol? s = some op := by
  rw [← Option.isSome_iff_exists]
  revert s
  decide

/-! ### Expressions -/

/-- **A valid expression** of a canonical document can be read, and what is read decodes. -/
theorem Canonical.exists_expression (h : Canonical doc) {j : Json}
    (hvalid : Schema.IsExpression integer j) : ExpressionIn doc j →
      PartSort.expression.Takes j ∧ ∀ old d, ExprDoc.read old j = .ok d → ∃ e, d.Decodes e := by
  -- both halves for every `old`: an operand is read over what is there when its turn comes
  induction hvalid with
  | literal head htype hvalue hliteral =>
    intro hin
    constructor
    · refine ExprDoc.exists_read (h.takes_members ExprDoc.isTable_byName
        [("type", .text), ("value", .kept)] hin.partOf head (h.own _ _ hin head.kind)
        (by decide) ?_)
      simp only [List.forall_mem_cons]
      exact ⟨⟨_, htype, _, rfl⟩, ⟨_, hvalue, trivial⟩, by simp⟩
    · intro old d hread
      obtain ⟨hd, x, l, r, rfl, hkind, -, hparts⟩ := ExprDoc.exists_node_of_read hread head
        (h.expressionsExact _ _ hin head.kind) (by decide)
      have hword := hparts "type" .type _ (by decide) (by decide) htype
      have hkept := hparts "value" .value _ (by decide) (by decide) hvalue
      obtain ⟨t, v, ht, hv⟩ := h.exists_literalOf hin head.kind htype hvalue hliteral
      rw [← DocPart.text_readFrom_string.1 hword] at ht
      exact ⟨_, .literal hkind ⟨_, t, hkept, ht, hv⟩⟩
  | reference head hname nonempty =>
    intro hin
    constructor
    · refine ExprDoc.exists_read (h.takes_members ExprDoc.isTable_byName [("name", .text)]
        hin.partOf head (h.own _ _ hin head.kind) (by decide) ?_)
      exact List.forall_mem_singleton.2 ⟨_, hname, _, rfl⟩
    · intro old d hread
      obtain ⟨hd, x, l, r, rfl, hkind, -, hparts⟩ := ExprDoc.exists_node_of_read hread head
        (h.expressionsExact _ _ hin head.kind) (by decide)
      have hword := hparts "name" .name _ (by decide) (by decide) hname
      rw [← DocPart.text_readFrom_string.1 hword] at nonempty
      exact ⟨_, .reference hkind nonempty⟩
  | unary head hoperator known hoperand _ ih =>
    intro hin
    obtain ⟨htakes, hdecodes⟩ := ih (.ofOperand hin head.kind (by decide) hoperand)
    constructor
    · refine ExprDoc.exists_read (h.takes_members ExprDoc.isTable_byName
        [("operator", .text), ("operand", .expression)] hin.partOf head (h.own _ _ hin head.kind)
        (by decide) ?_)
      simp only [List.forall_mem_cons]
      exact ⟨⟨_, hoperator, _, rfl⟩, ⟨_, hoperand, htakes⟩, by simp⟩
    · intro old d hread
      obtain ⟨hd, x, l, r, rfl, hkind, -, hparts⟩ := ExprDoc.exists_node_of_read hread head
        (h.expressionsExact _ _ hin head.kind) (by decide)
      have hsymbol := hparts "operator" .operator _ (by decide) (by decide) hoperator
      obtain ⟨old', hx⟩ := hparts "operand" .operand _ (by decide) (by decide) hoperand
      obtain ⟨op, hop⟩ := UnaryOp.exists_ofSymbol? known
      obtain ⟨e, he⟩ := hdecodes old' x hx
      rw [← DocPart.text_readFrom_string.1 hsymbol] at hop
      exact ⟨_, .unary hkind hop he⟩
  | binary head hoperator known hleft _ hright _ ihl ihr =>
    intro hin
    obtain ⟨htakesLeft, hdecodesLeft⟩ := ihl (.ofOperand hin head.kind (by decide) hleft)
    obtain ⟨htakesRight, hdecodesRight⟩ := ihr (.ofOperand hin head.kind (by decide) hright)
    constructor
    · refine ExprDoc.exists_read (h.takes_members ExprDoc.isTable_byName
        [("operator", .text), ("left", .expression), ("right", .expression)] hin.partOf head
        (h.own _ _ hin head.kind) (by decide) ?_)
      simp only [List.forall_mem_cons]
      exact ⟨⟨_, hoperator, _, rfl⟩, ⟨_, hleft, htakesLeft⟩, ⟨_, hright, htakesRight⟩, by simp⟩
    · intro old d hread
      obtain ⟨hd, x, l, r, rfl, hkind, -, hparts⟩ := ExprDoc.exists_node_of_read hread head
        (h.expressionsExact _ _ hin head.kind) (by decide)
      have hsymbol := hparts "operator" .operator _ (by decide) (by decide) hoperator
      obtain ⟨oldLeft, hl⟩ := hparts "left" .left _ (by decide) (by decide) hleft
      obtain ⟨oldRight, hr⟩ := hparts "right" .right _ (by decide) (by decide) hright
      obtain ⟨op, hop⟩ := BinaryOp.exists_ofSymbol? known
      obtain ⟨left, hleft'⟩ := hdecodesLeft oldLeft l hl
      obtain ⟨right, hright'⟩ := hdecodesRight oldRight r hr
      rw [← DocPart.text_readFrom_string.1 hsymbol] at hop
      exact ⟨_, .binary hkind hop hleft' hright'⟩

/-! ### Statements -/

/-- The parts that declare a question. -/
def questionParts : List (String × PartSort) :=
  [("id", .text), ("type", .text), ("label", .text)]

theorem takes_questionParts {members : List (String × Json)} (declares : Schema.Declares members) :
    ∀ p ∈ questionParts, ∃ j, member? p.1 members = some j ∧ p.2.Takes j := by
  obtain ⟨id, hid, -⟩ := declares.id
  obtain ⟨word, -, hword⟩ := declares.type
  obtain ⟨label, hlabel⟩ := declares.label
  simp only [questionParts, List.forall_mem_cons]
  exact ⟨⟨_, hid, id, rfl⟩, ⟨_, hword, word, rfl⟩, ⟨_, hlabel, label, rfl⟩, by simp⟩

/-- What is read from the members that declare a question declares one. -/
theorem StatementHead.exists_declares {members : List (String × Json)} {h : StatementHead}
    (hvalid : Schema.Declares members)
    (hid : ∀ j, member? "id" members = some j → (DocPart.text h.id).ReadFrom j)
    (htype : ∀ j, member? "type" members = some j → (DocPart.text h.type).ReadFrom j) :
    ∃ q, h.Declares q := by
  obtain ⟨id, hmemberId, hidentifier⟩ := hvalid.id
  obtain ⟨word, hword, hmemberType⟩ := hvalid.type
  obtain ⟨t, -, -, hof⟩ := ValueType.exists_keyword_eq hword
  have hidRead := DocPart.text_readFrom_string.1 (hid _ hmemberId)
  have htypeRead := DocPart.text_readFrom_string.1 (htype _ hmemberType)
  have hnamed : id ≠ "" := by
    obtain ⟨hchars, -, -⟩ := hidentifier
    rintro rfl
    exact absurd hchars (by simp)
  refine ⟨{ pos := ⟨h.line, h.column⟩, id := h.id, type := t, label := h.label },
    ⟨hidRead ▸ hnamed, rfl⟩, htypeRead ▸ hof, rfl, rfl⟩

/-- **A valid statement** of a canonical document can be read, and what is read decodes. -/
theorem Canonical.exists_statement (h : Canonical doc) {j : Json}
    (hvalid : Schema.IsStatement integer j) : StatementIn doc j →
      (∀ old, ∃ d, StatementDoc.read old j = .ok d) ∧
        ∀ old d, StatementDoc.read old j = .ok d → ∃ s, d.Decodes s := by
  -- the statements of a body stand in the document too, so the hypothesis applies to each
  induction hvalid with
  | question head declares only =>
    intro hin
    constructor
    · exact StatementDoc.exists_read (h.takes_members StatementDoc.isTable_byName questionParts
        hin.partOf head only (by decide) (takes_questionParts declares))
    · rintro old ⟨hd, e, g, body, spare⟩ hread
      obtain ⟨hkind, -, hparts⟩ :=
        StatementDoc.parts_of_read hread head only (by decide) (by decide)
      obtain ⟨q, hq⟩ := StatementHead.exists_declares declares
        (fun j ↦ hparts "id" .id j (by decide) (by decide))
        (fun j ↦ hparts "type" .type j (by decide) (by decide))
      exact ⟨_, .question hkind hq⟩
  | calculated head declares hexpression expressionValid only =>
    intro hin
    obtain ⟨htakes, hdecodes⟩ :=
      h.exists_expression expressionValid (.ofStatement hin (by decide) hexpression)
    constructor
    · refine StatementDoc.exists_read (h.takes_members StatementDoc.isTable_byName
        (questionParts ++ [("expression", PartSort.expression)]) hin.partOf head only (by decide)
        (List.forall_mem_append.2 ⟨takes_questionParts declares, ?_⟩))
      exact List.forall_mem_singleton.2 ⟨_, hexpression, htakes⟩
    · rintro old ⟨hd, e, g, body, spare⟩ hread
      obtain ⟨hkind, -, hparts⟩ :=
        StatementDoc.parts_of_read hread head only (by decide) (by decide)
      obtain ⟨q, hq⟩ := StatementHead.exists_declares declares
        (fun j ↦ hparts "id" .id j (by decide) (by decide))
        (fun j ↦ hparts "type" .type j (by decide) (by decide))
      obtain ⟨old', he⟩ := hparts "expression" .expression _ (by decide) (by decide) hexpression
      obtain ⟨value, hvalue⟩ := hdecodes old' e he
      exact ⟨_, .calculated hkind hq hvalue⟩
  | condition head hguard guardValid hbody _ only ih =>
    intro hin
    obtain ⟨htakes, hdecodes⟩ :=
      h.exists_expression guardValid (.ofStatement hin (by decide) hguard)
    have hitem := fun k hk ↦ ih k hk (.ofBody hin hbody hk)
    constructor
    · refine StatementDoc.exists_read (h.takes_members StatementDoc.isTable_byName
        [("guard", .expression), ("body", .statements)] hin.partOf head only (by decide) ?_)
      simp only [List.forall_mem_cons]
      exact ⟨⟨_, hguard, htakes⟩,
        ⟨_, hbody, StatementDoc.exists_readList fun k hk ↦ (hitem k hk).1⟩, by simp⟩
    · rintro old ⟨hd, e, g, body, spare⟩ hread
      obtain ⟨hkind, -, hparts⟩ :=
        StatementDoc.parts_of_read hread head only (by decide) (by decide)
      obtain ⟨old', hg⟩ := hparts "guard" .guard _ (by decide) (by decide) hguard
      obtain ⟨earlier, hitems⟩ := hparts "body" .body _ (by decide) (by decide) hbody
      obtain ⟨guard, hguard'⟩ := hdecodes old' g hg
      obtain ⟨statements, hstatements⟩ := exists_forall₂
        (fun k hk d ⟨old, hread⟩ ↦ (hitem k hk).2 old d hread) (StatementDoc.readList_eq_ok hitems)
      exact ⟨_, .condition hkind hguard' hstatements⟩

/-! ### Forms -/

/-- **A valid form** that is canonical is read from its document, and what is read decodes. -/
theorem Canonical.exists_form (h : Canonical doc) (hvalid : Schema.IsForm integer doc) :
    ∃ d l, FormDoc.ofJson doc = .ok d ∧ List.Forall₂ StatementDoc.Decodes d.statements.items l := by
  obtain ⟨hstatements, statementsValid, nameValid, fileValid, only⟩ := hvalid
  rename_i members items
  have hitem := fun j hj ↦ h.exists_statement (statementsValid j hj)
    (.ofForm rfl hstatements hj)
  obtain ⟨d, hd⟩ : ∃ d, FormDoc.readMembers {} members = .ok d := by
    refine FormDoc.exists_read (PartSort.takes_of_parts FormDoc.isTable_byName
      [("name", .text), ("file", .text), ("statements", .statements)] (by decide)
      (h.distinct members (.refl _)) only ?_) {}
    simp only [List.forall_mem_cons]
    refine ⟨nameValid, fileValid, fun j hj ↦ ?_, by simp⟩
    obtain rfl := Option.some.inj (hj.symm.trans hstatements)
    exact StatementDoc.exists_readList fun k hk ↦ (hitem k hk).1
  have hnames := Json.namesExact_of_forall_mem (by decide) only
  obtain ⟨-, hparts⟩ := (FormDoc.readsFields.readIn _).foldlM_eq_ok trivial hd
  have hpartStatements := (hparts "statements" .statements (by decide)).1
  rw [hnames _ (by decide)] at hpartStatements
  obtain ⟨earlier, hitems⟩ := hpartStatements _ hstatements
  obtain ⟨l, hl⟩ := exists_forall₂
    (fun j hj d ⟨old, hread⟩ ↦ (hitem j hj).2 old d hread) (StatementDoc.readList_eq_ok hitems)
  exact ⟨d, l, by simp [FormDoc.ofJson, hd], hl⟩

/-- **On canonical documents validation and decoding agree.** A text whose document is canonical and
in which a validator of forms finds no errors is decoded to a form. So no check of a file with this
text that is made with the validator, whatever its options, says that the form could not be
loaded. -/
theorem Form.decodes_of_canonical {v : Schema.Validator} {text : List Char}
    (himplements : v.Implements Schema.formSchema) (hparse : Json.parseChars text = some doc)
    (hcanonical : Canonical doc) (hvalid : v.validateText text = []) :
    (∃ f, Form.decode text = .ok f) ∧
      ∀ (disk : Disk) (kit : Toolkit) (path : String), kit.validator = v →
        disk.readDocument kit path = .ok text → ∀ o message,
          inputFinding path ("failed to load form: " ++ message) ∉
            (disk.check kit LintPass.builtin o path).errors := by
  have hform := Schema.Validator.isForm_of_validateText himplements hparse hvalid
  obtain ⟨d, l, hread, hl⟩ := hcanonical.exists_form hform
  have hdecode : Form.decode text = .ok { name := d.name, file := d.file, statements := l } :=
    Form.decode_eq_ok_iff.2 ⟨doc, d, hparse, hread, rfl, rfl, hl⟩
  refine ⟨⟨_, hdecode⟩, fun disk kit path hkit hdisk o message hfailed ↦ ?_⟩
  rcases Disk.mem_errors_check hfailed with
    ⟨err, -, heq⟩ | ⟨-, err, herr, -⟩ | ⟨-, -, ⟨err, hload, -⟩ | ⟨f, v, -, hcheck, hmem⟩⟩
  · -- the file cannot be accessed: the message begins with another letter
    have hmessage := congrArg (fun e ↦ e.message.toList.head?) heq
    simp [inputFinding, Finding.error] at hmessage
  · have hclean : disk.schemaErrors kit path = [] := by
      rw [Disk.schemaErrors, hdisk, hkit]
      exact hvalid
    exact absurd (hclean ▸ herr) List.not_mem_nil
  · rw [Disk.loadForm, hdisk] at hload
    simp [hdecode] at hload
  · exact (Form.foundBy_of_check hcheck _ hmem).kind_ne_input rfl

/-! ### A canonical document -/

/-- The number that is the value of a literal of a type, if an object is one. -/
def literalNumber? (type : String) (members : List (String × Json)) : Option Json.Numeral :=
  match (member? "type" members : Option Json), (member? "value" members : Option Json) with
  | some (.string word), some (.number n) =>
    if kindOf members = "literal" ∧ word = type then some n else none
  | _, _ => none

theorem IsNumberLiteral.literalNumber?_eq {type : String} {members : List (String × Json)}
    {n : Json.Numeral} (h : IsNumberLiteral type members n) :
    literalNumber? type members = some n := by
  rw [literalNumber?, h.type, h.value]
  exact if_pos ⟨kindOf_eq h.kind, rfl⟩

/-- What makes a document canonical, asked of all that is written in it. -/
theorem canonical_of_forall
    (hdistinct : ∀ members ∈ doc.objects, (members.map Prod.fst).Nodup)
    (hown : ∀ members ∈ expressionObjects doc, ∀ m ∈ members,
      m.1 ∈ ExprDoc.membersOf (kindOf members))
    (hcoordinates : ∀ members ∈ doc.objects, ∀ m ∈ members, m.1 ∈ ["line", "column"] →
      ∀ n ∈ m.2.numerals, n.IsWord)
    (hintegers : ∀ members ∈ expressionObjects doc, ∀ n ∈ literalNumber? "integer" members,
      n.IsWord)
    (hdecimals : ∀ members ∈ expressionObjects doc, ∀ n ∈ literalNumber? "decimal" members,
      |n.value| ≤ Binary64.largest) : Canonical doc where
  distinct members hpart := hdistinct members (Json.mem_objects_of_partOf hpart)
  own members kind hin hkind := by
    have honly := hown members (mem_expressionObjects hin)
    rwa [kindOf_eq hkind] at honly
  coordinates members n hpart name hname hn :=
    hcoordinates members (Json.mem_objects_of_partOf hpart) _ (Json.mem_of_member? hn) hname n
      (Json.mem_numerals_of_partOf (.refl _))
  integers members n hin hliteral :=
    hintegers members (mem_expressionObjects hin) n hliteral.literalNumber?_eq
  decimals members n hin hliteral :=
    hdecimals members (mem_expressionObjects hin) n hliteral.literalNumber?_eq

-- a text is read one call deeper for each of its characters
set_option maxRecDepth 4000

/-- A condition on an integer, with a decimal question that is calculated. -/
def feeText : String :=
  "\x7b\"statements\":[\x7b\"kind\":\"condition\",\"line\":1,\"column\":1,
   \"guard\":\x7b\"kind\":\"binary\",\"line\":1,\"column\":4,\"operator\":\"<\",
   \"left\":\x7b\"kind\":\"reference\",\"line\":1,\"column\":4,\"name\":\"n\"\x7d,
   \"right\":\x7b\"kind\":\"literal\",\"line\":1,\"column\":8,\"type\":\"integer\",
   \"value\":10\x7d\x7d,
   \"body\":[\x7b\"kind\":\"calculated\",\"line\":2,\"column\":3,\"id\":\"fee\",
   \"type\":\"decimal\",\"label\":\"Fee\",\"expression\":\x7b\"kind\":\"literal\",
   \"line\":2,\"column\":20,\"type\":\"decimal\",\"value\":2.5\x7d\x7d]\x7d]\x7d"

/-- The document that `feeText` gives. -/
def feeDocument : Json :=
  let bound := headed "binary" 1 4 [("operator", .string "<"),
    ("left", headed "reference" 1 4 [("name", .string "n")]),
    ("right", headed "literal" 1 8 [("type", .string "integer"), ("value", .int 10)])]
  let amount := headed "literal" 2 20 [("type", .string "decimal"),
    ("value", .number { whole := ['2'], fraction := ['5'] })]
  let fee := headed "calculated" 2 3 [("id", .string "fee"), ("type", .string "decimal"),
    ("label", .string "Fee"), ("expression", amount)]
  .object [("statements", .array [headed "condition" 1 1
    [("guard", bound), ("body", .array [fee])]])]

theorem parse_feeText : Json.parseChars feeText.toList = some feeDocument := by
  rw [feeText, String.toList_ofList]
  rfl

/-- A disk on which every path leads to a file with a text, one byte for each character. -/
def diskOf (text : List Char) : Disk where
  entry _ := .file (text.map fun c ↦ c.toNat.toUInt8)

theorem Form.decodes_feeText :
    (∃ f, Form.decode feeText.toList = .ok f) ∧
      (diskOf feeText.toList).readDocument .standard "fee.json" = .ok feeText.toList ∧
      ∀ o message, inputFinding "fee.json" ("failed to load form: " ++ message) ∉
        ((diskOf feeText.toList).check .standard LintPass.builtin o "fee.json").errors := by
  have hcanonical : Canonical feeDocument :=
    canonical_of_forall (by decide +kernel) (by decide +kernel) (by decide +kernel)
      (by decide +kernel) (by decide +kernel)
  have hvalid : Schema.Validator.standard.validateText feeText.toList = [] := by
    rw [Schema.Validator.validateText, parse_feeText]
    decide +kernel
  have hdisk : (diskOf feeText.toList).readDocument .standard "fee.json" = .ok feeText.toList := by
    rw [feeText, String.toList_ofList]
    decide +kernel
  obtain ⟨hdecodes, hloads⟩ :=
    decodes_of_canonical Schema.standard_implements parse_feeText hcanonical hvalid
  exact ⟨hdecodes, hdisk, hloads _ .standard "fee.json" rfl hdisk⟩

end Questionnaire
