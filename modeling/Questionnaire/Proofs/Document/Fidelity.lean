import Questionnaire.Proofs.Document.Decoded
import Questionnaire.Proofs.Document.Description
import Questionnaire.Proofs.Document.Reading
import Questionnaire.Proofs.Lists
import Questionnaire.Proofs.Schema.Acceptance

/-!
# Decoded forms and validated documents

Validation looks at the last member with exactly a name. Decoding takes the last one whose name
matches in any case, and reads it over earlier ones. Forms and statements without faults have no
members but their own, so nothing else matches there. Expressions may have further members, and one
of these can match the name of a member that counts: then the form that is decoded is not the one
that was validated (`Form.decoded_other_than_described`). Where this does not happen, the form that
is decoded is the one that the document describes (`Form.describedBy_of_decode`).

What was read over earlier members makes no difference: a valid expression or statement gives all
the members of its kind, and these are set whatever was there before.
-/

namespace Questionnaire

open Json (member? matching? NamesExact PartOf)

/-! ### Members that count -/

/-- The members that make an expression of a kind. -/
def ExprDoc.membersOf : String → List String
  | "literal" => ["kind", "line", "column", "type", "value"]
  | "reference" => ["kind", "line", "column", "name"]
  | "unary" => ["kind", "line", "column", "operator", "operand"]
  | "binary" => ["kind", "line", "column", "operator", "left", "right"]
  | _ => []

/-- The members of an expression of a kind that are expressions. -/
def ExprDoc.operandsOf : String → List String
  | "unary" => ["operand"]
  | "binary" => ["left", "right"]
  | _ => []

/-- A value stands where a document has a statement: in the list of the form or in a body. -/
inductive StatementIn (doc : Json) : Json → Prop
  | ofForm {members : List (String × Json)} {items : List Json} {j : Json}
      (form : doc = .object members) (hitems : member? "statements" members = some (.array items))
      (mem : j ∈ items) : StatementIn doc j
  | ofBody {members : List (String × Json)} {items : List Json} {j : Json}
      (statement : StatementIn doc (.object members))
      (hitems : member? "body" members = some (.array items)) (mem : j ∈ items) : StatementIn doc j

/-- A value stands where a document has an expression: under a statement, or as an operand of an
expression whose kind has such an operand. -/
inductive ExpressionIn (doc : Json) : Json → Prop
  | ofStatement {members : List (String × Json)} {name : String} {j : Json}
      (statement : StatementIn doc (.object members)) (hname : name ∈ ["expression", "guard"])
      (hj : member? name members = some j) : ExpressionIn doc j
  | ofOperand {members : List (String × Json)} {kind name : String} {j : Json}
      (expression : ExpressionIn doc (.object members))
      (hkind : member? "kind" members = some (.string kind))
      (hname : name ∈ ExprDoc.operandsOf kind) (hj : member? name members = some j) :
      ExpressionIn doc j

/-- In the expressions of a document, case makes no difference to the members that count. -/
def ExpressionsExact (doc : Json) : Prop :=
  ∀ members kind, ExpressionIn doc (.object members) →
    member? "kind" members = some (.string kind) → NamesExact (ExprDoc.membersOf kind) members

theorem StatementIn.partOf {doc j : Json} (h : StatementIn doc j) : PartOf j doc := by
  induction h with
  | ofForm form hitems mem =>
    subst form
    exact (PartOf.of_childOf (.item mem)).trans (.of_childOf (.member hitems))
  | ofBody _ hitems mem ih =>
    exact ((PartOf.of_childOf (.item mem)).trans (.of_childOf (.member hitems))).trans ih

theorem ExpressionIn.partOf {doc j : Json} (h : ExpressionIn doc j) : PartOf j doc := by
  induction h with
  | ofStatement statement _ hj => exact (PartOf.of_childOf (.member hj)).trans statement.partOf
  | ofOperand _ _ _ hj ih => exact (PartOf.of_childOf (.member hj)).trans ih

theorem ExprDoc.operandsOf_subset (kind : String) :
    operandsOf kind ⊆ ["operand", "left", "right"] := by
  unfold operandsOf
  split <;> decide

/-- The kind that the members of an object give, empty if they give none. -/
def kindOf (members : List (String × Json)) : String :=
  match (member? "kind" members : Option Json) with
  | some (.string kind) => kind
  | _ => ""

theorem kindOf_eq {members : List (String × Json)} {kind : String}
    (h : member? "kind" members = some (.string kind)) : kindOf members = kind := by
  rw [kindOf, h]

/-- The objects that are written in a document under the names of expressions. All that stand in the
place of an expression are among them. -/
def expressionObjects (doc : Json) : List (List (String × Json)) :=
  doc.objects.flatMap fun members ↦
    ["expression", "guard", "operand", "left", "right"].filterMap fun name ↦
      match (member? name members : Option Json) with
      | some (.object inner) => some inner
      | _ => none

theorem mem_expressionObjects {doc : Json} {members : List (String × Json)}
    (h : ExpressionIn doc (.object members)) : members ∈ expressionObjects doc := by
  obtain ⟨outer, name, hpart, hname, hj⟩ : ∃ outer name, PartOf (.object outer) doc ∧
      name ∈ ["expression", "guard", "operand", "left", "right"] ∧
      member? name outer = some (.object members) := by
    cases h with
    | ofStatement statement hname hj =>
      exact ⟨_, _, statement.partOf, List.mem_append_left ["operand", "left", "right"] hname, hj⟩
    | ofOperand expression _ hname hj =>
      exact ⟨_, _, expression.partOf,
        List.mem_append_right ["expression", "guard"] (ExprDoc.operandsOf_subset _ hname), hj⟩
  refine List.mem_flatMap.2 ⟨_, Json.mem_objects_of_partOf hpart, ?_⟩
  exact List.mem_filterMap.2 ⟨name, hname, by rw [hj]⟩

/-- Case makes no difference when no member of an expression differs from one that counts in case
alone. -/
theorem expressionsExact_of_forall {doc : Json}
    (h : ∀ members ∈ expressionObjects doc,
      ∀ name ∈ ExprDoc.membersOf (kindOf members), ∀ m ∈ members,
        Json.foldName m.1 = Json.foldName name → m.1 = name) :
    ExpressionsExact doc := by
  intro members kind hin hkind name hname
  refine Json.matching?_eq_member? (h members (mem_expressionObjects hin) name ?_)
  rwa [kindOf_eq hkind]

/-! ### Single members -/

variable {integer : Json.Numeral → Prop}

/-- A position that is read from the head of an object is the one given there. -/
theorem Position.describedBy_of_reads {members : List (String × Json)} {kind : String}
    {p : Position} (head : Schema.HasHead integer kind members)
    (hline : ∀ j, member? "line" members = some j → (DocPart.word p.line).ReadFrom j)
    (hcolumn : ∀ j, member? "column" members = some j → (DocPart.word p.column).ReadFrom j) :
    p.DescribedBy members := by
  obtain ⟨j, hj, ⟨hn, -⟩⟩ := head.line
  obtain ⟨k, hk, ⟨hm, -⟩⟩ := head.column
  have hlineWord := DocPart.word_readFrom_number.1 (hline _ hj)
  have hcolumnWord := DocPart.word_readFrom_number.1 (hcolumn _ hk)
  exact ⟨⟨_, hj, Json.Numeral.value_eq_of_toInt64? hlineWord⟩,
    ⟨_, hk, Json.Numeral.value_eq_of_toInt64? hcolumnWord⟩⟩

/-- The words of the document format are the keywords of the declarable types. -/
theorem ValueType.exists_keyword_eq {s : String}
    (h : s ∈ ["boolean", "integer", "decimal", "string"]) :
    ∃ t ∈ declarable, t.keyword = s ∧ ofKeyword? s = some t := by
  simp only [List.mem_cons, List.not_mem_nil, or_false] at h
  rcases h with rfl | rfl | rfl | rfl
  · exact ⟨.boolean, by decide, by decide, by decide⟩
  · exact ⟨.integer, by decide, by decide, by decide⟩
  · exact ⟨.decimal, by decide, by decide, by decide⟩
  · exact ⟨.string, by decide, by decide, by decide⟩

/-- A literal that is made from a value of its type is the one given by the value. -/
theorem Literal.describedBy_of_literalOf {word : String} {j : Json} {t : ValueType} {v : Literal}
    (hvalid : Schema.IsLiteral integer word j) (ht : ValueType.ofKeyword? word = some t)
    (hv : ExprDoc.literalOf t j = .ok v) : t.keyword = word ∧ v.DescribedBy t j := by
  cases hvalid with
  | boolean =>
    obtain rfl : t = .boolean := Option.some.inj (ht.symm.trans (by decide))
    cases hv
    exact ⟨by decide, .boolean⟩
  | @integer n _ =>
    obtain rfl : t = .integer := Option.some.inj (ht.symm.trans (by decide))
    cases hn : n.toInt64? with
    | none => simp [ExprDoc.literalOf, Json.readInt64, hn] at hv
    | some i =>
      simp only [ExprDoc.literalOf, Json.readInt64, hn, ExprDoc.makeLiteral_ok,
        Except.ok.injEq] at hv
      subst hv
      exact ⟨by decide, .integer (Json.Numeral.value_eq_of_toInt64? hn)⟩
  | @decimal n =>
    obtain rfl : t = .decimal := Option.some.inj (ht.symm.trans (by decide))
    by_cases hfinite : n.toBinary64.isFinite
    · simp only [ExprDoc.literalOf, Json.readBinary64, hfinite, if_true, ExprDoc.makeLiteral_ok,
        Except.ok.injEq] at hv
      subst hv
      exact ⟨by decide, .decimal hfinite⟩
    · simp [ExprDoc.literalOf, Json.readBinary64, hfinite] at hv
  | string =>
    obtain rfl : t = .string := Option.some.inj (ht.symm.trans (by decide))
    cases hv
    exact ⟨by decide, .string⟩

/-! ### Expressions -/

/-- **An expression object is read** from the members that count, as they are named. -/
theorem ExprDoc.exists_node_of_read {old d : ExprDoc} {members : List (String × Json)}
    {kind : String} (hread : read old (.object members) = .ok d)
    (head : Schema.HasHead integer kind members) (hexact : NamesExact (membersOf kind) members)
    (hmembers : ["kind", "line", "column"] ⊆ membersOf kind) :
    ∃ h x l r, d = node h x l r ∧ h.kind = kind ∧
      (⟨h.line, h.column⟩ : Position).DescribedBy members ∧
      ∀ name f j, (name, f) ∈ ExprField.byName → name ∈ membersOf kind →
        member? name members = some j → ((node h x l r).part f).ReadFrom j := by
  obtain ⟨hne, hparts⟩ := part_of_read hread
  cases d with
  | absent => exact absurd rfl hne
  | node h x l r =>
    have hparts' : ∀ name f j, (name, f) ∈ ExprField.byName → name ∈ membersOf kind →
        member? name members = some j → ((node h x l r).part f).ReadFrom j := by
      intro name f j hf hname hj
      exact hparts name f hf j ((hexact name hname).trans hj)
    have hkind := hparts' "kind" .kind _ (by decide) (hmembers (by simp)) head.kind
    refine ⟨h, x, l, r, rfl, DocPart.text_readFrom_string.1 hkind, ?_, hparts'⟩
    exact Position.describedBy_of_reads head
      (fun j hj ↦ hparts' "line" .line j (by decide) (hmembers (by simp)) hj)
      (fun j hj ↦ hparts' "column" .column j (by decide) (hmembers (by simp)) hj)

/-- **A valid expression** that is read and decoded is the one that its value describes. -/
theorem Expr.describedBy_of_decodes {doc j : Json} (hexact : ExpressionsExact doc)
    (hvalid : Schema.IsExpression integer j) : ∀ {old d e}, ExpressionIn doc j →
      ExprDoc.read old j = .ok d → d.Decodes e → e.DescribedBy j := by
  induction hvalid with
  | literal head htype hvalue hliteral =>
    intro old d e hin hread hdecodes
    obtain ⟨h, x, l, r, rfl, hkind, hpos, hparts⟩ := ExprDoc.exists_node_of_read hread head
      (hexact _ _ hin head.kind) (by decide)
    cases hdecodes with
    | literal _ value =>
      obtain ⟨k, t, hk, ht, hv⟩ := value
      have hword := hparts "type" .type _ (by decide) (by decide) htype
      have hkept := hparts "value" .value _ (by decide) (by decide) hvalue
      rw [DocPart.text_readFrom_string.1 hword] at ht
      obtain rfl := Option.some.inj (hk.symm.trans hkept)
      obtain ⟨rfl, hdescribes⟩ := Literal.describedBy_of_literalOf hliteral ht hv
      exact .literal head.kind hpos htype hvalue hdescribes
    | _ => simp_all
  | reference head hname nonempty =>
    intro old d e hin hread hdecodes
    obtain ⟨h, x, l, r, rfl, hkind, hpos, hparts⟩ := ExprDoc.exists_node_of_read hread head
      (hexact _ _ hin head.kind) (by decide)
    cases hdecodes with
    | reference _ _ =>
      have hword := hparts "name" .name _ (by decide) (by decide) hname
      rw [DocPart.text_readFrom_string.1 hword]
      exact .reference head.kind hpos hname
    | _ => simp_all
  | unary head hoperator known hoperand _ ih =>
    intro old d e hin hread hdecodes
    obtain ⟨h, x, l, r, rfl, hkind, hpos, hparts⟩ := ExprDoc.exists_node_of_read hread head
      (hexact _ _ hin head.kind) (by decide)
    cases hdecodes with
    | unary _ operator decodes =>
      have hsymbol := hparts "operator" .operator _ (by decide) (by decide) hoperator
      obtain ⟨old', hx⟩ := hparts "operand" .operand _ (by decide) (by decide) hoperand
      rw [DocPart.text_readFrom_string.1 hsymbol] at operator
      obtain ⟨hop, rfl⟩ := UnaryOp.ofSymbol?_eq_some operator
      have hinner := ExpressionIn.ofOperand hin head.kind (by decide) hoperand
      exact .unary head.kind hpos hoperator hop hoperand (ih hinner hx decodes)
    | _ => simp_all
  | binary head hoperator known hleft _ hright _ ihl ihr =>
    intro old d e hin hread hdecodes
    obtain ⟨h, x, l, r, rfl, hkind, hpos, hparts⟩ := ExprDoc.exists_node_of_read hread head
      (hexact _ _ hin head.kind) (by decide)
    cases hdecodes with
    | binary _ operator decodesLeft decodesRight =>
      have hsymbol := hparts "operator" .operator _ (by decide) (by decide) hoperator
      obtain ⟨oldLeft, hl⟩ := hparts "left" .left _ (by decide) (by decide) hleft
      obtain ⟨oldRight, hr⟩ := hparts "right" .right _ (by decide) (by decide) hright
      rw [DocPart.text_readFrom_string.1 hsymbol] at operator
      obtain ⟨hop, rfl⟩ := BinaryOp.ofSymbol?_eq_some operator
      have hinLeft := ExpressionIn.ofOperand hin head.kind (by decide) hleft
      have hinRight := ExpressionIn.ofOperand hin head.kind (by decide) hright
      exact .binary head.kind hpos hoperator hop hleft (ihl hinLeft hl decodesLeft) hright
        (ihr hinRight hr decodesRight)
    | _ => simp_all

/-! ### Statements -/

/-- **A statement object is read** from its members as they are named, when it has no others. -/
theorem StatementDoc.parts_of_read {old : StatementDoc} {h : StatementHead} {e g : ExprDoc}
    {body spare : List StatementDoc} {members : List (String × Json)} {kind : String}
    {names : List String} (hread : read old (.object members) = .ok (mk h e g body spare))
    (head : Schema.HasHead integer kind members) (honly : Schema.HasOnly names members)
    (hnames : (names.map Json.foldName).Nodup) (hmembers : ["kind", "line", "column"] ⊆ names) :
    h.kind = kind ∧ (⟨h.line, h.column⟩ : Position).DescribedBy members ∧
      ∀ name f j, (name, f) ∈ StatementField.byName → name ∈ names →
        member? name members = some j → ((mk h e g body spare).part f).ReadFrom j := by
  have hparts : ∀ name f j, (name, f) ∈ StatementField.byName → name ∈ names →
      member? name members = some j → ((mk h e g body spare).part f).ReadFrom j := by
    intro name f j hf hname hj
    have hexact := Json.namesExact_of_forall_mem hnames honly name hname
    exact part_of_read hread name f hf j (hexact.trans hj)
  have hkind := hparts "kind" .kind _ (by decide) (hmembers (by simp)) head.kind
  refine ⟨DocPart.text_readFrom_string.1 hkind, ?_, hparts⟩
  exact Position.describedBy_of_reads head
    (fun j hj ↦ hparts "line" .line j (by decide) (hmembers (by simp)) hj)
    (fun j hj ↦ hparts "column" .column j (by decide) (hmembers (by simp)) hj)

/-- A question that is read and decoded is the one that the members declare. -/
theorem Question.describedBy_of_declares {members : List (String × Json)} {h : StatementHead}
    {q : Question} (hvalid : Schema.Declares members) (hdeclares : h.Declares q)
    (hpos : (⟨h.line, h.column⟩ : Position).DescribedBy members)
    (hid : ∀ j, member? "id" members = some j → (DocPart.text h.id).ReadFrom j)
    (htype : ∀ j, member? "type" members = some j → (DocPart.text h.type).ReadFrom j)
    (hlabel : ∀ j, member? "label" members = some j → (DocPart.text h.label).ReadFrom j) :
    q.DescribedBy members := by
  obtain ⟨id, hmemberId, -⟩ := hvalid.id
  obtain ⟨word, hword, hmemberType⟩ := hvalid.type
  obtain ⟨label, hmemberLabel⟩ := hvalid.label
  have hidRead := DocPart.text_readFrom_string.1 (hid _ hmemberId)
  have htypeRead := DocPart.text_readFrom_string.1 (htype _ hmemberType)
  have hlabelRead := DocPart.text_readFrom_string.1 (hlabel _ hmemberLabel)
  obtain ⟨t, ht, hkeyword, hof⟩ := ValueType.exists_keyword_eq hword
  have htypes : q.type = t := by
    have hq := hdeclares.type
    rw [htypeRead, hof] at hq
    exact (Option.some.inj hq).symm
  refine ⟨hdeclares.pos ▸ hpos, ?_, ⟨htypes ▸ ht, ?_⟩, ?_⟩
  · rw [hdeclares.id.2, hidRead, hmemberId]
  · rw [htypes, hkeyword, hmemberType]
  · rw [hdeclares.label, hlabelRead, hmemberLabel]

/-- **A valid statement** that is read and decoded is the one that its value describes. -/
theorem Statement.describedBy_of_decodes {doc j : Json} (hexact : ExpressionsExact doc)
    (hvalid : Schema.IsStatement integer j) : ∀ {old d s}, StatementIn doc j →
      StatementDoc.read old j = .ok d → d.Decodes s → s.DescribedBy j := by
  induction hvalid with
  | question head declares only =>
    rintro old ⟨h, e, g, body, spare⟩ s hin hread hdecodes
    obtain ⟨hkind, hpos, hparts⟩ :=
      StatementDoc.parts_of_read hread head only (by decide) (by decide)
    cases hdecodes with
    | question _ hdeclares =>
      refine .question head.kind (Question.describedBy_of_declares declares hdeclares hpos ?_ ?_ ?_)
      · exact fun j ↦ hparts "id" .id j (by decide) (by decide)
      · exact fun j ↦ hparts "type" .type j (by decide) (by decide)
      · exact fun j ↦ hparts "label" .label j (by decide) (by decide)
    | _ => simp_all
  | calculated head declares hexpression expressionValid only =>
    rintro old ⟨h, e, g, body, spare⟩ s hin hread hdecodes
    obtain ⟨hkind, hpos, hparts⟩ :=
      StatementDoc.parts_of_read hread head only (by decide) (by decide)
    cases hdecodes with
    | calculated _ hdeclares decodes =>
      obtain ⟨old', he⟩ := hparts "expression" .expression _ (by decide) (by decide) hexpression
      have hinner := ExpressionIn.ofStatement hin (by decide) hexpression
      refine .calculated head.kind
        (Question.describedBy_of_declares declares hdeclares hpos ?_ ?_ ?_) hexpression
        (Expr.describedBy_of_decodes hexact expressionValid hinner he decodes)
      · exact fun j ↦ hparts "id" .id j (by decide) (by decide)
      · exact fun j ↦ hparts "type" .type j (by decide) (by decide)
      · exact fun j ↦ hparts "label" .label j (by decide) (by decide)
    | _ => simp_all
  | condition head hguard guardValid hbody _ only ih =>
    rintro old ⟨h, e, g, body, spare⟩ s hin hread hdecodes
    obtain ⟨hkind, hpos, hparts⟩ :=
      StatementDoc.parts_of_read hread head only (by decide) (by decide)
    cases hdecodes with
    | condition _ decodesGuard decodesBody =>
      obtain ⟨old', hg⟩ := hparts "guard" .guard _ (by decide) (by decide) hguard
      obtain ⟨earlier, hitems⟩ := hparts "body" .body _ (by decide) (by decide) hbody
      have hinner := ExpressionIn.ofStatement hin (by decide) hguard
      refine .condition head.kind hpos hguard
        (Expr.describedBy_of_decodes hexact guardValid hinner hg decodesGuard) hbody ?_
      refine forall₂_comp (fun k hk d s hd hs ↦ ?_) (StatementDoc.readList_eq_ok hitems) decodesBody
      obtain ⟨old', hread'⟩ := hd
      exact ih k hk (.ofBody hin hbody hk) hread' hs
    | _ => simp_all

/-! ### Forms -/

/-- A text of a form that is read from the members of a valid one is the one given there. -/
theorem TextGiven.of_reads {members : List (String × Json)} {name s : String}
    (hvalid : ∀ j, member? name members = some j → ∃ t, j = .string t)
    (hsome : ∀ j, member? name members = some j → (DocPart.text s).ReadFrom j)
    (hnone : member? name members = none → DocPart.text s = DocPart.text "") :
    TextGiven name members s := by
  cases hj : member? name members with
  | none => exact Or.inr ⟨hj, DocPart.text.inj (hnone hj)⟩
  | some j =>
    obtain ⟨t, rfl⟩ := hvalid j hj
    rw [DocPart.text_readFrom_string.1 (hsome _ hj)]
    exact Or.inl hj

/-- **A valid form** that is read and decoded is the one that its document describes. -/
theorem Form.describedBy_of_isForm {doc : Json} {d : FormDoc} {f : Form}
    (hexact : ExpressionsExact doc) (hvalid : Schema.IsForm integer doc)
    (hread : FormDoc.ofJson doc = .ok d) (hname : f.name = d.name) (hfile : f.file = d.file)
    (hdecodes : List.Forall₂ StatementDoc.Decodes d.statements.items f.statements) :
    f.DescribedBy doc := by
  obtain ⟨hstatements, statementsValid, nameValid, fileValid, only⟩ := hvalid
  rename_i members items
  have hfold : FormDoc.readMembers {} members = .ok d := by
    cases hmembers : FormDoc.readMembers {} members with
    | error e => simp [FormDoc.ofJson, hmembers] at hread
    | ok d' => simpa [FormDoc.ofJson, hmembers] using hread
  have hnames := Json.namesExact_of_forall_mem (by decide) only
  obtain ⟨-, hparts⟩ := (FormDoc.readsFields.readIn _).foldlM_eq_ok trivial hfold
  have hpartName := hparts "name" .name (by decide)
  have hpartFile := hparts "file" .file (by decide)
  have hpartStatements := (hparts "statements" .statements (by decide)).1
  rw [hnames _ (by decide)] at hpartName hpartFile hpartStatements
  obtain ⟨earlier, hitems⟩ := hpartStatements _ hstatements
  refine .mk ?_ ?_ hstatements ?_
  · rw [hname]
    exact .of_reads nameValid hpartName.1 hpartName.2
  · rw [hfile]
    exact .of_reads fileValid hpartFile.1 hpartFile.2
  · refine forall₂_comp (fun j hj d s hd hs ↦ ?_) (StatementDoc.readList_eq_ok hitems) hdecodes
    obtain ⟨old, hread'⟩ := hd
    exact Statement.describedBy_of_decodes hexact (statementsValid j hj)
      (.ofForm rfl hstatements hj) hread' hs

/-- The document of a text without errors is a form of the grammar. -/
theorem Schema.Validator.isForm_of_validateText {v : Validator} {text : List Char} {doc : Json}
    (himplements : v.Implements formSchema) (hparse : Json.parseChars text = some doc)
    (hvalid : v.validateText text = []) : IsForm (fun n ↦ n.isInteger) doc := by
  rw [validateText, hparse] at hvalid
  exact (failures_form_eq_nil_iff fun _ _ ↦ Iff.rfl).1
    ((validateDocument_eq_nil_iff himplements).1 hvalid)

/-- **What is validated is what is decoded**, where case makes no difference to the members that
count: the form that a text without errors is decoded to is the one form that its document
describes. -/
theorem Form.describedBy_of_decode {v : Schema.Validator} {text : List Char} {doc : Json} {f : Form}
    (himplements : v.Implements Schema.formSchema) (hparse : Json.parseChars text = some doc)
    (hvalid : v.validateText text = []) (hdecode : Form.decode text = .ok f)
    (hexact : ExpressionsExact doc) : f.DescribedBy doc ∧ ∀ f', f'.DescribedBy doc → f' = f := by
  obtain ⟨j, d, hj, hread, hname, hfile, hdecodes⟩ := Form.decode_eq_ok_iff.1 hdecode
  obtain rfl := Option.some.inj (hj.symm.trans hparse)
  have hform := Schema.Validator.isForm_of_validateText himplements hparse hvalid
  have hdescribed := Form.describedBy_of_isForm hexact hform hread hname hfile hdecodes
  exact ⟨hdescribed, fun f' hf' ↦ hf'.unique hdescribed⟩

/-! ### Two documents -/

-- a text is read one call deeper for each of its characters
set_option maxRecDepth 4000

/-- A calculated question with two expressions, the second of which counts and has a member that no
literal needs. -/
def expressionTwice : String :=
  "\x7b\"statements\":[\x7b\"kind\":\"calculated\",\"line\":1,\"column\":1,
   \"id\":\"a\",\"type\":\"integer\",\"label\":\"\",
   \"expression\":\x7b\"kind\":\"reference\",\"line\":1,\"column\":9,\"name\":\"b\"\x7d,
   \"expression\":\x7b\"kind\":\"literal\",\"line\":1,\"column\":20,\"type\":\"integer\",
   \"value\":3,\"note\":null\x7d\x7d]\x7d"

/-- An object with a kind, a position and further members. -/
def headed (kind : String) (line column : Int) (rest : List (String × Json)) : Json :=
  .object (("kind", .string kind) :: ("line", .int line) :: ("column", .int column) :: rest)

/-- A calculated question with some expressions. -/
def calculatedDocument (expressions : List Json) : Json :=
  .object [("statements", .array [headed "calculated" 1 1
    (("id", .string "a") :: ("type", .string "integer") :: ("label", .string "") ::
      expressions.map fun e ↦ ("expression", e))])]

theorem parse_expressionTwice : Json.parseChars expressionTwice.toList = some (calculatedDocument
    [headed "reference" 1 9 [("name", .string "b")],
      headed "literal" 1 20
        [("type", .string "integer"), ("value", .int 3), ("note", .null)]]) := by
  rw [expressionTwice, String.toList_ofList]
  rfl

theorem Form.describedBy_expressionTwice :
    ∃ doc f, Json.parseChars expressionTwice.toList = some doc ∧
      Schema.Validator.standard.validateText expressionTwice.toList = [] ∧
      Form.decode expressionTwice.toList = .ok f ∧ f.DescribedBy doc := by
  have hvalid : Schema.Validator.standard.validateText expressionTwice.toList = [] := by
    rw [Schema.Validator.validateText, parse_expressionTwice]
    decide +kernel
  obtain ⟨f, hdecode⟩ : ∃ f, Form.decode expressionTwice.toList = .ok f := by
    apply exists_eq_ok_of_isOk
    rw [Form.decode, parse_expressionTwice]
    decide +kernel
  have hdescribed := describedBy_of_decode Schema.standard_implements parse_expressionTwice hvalid
    hdecode (expressionsExact_of_forall (by decide +kernel))
  exact ⟨_, f, parse_expressionTwice, hvalid, hdecode, hdescribed.1⟩

/-- A calculated question that refers to `b`, or to `c` where case does not count. -/
def nameTwice : String :=
  "\x7b\"statements\":[\x7b\"kind\":\"calculated\",\"line\":1,\"column\":1,
   \"id\":\"a\",\"type\":\"integer\",\"label\":\"\",
   \"expression\":\x7b\"kind\":\"reference\",\"line\":1,\"column\":9,
   \"name\":\"b\",\"NAME\":\"c\"\x7d\x7d]\x7d"

/-- The expression in `nameTwice`. -/
def referenceTwice : Json :=
  headed "reference" 1 9 [("name", .string "b"), ("NAME", .string "c")]

theorem parse_nameTwice :
    Json.parseChars nameTwice.toList = some (calculatedDocument [referenceTwice]) := by
  rw [nameTwice, String.toList_ofList]
  rfl

/-- A position that is given by plain integers. -/
theorem Position.describedBy_of_ints {members : List (String × Json)} {line column : Int}
    {p : Position} (hline : member? "line" members = some (.int line))
    (hcolumn : member? "column" members = some (.int column))
    (hlineWord : (Json.Numeral.ofInt line).toInt64? = some p.line)
    (hcolumnWord : (Json.Numeral.ofInt column).toInt64? = some p.column) :
    p.DescribedBy members :=
  ⟨⟨_, hline, Json.Numeral.value_eq_of_toInt64? hlineWord⟩,
    ⟨_, hcolumn, Json.Numeral.value_eq_of_toInt64? hcolumnWord⟩⟩

/-- **What is validated is not always what is decoded.** The document describes a form in which `a`
depends on `b`, it has no errors, and it is decoded to a form in which `a` depends on `c`. -/
theorem Form.decoded_other_than_described :
    ∃ (doc : Json) (f f' : Form), Json.parseChars nameTwice.toList = some doc ∧
      Schema.Validator.standard.validateText nameTwice.toList = [] ∧
      Form.decode nameTwice.toList = .ok f ∧
      f.dependents = [⟨"a", ⟨1, 1⟩, ["c"]⟩] ∧ f'.DescribedBy doc ∧
      f'.dependents = [⟨"a", ⟨1, 1⟩, ["b"]⟩] ∧ ¬ f.DescribedBy doc := by
  have hvalid : Schema.Validator.standard.validateText nameTwice.toList = [] := by
    rw [Schema.Validator.validateText, parse_nameTwice]
    decide +kernel
  have hread : (Form.decode nameTwice.toList).map Form.dependents =
      .ok [⟨"a", ⟨1, 1⟩, ["c"]⟩] := by
    rw [Form.decode, parse_nameTwice]
    decide +kernel
  obtain ⟨f, hdecode, hf⟩ := map_eq_ok_iff.1 hread
  let described : Form :=
    { statements := [.calculated { pos := ⟨1, 1⟩, id := "a", type := .integer }
        (.reference ⟨1, 9⟩ "b")] }
  have hdepends : described.dependents = [⟨"a", ⟨1, 1⟩, ["b"]⟩] := by decide
  have hdescribed : described.DescribedBy (calculatedDocument [referenceTwice]) := by
    refine .mk (.inr ⟨rfl, rfl⟩) (.inr ⟨rfl, rfl⟩) rfl (.cons (.calculated rfl ?_ rfl ?_) .nil)
    · refine ⟨?_, rfl, ⟨by decide, rfl⟩, rfl⟩
      exact Position.describedBy_of_ints rfl rfl (by decide) (by decide)
    · refine .reference rfl ?_ rfl
      exact Position.describedBy_of_ints rfl rfl (by decide) (by decide)
  refine ⟨_, f, described, parse_nameTwice, hvalid, hdecode, hf, hdescribed, hdepends, ?_⟩
  intro hdoc
  rw [hdoc.unique hdescribed, hdepends] at hf
  exact absurd hf (by decide)

end Questionnaire
