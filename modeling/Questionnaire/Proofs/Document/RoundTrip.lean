import Questionnaire.Proofs.Document.Canonical
import Questionnaire.Proofs.Document.Writing
import Questionnaire.Proofs.Text.Utf8

/-!
# Decoding what is written

A form that is written as a document and decoded again is the same form (`Form.decode_written`). The
members that are written are read into the fields that they are named for, whatever their order is
and whatever the record held before, and what is read decodes to what was written: for expressions
by induction over them (`Expr.WrittenAs.decodes`), for statements by induction over lists of them
and their blocks (`Statement.readBack`).
-/

namespace Questionnaire

open Json (matching?)

/-! ### Members that are read -/

theorem takes_text (s : String) : PartSort.text.Takes (.string s) :=
  ⟨s, rfl⟩

theorem takes_word (i : Int64) : PartSort.word.Takes (.int i.toInt) :=
  ⟨_, i, rfl, Json.Numeral.toInt64?_ofInt i⟩

/-- A word that is read from the spelling of one is this one. -/
theorem word_readFrom_int {i k : Int64} (h : (DocPart.word k).ReadFrom (.int i.toInt)) : k = i := by
  have hread := DocPart.word_readFrom_number.1 h
  exact Option.some.inj (hread.symm.trans (Json.Numeral.toInt64?_ofInt i))

section Members

variable {F : Type} {table : List (String × F)} {sort : F → PartSort}

/-- A member whose value is of the sort of its field, if it has one. -/
def Suits (table : List (String × F)) (sort : F → PartSort) (m : String × Json) : Prop :=
  ∀ f, Json.field? table m.1 = some f → (sort f).Takes m.2

theorem suits_of_mem (htable : Json.IsTable table) {name : String} {j : Json} (f : F)
    (hmem : (name, f) ∈ table) (htakes : (sort f).Takes j) : Suits table sort (name, j) := by
  intro g hg
  rw [← Option.some.inj (((htable.field?_eq_some_iff hmem).2 rfl).symm.trans hg)]
  exact htakes

/-- All members of an object are suitable when those behind its head are. -/
theorem suits_of_perm (htable : Json.IsTable table)
    (hhead : ∀ p ∈ headParts, ∃ q ∈ table, q.1 = p.1 ∧ sort q.2 = p.2) {kind : String}
    {p : Position} {members rest : List (String × Json)}
    (holds : members.Perm (headMembers kind p ++ rest))
    (hrest : ∀ m ∈ rest, Suits table sort m) : ∀ m ∈ members, Suits table sort m := by
  have hsuits : ∀ name part j, (name, part) ∈ headParts → part.Takes j →
      Suits table sort (name, j) := by
    intro name part j hpart htakes
    obtain ⟨⟨n, f⟩, hf, hname, hsort⟩ := hhead _ hpart
    obtain rfl : n = name := hname
    exact suits_of_mem htable f hf (hsort ▸ htakes)
  intro m hm
  have hm := holds.mem_iff.1 hm
  simp only [headMembers, List.cons_append, List.nil_append, List.mem_cons] at hm
  rcases hm with rfl | rfl | rfl | hm
  · exact hsuits "kind" .text _ (by decide) (takes_text kind)
  · exact hsuits "line" .word _ (by decide) (takes_word p.line)
  · exact hsuits "column" .word _ (by decide) (takes_word p.column)
  · exact hrest m hm

/-- The members of an object with a head are found by their names. -/
theorem matching?_of_headed {names : List String} {kind : String} {p : Position}
    {members rest : List (String × Json)} (holds : members.Perm (headMembers kind p ++ rest))
    (hrest : rest.map Prod.fst = names)
    (hnames : ((headParts.map Prod.fst ++ names).map Json.foldName).Nodup)
    {name : String} {j : Json} (hmem : (name, j) ∈ headMembers kind p ++ rest) :
    matching? name members = some j := by
  refine Json.matching?_of_perm holds ?_ hmem
  rw [List.map_append, hrest]
  exact hnames

end Members

/-! ### Expressions -/

theorem ExprDoc.suits {name : String} {j : Json} (f : ExprField)
    (hmem : (name, f) ∈ ExprField.byName) (htakes : f.sort.Takes j) :
    Suits ExprField.byName ExprField.sort (name, j) :=
  suits_of_mem isTable_byName f hmem htakes

/-- An expression can be read if the members behind its head are suitable. -/
theorem ExprDoc.exists_read_of_perm {kind : String} {p : Position}
    {members rest : List (String × Json)} (holds : members.Perm (headMembers kind p ++ rest))
    (hrest : ∀ m ∈ rest, Suits ExprField.byName ExprField.sort m) :
    PartSort.expression.Takes (.object members) :=
  exists_read (suits_of_perm isTable_byName (by decide) holds hrest)

/-- **The parts of an expression** that has a head and the members of its kind. -/
theorem ExprDoc.parts_of_perm (names : List String) {kind : String} {p : Position}
    {members rest : List (String × Json)} (holds : members.Perm (headMembers kind p ++ rest))
    (hrest : rest.map Prod.fst = names)
    (hnames : ((headParts.map Prod.fst ++ names).map Json.foldName).Nodup) {old d : ExprDoc}
    (hread : read old (.object members) = .ok d) :
    ∃ h x l r, d = node h x l r ∧ h.kind = kind ∧ (⟨h.line, h.column⟩ : Position) = p ∧
      ∀ name f j, (name, f) ∈ ExprField.byName → (name, j) ∈ rest →
        ((node h x l r).part f).ReadFrom j := by
  obtain ⟨hne, hparts⟩ := part_of_read hread
  cases d with
  | absent => exact absurd rfl hne
  | node h x l r =>
    have hpart : ∀ name f j, (name, f) ∈ ExprField.byName →
        (name, j) ∈ headMembers kind p ++ rest → ((node h x l r).part f).ReadFrom j :=
      fun name f j hf hj ↦ hparts name f hf j (matching?_of_headed holds hrest hnames hj)
    have hkind := hpart "kind" .kind (.string kind) (by decide) (by simp [headMembers])
    have hline := hpart "line" .line (.int p.line.toInt) (by decide) (by simp [headMembers])
    have hcolumn := hpart "column" .column (.int p.column.toInt) (by decide) (by simp [headMembers])
    refine ⟨h, x, l, r, rfl, DocPart.text_readFrom_string.1 hkind, ?_, fun name f j hf hj ↦
      hpart name f j hf (List.mem_append_right _ hj)⟩
    exact congrArg₂ Position.mk (word_readFrom_int hline) (word_readFrom_int hcolumn)

theorem UnaryOp.ofSymbol?_symbol {op : UnaryOp} (h : op ∈ all) : ofSymbol? op.symbol = some op := by
  revert op
  decide

theorem BinaryOp.ofSymbol?_symbol {op : BinaryOp} (h : op ∈ all) :
    ofSymbol? op.symbol = some op := by
  revert op
  decide

theorem ValueType.ofKeyword?_keyword {t : ValueType} (h : t ∈ declarable) :
    ofKeyword? t.keyword = some t := by
  revert t
  decide

/-- A literal is what its value stands for. -/
theorem Literal.WrittenAs.literalOf {p : Position} {v : Literal} {j : Json} (h : v.WrittenAs j)
    (hfinite : (Expr.literal p v).DecimalsFinite) : ExprDoc.literalOf v.type j = .ok v := by
  cases h with
  | boolean => rfl
  | @integer i =>
    simp [ExprDoc.literalOf, Literal.type, Json.readInt64, Json.int, Json.Numeral.toInt64?_ofInt]
  | @decimal x _ _ readsBack =>
    have hx : x.isFinite := hfinite p x .self
    simp [ExprDoc.literalOf, Literal.type, Json.readBinary64, readsBack, hx]
  | string => rfl

theorem Literal.type_mem_declarable (v : Literal) : v.type ∈ ValueType.declarable := by
  cases v <;> simp [Literal.type, ValueType.declarable]

/-- **An expression is read back** from what is written for it, over any earlier one. -/
theorem Expr.WrittenAs.decodes {e : Expr} {j : Json} (h : e.WrittenAs j) :
    e.Whole → e.DecimalsFinite →
      PartSort.expression.Takes j ∧ ∀ old d, ExprDoc.read old j = .ok d → d.Decodes e := by
  -- for every `old`: operands are read over what the record held, which need not be nothing
  induction h with
  | @literal p v j members value holds =>
    intro _ hfinite
    constructor
    · refine ExprDoc.exists_read_of_perm holds ?_
      simp only [List.forall_mem_cons]
      exact ⟨ExprDoc.suits .type (by decide) (takes_text _),
        ExprDoc.suits .value (by decide) trivial, by simp⟩
    · intro old d hread
      obtain ⟨h, x, l, r, rfl, hkind, rfl, hpart⟩ :=
        ExprDoc.parts_of_perm ["type", "value"] holds rfl (by decide) hread
      have htype := hpart "type" .type (.string v.type.keyword) (by decide) (by simp)
      have hvalue := hpart "value" .value j (by decide) (by simp)
      refine .literal hkind ⟨j, v.type, hvalue, ?_, value.literalOf hfinite⟩
      rw [DocPart.text_readFrom_string.1 htype]
      exact ValueType.ofKeyword?_keyword v.type_mem_declarable
  | @reference p name members holds =>
    rintro (- | ⟨named⟩) -
    constructor
    · refine ExprDoc.exists_read_of_perm holds ?_
      exact List.forall_mem_singleton.2 (ExprDoc.suits .name (by decide) (takes_text _))
    · intro old d hread
      obtain ⟨h, x, l, r, rfl, hkind, rfl, hpart⟩ :=
        ExprDoc.parts_of_perm ["name"] holds rfl (by decide) hread
      obtain rfl : h.name = name := DocPart.text_readFrom_string.1
        (hpart "name" .name (.string name) (by decide) (by simp))
      exact .reference hkind named
  | @unary p op x j members _ holds ih =>
    rintro (- | - | ⟨known, operand⟩) hfinite
    obtain ⟨htakes, hdecodes⟩ := ih operand fun p x hx ↦ hfinite p x hx.operand
    constructor
    · refine ExprDoc.exists_read_of_perm holds ?_
      simp only [List.forall_mem_cons]
      exact ⟨ExprDoc.suits .operator (by decide) (takes_text _),
        ExprDoc.suits .operand (by decide) htakes, by simp⟩
    · intro old d hread
      obtain ⟨h, x', l, r, rfl, hkind, rfl, hpart⟩ :=
        ExprDoc.parts_of_perm ["operator", "operand"] holds rfl (by decide) hread
      have hop := hpart "operator" .operator (.string op.symbol) (by decide) (by simp)
      obtain ⟨_, hx⟩ := hpart "operand" .operand j (by decide) (by simp)
      refine .unary hkind ?_ (hdecodes _ _ hx)
      rw [DocPart.text_readFrom_string.1 hop]
      exact UnaryOp.ofSymbol?_symbol known
  | @binary p op l r j k members _ _ holds ihl ihr =>
    rintro (- | - | - | ⟨known, left, right⟩) hfinite
    obtain ⟨htakesLeft, hdecodesLeft⟩ := ihl left fun p x hx ↦ hfinite p x hx.left
    obtain ⟨htakesRight, hdecodesRight⟩ := ihr right fun p x hx ↦ hfinite p x hx.right
    constructor
    · refine ExprDoc.exists_read_of_perm holds ?_
      simp only [List.forall_mem_cons]
      exact ⟨ExprDoc.suits .operator (by decide) (takes_text _),
        ExprDoc.suits .left (by decide) htakesLeft, ExprDoc.suits .right (by decide) htakesRight,
        by simp⟩
    · intro old d hread
      obtain ⟨h, x, l', r', rfl, hkind, rfl, hpart⟩ :=
        ExprDoc.parts_of_perm ["operator", "left", "right"] holds rfl (by decide) hread
      have hop := hpart "operator" .operator (.string op.symbol) (by decide) (by simp)
      obtain ⟨_, hl⟩ := hpart "left" .left j (by decide) (by simp)
      obtain ⟨_, hr⟩ := hpart "right" .right k (by decide) (by simp)
      refine .binary hkind ?_ (hdecodesLeft _ _ hl) (hdecodesRight _ _ hr)
      rw [DocPart.text_readFrom_string.1 hop]
      exact BinaryOp.ofSymbol?_symbol known

/-! ### Statements -/

theorem StatementDoc.suits {name : String} {j : Json} (f : StatementField)
    (hmem : (name, f) ∈ StatementField.byName) (htakes : f.sort.Takes j) :
    Suits StatementField.byName StatementField.sort (name, j) :=
  suits_of_mem isTable_byName f hmem htakes

/-- A statement can be read if the members behind its head are suitable. -/
theorem StatementDoc.exists_read_of_perm {kind : String} {p : Position}
    {members rest : List (String × Json)} (holds : members.Perm (headMembers kind p ++ rest))
    (hrest : ∀ m ∈ rest, Suits StatementField.byName StatementField.sort m) :
    ∀ old, ∃ d, read old (.object members) = .ok d :=
  exists_read (suits_of_perm isTable_byName (by decide) holds hrest)

/-- **The parts of a statement** that has a head and the members of its kind. -/
theorem StatementDoc.parts_of_perm (names : List String) {kind : String} {p : Position}
    {members rest : List (String × Json)} (holds : members.Perm (headMembers kind p ++ rest))
    (hrest : rest.map Prod.fst = names)
    (hnames : ((headParts.map Prod.fst ++ names).map Json.foldName).Nodup) {old d : StatementDoc}
    (hread : read old (.object members) = .ok d) :
    ∃ h e g body spare, d = mk h e g body spare ∧ h.kind = kind ∧
      (⟨h.line, h.column⟩ : Position) = p ∧
      ∀ name f j, (name, f) ∈ StatementField.byName → (name, j) ∈ rest →
        ((mk h e g body spare).part f).ReadFrom j := by
  obtain ⟨h, e, g, body, spare⟩ := d
  have hpart : ∀ name f j, (name, f) ∈ StatementField.byName →
      (name, j) ∈ headMembers kind p ++ rest → ((mk h e g body spare).part f).ReadFrom j :=
    fun name f j hf hj ↦ part_of_read hread name f hf j (matching?_of_headed holds hrest hnames hj)
  have hkind := hpart "kind" .kind (.string kind) (by decide) (by simp [headMembers])
  have hline := hpart "line" .line (.int p.line.toInt) (by decide) (by simp [headMembers])
  have hcolumn := hpart "column" .column (.int p.column.toInt) (by decide) (by simp [headMembers])
  refine ⟨h, e, g, body, spare, rfl, DocPart.text_readFrom_string.1 hkind, ?_, fun name f j hf hj ↦
    hpart name f j hf (List.mem_append_right _ hj)⟩
  exact congrArg₂ Position.mk (word_readFrom_int hline) (word_readFrom_int hcolumn)

theorem Question.suits_members (q : Question) :
    ∀ m ∈ q.members, Suits StatementField.byName StatementField.sort m := by
  simp only [Question.members, List.forall_mem_cons]
  exact ⟨StatementDoc.suits .id (by decide) (takes_text _),
    StatementDoc.suits .type (by decide) (takes_text _),
    StatementDoc.suits .label (by decide) (takes_text _), by simp⟩

/-- The members of a question declare it. -/
theorem StatementHead.declares_of_members {q : Question} (hq : q.Whole) {h : StatementHead}
    {e g : ExprDoc} {body spare : List StatementDoc}
    (hpos : (⟨h.line, h.column⟩ : Position) = q.pos)
    (hpart : ∀ name f j, (name, f) ∈ StatementField.byName → (name, j) ∈ q.members →
      ((StatementDoc.mk h e g body spare).part f).ReadFrom j) : h.Declares q := by
  have hid := DocPart.text_readFrom_string.1
    (hpart "id" .id (.string q.id) (by decide) (by simp [Question.members]))
  have htype := DocPart.text_readFrom_string.1
    (hpart "type" .type (.string q.type.keyword) (by decide) (by simp [Question.members]))
  have hlabel := DocPart.text_readFrom_string.1
    (hpart "label" .label (.string q.label) (by decide) (by simp [Question.members]))
  exact ⟨⟨hid ▸ hq.named, hid.symm⟩, htype ▸ ValueType.ofKeyword?_keyword hq.typed, hlabel.symm,
    hpos.symm⟩

/-- Statements are read back from values: these can be read, over any earlier statements, and what
is read decodes to the statements. -/
structure Statement.ReadBack (l : List Statement) (items : List Json) : Prop where
  reads : ∀ j ∈ items, ∀ old, ∃ d, StatementDoc.read old j = .ok d
  decodes : ∀ docs, List.Forall₂ (fun j d ↦ ∃ old, StatementDoc.read old j = .ok d) items docs →
    List.Forall₂ StatementDoc.Decodes docs l

/-- **A statement is read back** from what is written for it, if those of its block are. -/
theorem Statement.WrittenAs.decodes {s : Statement} {j : Json} (h : s.WrittenAs j) (hs : s.Whole)
    (hfinite : s.DecimalsFinite)
    (hbody : ∀ p g body, s = .condition p g body → ∀ items, List.Forall₂ WrittenAs body items →
      ReadBack body items) :
    (∀ old, ∃ d, StatementDoc.read old j = .ok d) ∧
      ∀ old d, StatementDoc.read old j = .ok d → d.Decodes s := by
  cases h with
  | @question q members holds =>
    obtain ⟨declares⟩ := hs
    constructor
    · exact StatementDoc.exists_read_of_perm holds q.suits_members
    · intro old d hread
      obtain ⟨h, e, g, body, spare, rfl, hkind, hpos, hpart⟩ :=
        StatementDoc.parts_of_perm ["id", "type", "label"] holds rfl (by decide) hread
      exact .question hkind (StatementHead.declares_of_members declares hpos hpart)
  | @calculated q value j members written holds =>
    obtain - | ⟨declares, whole⟩ := hs
    obtain ⟨htakes, hdecodes⟩ := written.decodes whole (hfinite value rfl)
    rw [List.append_assoc] at holds
    constructor
    · refine StatementDoc.exists_read_of_perm holds ?_
      exact List.forall_mem_append.2 ⟨q.suits_members, List.forall_mem_singleton.2
        (StatementDoc.suits .expression (by decide) htakes)⟩
    · intro old d hread
      obtain ⟨h, e, g, body, spare, rfl, hkind, hpos, hpart⟩ :=
        StatementDoc.parts_of_perm ["id", "type", "label", "expression"] holds rfl (by decide) hread
      obtain ⟨_, he⟩ := hpart "expression" .expression j (by decide) (by simp)
      exact .calculated hkind (StatementHead.declares_of_members declares hpos
        fun name f j hf hj ↦ hpart name f j hf (List.mem_append_left _ hj)) (hdecodes _ _ he)
  | @condition p g body j items members written inside holds =>
    obtain - | - | ⟨whole⟩ := hs
    obtain ⟨htakes, hdecodes⟩ := written.decodes whole (hfinite g rfl)
    have hback := hbody p g body rfl items inside
    constructor
    · refine StatementDoc.exists_read_of_perm holds ?_
      simp only [List.forall_mem_cons]
      exact ⟨StatementDoc.suits .guard (by decide) htakes,
        StatementDoc.suits .body (by decide) (StatementDoc.exists_readList hback.reads), by simp⟩
    · intro old d hread
      obtain ⟨h, e, g', body', spare, rfl, hkind, rfl, hpart⟩ :=
        StatementDoc.parts_of_perm ["guard", "body"] holds rfl (by decide) hread
      obtain ⟨_, hg⟩ := hpart "guard" .guard j (by decide) (by simp)
      obtain ⟨_, hb⟩ := hpart "body" .body (.array items) (by decide) (by simp)
      exact .condition hkind (hdecodes _ _ hg) (hback.decodes _ (StatementDoc.readList_eq_ok hb))

theorem Statement.ReadBack.cons {s : Statement} {j : Json} {l : List Statement} {items : List Json}
    (hhead : (∀ old, ∃ d, StatementDoc.read old j = .ok d) ∧
      ∀ old d, StatementDoc.read old j = .ok d → d.Decodes s)
    (htail : ReadBack l items) : ReadBack (s :: l) (j :: items) where
  reads := List.forall_mem_cons.2 ⟨hhead.1, htail.reads⟩
  decodes := by
    rintro docs (_ | ⟨⟨old, hread⟩, hrest⟩)
    exact .cons (hhead.2 old _ hread) (htail.decodes _ hrest)

/-- **A list of statements is read back** from what is written for it. -/
theorem Statement.readBack {l : List Statement} :
    (∀ s ∈ nestedAll l, s.Whole ∧ s.DecimalsFinite) →
      ∀ {items}, List.Forall₂ WrittenAs l items → ReadBack l items := by
  induction l using Statement.listInduction with
  | nil =>
    rintro - items ⟨⟩
    exact ⟨by simp, by rintro docs ⟨⟩; exact .nil⟩
  | question q rest ih =>
    rintro hall items (_ | ⟨head, tail⟩)
    rw [nestedAll_question, List.forall_mem_cons] at hall
    exact .cons (head.decodes hall.1.1 hall.1.2 fun _ _ _ h ↦ nomatch h) (ih hall.2 tail)
  | calculated q value rest ih =>
    rintro hall items (_ | ⟨head, tail⟩)
    rw [nestedAll_calculated, List.forall_mem_cons] at hall
    exact .cons (head.decodes hall.1.1 hall.1.2 fun _ _ _ h ↦ nomatch h) (ih hall.2 tail)
  | condition p guard body rest ihbody ih =>
    rintro hall items (_ | ⟨head, tail⟩)
    rw [nestedAll_condition, List.forall_mem_cons, List.forall_mem_append] at hall
    obtain ⟨hself, hbody, hrest⟩ := hall
    refine .cons (head.decodes hself.1 hself.2 fun p g body' h items hitems ↦ ?_) (ih hrest tail)
    cases h
    exact ihbody hbody hitems

/-! ### Forms -/

/-- A text that may be left out is the one that is read. -/
theorem TextMember.eq_of_read (names : List String) {name s t : String}
    {part members others : List (String × Json)} (h : TextMember name s part)
    (holds : members.Perm (part ++ others))
    (hothers : (others.map Prod.fst).Sublist names)
    (hnames : ((name :: names).map Json.foldName).Nodup)
    (hread : (∀ j, matching? name members = some j → (DocPart.text t).ReadFrom j) ∧
      (matching? name members = none → DocPart.text t = .text "")) : t = s := by
  rcases h with rfl | ⟨rfl, rfl⟩
  · have hfound : matching? name members = some (.string s) :=
      Json.matching?_of_perm holds (hnames.sublist ((hothers.cons_cons name).map _)) (by simp)
    exact DocPart.text_readFrom_string.1 (hread.1 _ hfound)
  · have hmissing : matching? name members = none := by
      refine Json.matching?_eq_none fun m hm hname ↦ (List.nodup_cons.1 hnames).1 ?_
      have hm : m.1 ∈ names := hothers.subset (List.mem_map_of_mem (holds.mem_iff.1 hm))
      rw [← hname]
      exact List.mem_map_of_mem hm
    exact DocPart.text.inj (hread.2 hmissing)

theorem TextMember.names {name s : String} {part : List (String × Json)}
    (h : TextMember name s part) : (part.map Prod.fst).Sublist [name] := by
  rcases h with rfl | ⟨rfl, rfl⟩
  · exact .refl _
  · exact List.nil_sublist _

theorem TextMember.suits {name s : String} {part : List (String × Json)}
    (h : TextMember name s part) (f : FormField) (hf : (name, f) ∈ FormField.byName)
    (hsort : f.sort = .text) : ∀ m ∈ part, Suits FormField.byName FormField.sort m := by
  rcases h with rfl | ⟨rfl, rfl⟩
  · exact List.forall_mem_singleton.2
      (suits_of_mem FormDoc.isTable_byName f hf (hsort ▸ takes_text s))
  · simp

namespace Form

variable {f : Form} {doc : Json}

/-- What is written for a form can be read, and what is read describes the form. -/
theorem WrittenAs.exists_ofJson (h : f.WrittenAs doc) (hwhole : f.Whole)
    (hfinite : f.DecimalsFinite) :
    ∃ d, FormDoc.ofJson doc = .ok d ∧ f.name = d.name ∧ f.file = d.file ∧
      List.Forall₂ StatementDoc.Decodes d.statements.items f.statements := by
  obtain @⟨name, file, members, items, named, filed, inside, holds⟩ := h
  have hback := Statement.readBack (nested_of_whole hwhole hfinite) inside
  have hsuits : ∀ m ∈ members, Suits FormField.byName FormField.sort m := by
    have hstatements : Suits FormField.byName FormField.sort ("statements", .array items) :=
      suits_of_mem FormDoc.isTable_byName .statements (by decide)
        (StatementDoc.exists_readList hback.reads)
    intro m hm
    refine List.forall_mem_append.2 ⟨List.forall_mem_append.2 ⟨?_, ?_⟩, ?_⟩ m (holds.mem_iff.1 hm)
    · exact named.suits .name (by decide) rfl
    · exact filed.suits .file (by decide) rfl
    · exact List.forall_mem_singleton.2 hstatements
  obtain ⟨d, hd⟩ := FormDoc.exists_read hsuits {}
  obtain ⟨-, hparts⟩ := (FormDoc.readsFields.readIn _).foldlM_eq_ok trivial hd
  have hofJson : FormDoc.ofJson (.object members) = .ok d := by rw [FormDoc.ofJson, hd]
  refine ⟨d, hofJson, ?_, ?_, ?_⟩
  · have hothers : members.Perm (name ++ (file ++ [("statements", .array items)])) := by
      rwa [← List.append_assoc]
    refine (named.eq_of_read ["file", "statements"] hothers ?_ (by decide)
      (hparts "name" .name (by decide))).symm
    rw [List.map_append]
    exact filed.names.append (.refl _)
  · have hothers : members.Perm (file ++ (name ++ [("statements", .array items)])) := by
      refine holds.trans ?_
      rw [← List.append_assoc]
      exact List.perm_append_comm.append_right _
    refine (filed.eq_of_read ["name", "statements"] hothers ?_ (by decide)
      (hparts "file" .file (by decide))).symm
    rw [List.map_append]
    exact named.names.append (.refl _)
  · have hnames : ((name ++ file ++ [("statements", Json.array items)]).map Prod.fst).Sublist
        ["name", "file", "statements"] := by
      rw [List.map_append, List.map_append]
      exact (named.names.append filed.names).append (.refl _)
    have hfound : matching? "statements" members = some (.array items) := by
      refine Json.matching?_of_perm holds (.sublist (hnames.map _) ?_) (by simp)
      decide
    obtain ⟨_, hread⟩ := (hparts "statements" .statements (by decide)).1 _ hfound
    exact hback.decodes _ (StatementDoc.readList_eq_ok hread)

/-- **Decoding undoes writing.** A form of which no part is missing and whose decimals are finite
can be written as a document. Every document that is written for it has a text. If it does not nest
too deep, then whatever text it is given as, the bytes of the text are decoded to the form. -/
theorem decode_written (hwhole : f.Whole) (hfinite : f.DecimalsFinite) :
    (∃ doc, f.WrittenAs doc) ∧ ∀ doc, f.WrittenAs doc →
      Json.TextOf (.element doc) doc.compactChars ∧
      (doc.depth ≤ Json.maxDepth → ∀ text : String, Json.TextOf (.element doc) text.toList →
        Form.decode (Text.Utf8.decodeLossy (Text.Utf8.encode text)) = .ok f) := by
  refine ⟨exists_writtenAs hwhole hfinite, fun doc written ↦
    ⟨written.textOf_compactChars, fun hdepth text htext ↦ ?_⟩⟩
  obtain ⟨d, hd, hname, hfile, hstatements⟩ := written.exists_ofJson hwhole hfinite
  rw [Text.Utf8.decodeLossy_encode]
  exact Form.decode_eq_ok_iff.2
    ⟨doc, d, Json.parseChars_of_text htext hdepth, hd, hname, hfile, hstatements⟩

end Form

/-- A condition that asks for a code when a total is greater than 2.5. -/
def discount : Form where
  name := "Discount"
  statements :=
    [.condition ⟨1, 1⟩ (.binary ⟨1, 12⟩ .greaterThan (.reference ⟨1, 5⟩ "total")
      (.literal ⟨1, 14⟩ (.decimal (.finite false 1024 0x4000000000000))))
      [.question { pos := ⟨2, 3⟩, id := "code", type := .string, label := "Schlüssel \"K\"?" }]]

/-- A document for it, without a file, with the operands of the guard in another order and with 2.5
spelled as 25e-1. -/
def discountDoc : Json :=
  .object [("name", .string "Discount"), ("statements", .array [.object
    (headMembers "condition" ⟨1, 1⟩ ++
      [("guard", .object (headMembers "binary" ⟨1, 12⟩ ++ [("operator", .string ">"),
        ("right", .object (headMembers "literal" ⟨1, 14⟩ ++ [("type", .string "decimal"),
          ("value", .number { whole := ['2', '5'], exponent := some ⟨'e', some '-', ['1']⟩ })])),
        ("left", .object (headMembers "reference" ⟨1, 5⟩ ++ [("name", .string "total")]))])),
      ("body", .array [.object (headMembers "question" ⟨2, 3⟩ ++ [("id", .string "code"),
        ("type", .string "string"), ("label", .string "Schlüssel \"K\"?")])])])])]

theorem grammatical_discountNumeral :
    Json.Numeral.Grammatical { whole := ['2', '5'], exponent := some ⟨'e', some '-', ['1']⟩ } where
  whole := ⟨by simp, by simp⟩
  leading := by decide
  fraction := by simp
  exponent := by
    rintro e ⟨⟩
    exact ⟨by simp, by simp, by simp, by simp⟩

theorem writtenAs_discountDoc : discount.WrittenAs discountDoc := by
  refine .mk (.inl rfl) (.inr ⟨rfl, rfl⟩) (.cons ?_ .nil) (.refl _)
  refine .condition ?_ (.cons (.question (.refl _)) .nil) (.refl _)
  refine .binary (.reference (.refl _))
    (.literal (.decimal grammatical_discountNumeral ?_) (.refl _)) ?_
  · decide +kernel
  · exact .append_left _ (.cons _ (.swap _ _ _))

theorem Form.decode_written_discount :
    discount.Whole ∧ discount.DecimalsFinite ∧ discount.WrittenAs discountDoc ∧
      Form.decode (Text.Utf8.decodeLossy
        (Text.Utf8.encode (String.ofList discountDoc.compactChars))) = .ok discount := by
  have hstatements : ∀ path s, Statement.At discount.statements path s →
      s.Whole ∧ s.DecimalsFinite := by
    intro path s place
    have hs : s ∈ discount.statements ++ [.question _] :=
      Statement.mem_nestedAll_iff.2 ⟨path, place⟩
    simp only [discount, List.cons_append, List.nil_append, List.mem_cons, List.not_mem_nil,
      or_false] at hs
    rcases hs with rfl | rfl
    · refine ⟨.condition (.binary (by decide) (.reference (by decide)) .literal), ?_⟩
      rintro e ⟨⟩ p x (_ | _ | ⟨⟨⟩⟩ | ⟨⟨⟩⟩)
      rfl
    · exact ⟨.question ⟨by decide, by decide⟩, fun e he ↦ nomatch he⟩
  have hwhole : discount.Whole := fun path s place ↦ (hstatements path s place).1
  have hfinite : discount.DecimalsFinite := fun path s place ↦ (hstatements path s place).2
  obtain ⟨-, hdocs⟩ := decode_written hwhole hfinite
  obtain ⟨htext, hdecode⟩ := hdocs discountDoc writtenAs_discountDoc
  refine ⟨hwhole, hfinite, writtenAs_discountDoc, hdecode (by decide) _ ?_⟩
  rwa [String.toList_ofList]

end Questionnaire
