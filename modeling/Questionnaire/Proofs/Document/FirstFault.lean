import Questionnaire.Proofs.Document.Rules

/-!
# The first fault of a form document

Decoding a form document stops at the first node that breaks its rule, and says where it stands. The
nodes that count are those that the kinds of the nodes above them call for (`FormDoc.Active`), and
the first of them comes first in the order of places: a node before those below it, and of two nodes
below the same one, the one whose step comes first.

The outcome of decoding some nodes tells either that they and all nodes below them obey their rules,
or which node is the first not to (`Tells`). What it tells of a node comes from what it tells of the
nodes below (`Tells.node`), and what it tells of nodes in a row from what it tells of each
(`Tells.append`), so that the outcome of decoding a whole document follows the recursion of the
decoder.
-/

namespace Questionnaire

/-! ### Places -/

namespace DocPath

variable {p : DocPath} {s : String}

theorem text_member (h : p.text = s) (name : String) :
    (p.member name).text = s ++ ("." ++ name) := by
  subst h
  simp [text, String.join_append, PathStep.text, String.append_assoc]

theorem text_item (h : p.text = s) (index : Nat) : (p.item index).text = s ++ s!"[{index}]" := by
  subst h
  simp [text, String.join_append, PathStep.text, String.append_assoc]

end DocPath

/-- The nodes of a document that count, each with its place: the statements of the form, and the
nodes that the kind of one that counts calls for below it. -/
inductive FormDoc.Active (d : FormDoc) : List NodeStep → DocNode → Prop
  | statement {step : NodeStep} {n : DocNode}
      (h : (step, n) ∈ DocNode.numbered .statement 0 d.statements.items) : Active d [step] n
  | inner {place : List NodeStep} {above n : DocNode} {step : NodeStep}
      (active : Active d place above) (h : (step, n) ∈ above.children) :
      Active d (place ++ [step]) n

namespace DocNode

/-- The nodes among some nodes and below them, each with its place. -/
inductive Reached : List (NodeStep × DocNode) → List NodeStep → DocNode → Prop
  | here {nodes : List (NodeStep × DocNode)} {step : NodeStep} {n : DocNode}
      (h : (step, n) ∈ nodes) : Reached nodes [step] n
  | inner {nodes : List (NodeStep × DocNode)} {step : NodeStep} {above n : DocNode}
      {place : List NodeStep} (h : (step, above) ∈ nodes)
      (reached : Reached above.children place n) : Reached nodes (step :: place) n

namespace Reached

variable {nodes a b : List (NodeStep × DocNode)} {place : List NodeStep} {n m : DocNode}
  {step : NodeStep}

theorem concat (h : Reached nodes place n) (hm : (step, m) ∈ n.children) :
    Reached nodes (place ++ [step]) m := by
  induction h with
  | here h => exact .inner h (.here hm)
  | inner h _ ih => exact .inner h (ih hm)

theorem exists_cons (h : Reached nodes place n) :
    ∃ step m rest, place = step :: rest ∧ (step, m) ∈ nodes := by
  cases h with
  | here h => exact ⟨_, _, _, rfl, h⟩
  | inner h _ => exact ⟨_, _, _, rfl, h⟩

theorem mono (h : Reached a place n) (hsub : a ⊆ b) : Reached b place n := by
  cases h with
  | here h => exact .here (hsub h)
  | inner h reached => exact .inner (hsub h) reached

theorem append_iff : Reached (a ++ b) place n ↔ Reached a place n ∨ Reached b place n := by
  constructor
  · intro h
    cases h with
    | here h => exact (List.mem_append.1 h).imp .here .here
    | inner h reached => exact (List.mem_append.1 h).imp (.inner · reached) (.inner · reached)
  · rintro (h | h)
    · exact h.mono (List.subset_append_left a b)
    · exact h.mono (List.subset_append_right a b)

/-- What is reached from one node is the node, or is reached from those below it. -/
theorem singleton_iff :
    Reached [(step, m)] place n ↔
      (place = [step] ∧ n = m) ∨ ∃ rest, place = step :: rest ∧ Reached m.children rest n := by
  constructor
  · intro h
    cases h with
    | here h =>
      obtain ⟨rfl, rfl⟩ := Prod.mk.inj (List.mem_singleton.1 h)
      exact .inl ⟨rfl, rfl⟩
    | inner h reached =>
      obtain ⟨rfl, rfl⟩ := Prod.mk.inj (List.mem_singleton.1 h)
      exact .inr ⟨_, rfl, reached⟩
  · rintro (⟨rfl, rfl⟩ | ⟨rest, rfl, reached⟩)
    · exact .here (List.mem_singleton.2 rfl)
    · exact .inner (List.mem_singleton.2 rfl) reached

end Reached

end DocNode

open DocNode (Reached)

theorem FormDoc.active_iff_reached {d : FormDoc} {place : List NodeStep} {n : DocNode} :
    d.Active place n ↔ Reached (DocNode.numbered .statement 0 d.statements.items) place n := by
  constructor
  · intro h
    induction h with
    | statement h => exact .here h
    | inner _ h ih => exact ih.concat h
  · -- `Active` places grow at their end, `Reached` ones in front: what leads there is carried along
    suffices ∀ {nodes rest n}, Reached nodes rest n → ∀ before,
        (∀ p ∈ nodes, d.Active (before ++ [p.1]) p.2) → d.Active (before ++ rest) n from
      fun h ↦ this h [] fun p hp ↦ .statement hp
    intro nodes rest n h
    induction h with
    | here h => exact fun before hactive ↦ hactive _ h
    | inner h _ ih =>
      intro before hactive
      have hrest := ih (before ++ [_]) fun p hp ↦ .inner (hactive _ h) hp
      rwa [List.append_assoc] at hrest

/-! ### What an outcome tells -/

namespace DocNode

/-- A fault is the first among some nodes and those below them: the place of the node at fault, what
the path to it is followed by, and what is wrong. -/
structure FirstFault (nodes : List (NodeStep × DocNode)) (place : List NodeStep) (member : String)
    (fault : DecodeFault) : Prop where
  breaks : ∃ n, Reached nodes place n ∧ n.Breaks member fault
  first : ∀ place' n', Reached nodes place' n' → ¬ n'.Obeys →
    place' = place ∨ List.Lex NodeStep.Before place place'

namespace FirstFault

variable {a b : List (NodeStep × DocNode)} {place : List NodeStep} {member : String}
  {fault : DecodeFault} {n : DocNode} {step : NodeStep}

/-- A node that breaks its rule comes before the nodes below it. -/
theorem here (h : n.Breaks member fault) : FirstFault [(step, n)] [step] member fault where
  breaks := ⟨n, .here (List.mem_singleton.2 rfl), h⟩
  first place' n' hreached _ := by
    obtain ⟨rfl, -⟩ | ⟨rest, rfl, hrest⟩ := Reached.singleton_iff.1 hreached
    · exact .inl rfl
    · obtain ⟨_, _, _, rfl, -⟩ := hrest.exists_cons
      exact .inr (.cons .nil)

/-- The first fault below a node that obeys its rule is the first for the node. -/
theorem inner (h : FirstFault n.children place member fault) (hobeys : n.Obeys) :
    FirstFault [(step, n)] (step :: place) member fault where
  breaks := by
    obtain ⟨m, hreached, hbreaks⟩ := h.breaks
    exact ⟨m, Reached.singleton_iff.2 (.inr ⟨place, rfl, hreached⟩), hbreaks⟩
  first place' m hreached hnot := by
    obtain ⟨-, rfl⟩ | ⟨rest, rfl, hrest⟩ := Reached.singleton_iff.1 hreached
    · exact absurd hobeys hnot
    · exact (h.first rest m hrest hnot).imp (congrArg _) .cons

/-- A fault comes before the nodes whose steps come after its own first step. -/
theorem append_left (h : FirstFault a place member fault)
    (hbefore : ∀ p ∈ a, ∀ q ∈ b, p.1.Before q.1) : FirstFault (a ++ b) place member fault where
  breaks := by
    obtain ⟨n, hreached, hbreaks⟩ := h.breaks
    exact ⟨n, Reached.append_iff.2 (.inl hreached), hbreaks⟩
  first place' n' hreached' hnot := by
    obtain hleft | hright := Reached.append_iff.1 hreached'
    · exact h.first place' n' hleft hnot
    · obtain ⟨n, hreached, -⟩ := h.breaks
      obtain ⟨_, _, _, rfl, hmem⟩ := hreached.exists_cons
      obtain ⟨_, _, _, rfl, hmem'⟩ := hright.exists_cons
      exact .inr (.rel (hbefore _ hmem _ hmem'))

/-- Nodes in front that obey their rules do not change what the first fault is. -/
theorem append_right (h : FirstFault b place member fault)
    (hobey : ∀ place n, Reached a place n → n.Obeys) :
    FirstFault (a ++ b) place member fault where
  breaks := by
    obtain ⟨n, hreached, hbreaks⟩ := h.breaks
    exact ⟨n, Reached.append_iff.2 (.inr hreached), hbreaks⟩
  first place' n' hreached' hnot := by
    obtain hleft | hright := Reached.append_iff.1 hreached'
    · exact absurd (hobey place' n' hleft) hnot
    · exact h.first place' n' hright hnot

end FirstFault

/-- The outcome of decoding some nodes, all from a node at the given path, tells of them: either
they and all nodes below obey their rules, or it is the first fault, with the path to it. -/
def Tells {α : Type} (nodes : List (NodeStep × DocNode)) (base : DocPath) :
    Except DecodeError α → Prop
  | .ok _ => ∀ place n, Reached nodes place n → n.Obeys
  | .error e => ∃ place member, FirstFault nodes place member e.fault ∧
      e.path.text = base.text ++ String.join (place.map NodeStep.text) ++ member

namespace Tells

variable {α β : Type} {nodes a b : List (NodeStep × DocNode)} {base path : DocPath}
  {outcome : Except DecodeError α} {n : DocNode} {step : NodeStep}

theorem map (h : Tells nodes base outcome) (f : α → β) : Tells nodes base (outcome.map f) := by
  cases outcome with
  | ok _ => exact h
  | error e => exact h

theorem nil {value : α} : Tells [] base (.ok value) := by
  intro place n h
  obtain ⟨_, _, _, _, hmem⟩ := h.exists_cons
  exact absurd hmem List.not_mem_nil

theorem broken {member : String} {fault : DecodeFault} (h : n.Breaks member fault)
    (hpath : path.text = base.text ++ step.text ++ member) :
    Tells [(step, n)] base (.error ⟨path, fault⟩ : Except DecodeError α) := by
  refine ⟨[step], member, .here h, ?_⟩
  rw [hpath, List.map_singleton, String.join_cons, String.join_nil, String.append_empty]

/-- **An outcome for the nodes below a node** that obeys its rule tells the same of the node. -/
theorem node (hobeys : n.Obeys) (hpath : path.text = base.text ++ step.text)
    (h : Tells n.children path outcome) : Tells [(step, n)] base outcome := by
  cases outcome with
  | ok _ =>
    intro place m hreached
    obtain ⟨-, rfl⟩ | ⟨rest, -, hrest⟩ := Reached.singleton_iff.1 hreached
    · exact hobeys
    · exact h rest m hrest
  | error e =>
    obtain ⟨place, member, hfirst, htext⟩ := h
    refine ⟨step :: place, member, hfirst.inner hobeys, ?_⟩
    rw [htext, hpath, List.map_cons, String.join_cons]
    simp only [String.append_assoc]

/-- **Nodes in a row** are decoded one after another: what comes later counts only if all before it
obeys the rules. -/
theorem append {next : α → Except DecodeError β} (h : Tells a base outcome)
    (hnext : ∀ value, Tells b base (next value))
    (hbefore : ∀ p ∈ a, ∀ q ∈ b, p.1.Before q.1) : Tells (a ++ b) base (outcome >>= next) := by
  cases outcome with
  | error e =>
    obtain ⟨place, member, hfirst, htext⟩ := h
    exact ⟨place, member, hfirst.append_left hbefore, htext⟩
  | ok value =>
    show Tells (a ++ b) base (next value)
    have hrest : Tells b base (next value) := hnext value
    cases hvalue : next value with
    | ok _ =>
      rw [hvalue] at hrest
      intro place n hreached
      exact (Reached.append_iff.1 hreached).elim (h place n) (hrest place n)
    | error e =>
      rw [hvalue] at hrest
      obtain ⟨place, member, hfirst, htext⟩ := hrest
      exact ⟨place, member, hfirst.append_right h, htext⟩

end Tells

end DocNode

open DocNode (Tells)

/-! ### Expressions -/

namespace ExprDoc

variable {path base : DocPath} {step : NodeStep}

theorem tells_decodeLiteral {h : ExprHead} {x l r : ExprDoc} (kind : h.kind = "literal")
    (hpath : path.text = base.text ++ step.text) :
    Tells [(step, .expr (.node h x l r))] base (decodeLiteral path h) := by
  unfold decodeLiteral
  split
  · next value => exact .broken (.value kind value) (DocPath.text_member hpath "value")
  · next j value =>
    split
    · next type =>
      exact .broken (.literalType kind value (ValueType.ofKeyword?_eq_none_iff.1 type))
        (DocPath.text_member hpath "type")
    · next t type =>
      have hnamed : t.NamedBy h.type := ValueType.ofKeyword?_eq_some_iff.1 type
      have hread : (∃ v, literalOf t j = .ok v) ↔ j.IsOf t := exists_literalOf_iff hnamed.1
      split
      · next v hv =>
        refine .node (.literal kind value hnamed (hread.1 ⟨v, hv⟩)) hpath ?_
        rw [DocNode.children_literal kind]
        exact .nil
      · next fault hfault =>
        obtain ⟨m, rfl⟩ := literalOf_eq_error hfault
        refine .broken (.literalValue kind value hnamed fun hof ↦ ?_)
          (DocPath.text_member hpath "value")
        obtain ⟨v, hv⟩ := hread.2 hof
        exact absurd (hv.symm.trans hfault) (by simp)

/-- **The outcome of decoding an expression** tells of it and of the expressions below. -/
theorem tells_decode (d : ExprDoc) : ∀ {path base : DocPath} {step : NodeStep},
    path.text = base.text ++ step.text → Tells [(step, .expr d)] base (d.decode path) := by
  induction d with
  | absent =>
    intro path base step hpath
    exact .broken .absent (by rw [hpath, String.append_empty])
  | node h x l r ihx ihl ihr =>
    intro path base step hpath
    unfold decode
    dsimp only
    split
    · next kind => exact (tells_decodeLiteral kind hpath).map _
    · next kind =>
      split
      · next name =>
        exact .broken (.name kind (by simpa using name)) (DocPath.text_member hpath "name")
      · next name =>
        refine .node (.reference kind (by simpa using name)) hpath ?_
        rw [DocNode.children_reference kind]
        exact .nil
    · next kind =>
      split
      · next operator =>
        exact .broken (.unaryOperator kind (UnaryOp.ofSymbol?_eq_none_iff.1 operator))
          (DocPath.text_member hpath "operator")
      · next op operator =>
        refine .node (.unary kind (UnaryOp.ofSymbol?_eq_some operator)) hpath ?_
        rw [DocNode.children_unary kind]
        exact (ihx (DocPath.text_member rfl "operand")).map _
    · next kind =>
      split
      · next operator =>
        exact .broken (.binaryOperator kind (BinaryOp.ofSymbol?_eq_none_iff.1 operator))
          (DocPath.text_member hpath "operator")
      · next op operator =>
        refine .node (.binary kind (BinaryOp.ofSymbol?_eq_some operator)) hpath ?_
        rw [DocNode.children_binary kind]
        refine .append (ihl (DocPath.text_member rfl "left")) (fun left ↦ ?_) ?_
        · exact (ihr (DocPath.text_member rfl "right")).map _
        · simpa using NodeStep.Before.left
    · next hliteral hreference hunary hbinary =>
      exact .broken (.exprKind (by simp_all)) (DocPath.text_member hpath "kind")

end ExprDoc

/-! ### Statements -/

namespace StatementDoc

/-- The outcome of decoding a declaration, and what comes after it, tells of the statement. -/
theorem tells_decodeQuestion {α : Type} {h : StatementHead} {e g : ExprDoc}
    {body spare : List StatementDoc} {path base : DocPath} {step : NodeStep}
    {next : Question → Except DecodeError α} (kind : h.kind ∈ ["question", "calculated"])
    (hpath : path.text = base.text ++ step.text)
    (hnext : ∀ q, Tells (DocNode.statement (.mk h e g body spare)).children path (next q)) :
    Tells [(step, .statement (.mk h e g body spare))] base (decodeQuestion path h >>= next) := by
  unfold decodeQuestion
  split
  · next id =>
    exact .broken (.id kind (by simpa using id)) (by rw [hpath, String.append_empty])
  · next id =>
    have hid : h.id ≠ "" := by simpa using id
    split
    · next type =>
      exact .broken (.type kind hid (ValueType.ofKeyword?_eq_none_iff.1 type))
        (DocPath.text_member hpath "type")
    · next t type =>
      exact .node (.declaration kind hid (ValueType.ofKeyword?_eq_some_iff.1 type)) hpath (hnext _)

/-- The outcome of decoding a statement tells of it and of the nodes below, as soon as the outcome
of decoding its body tells of the body. -/
theorem tells_decode_of_body {h : StatementHead} {e g : ExprDoc} {body spare : List StatementDoc}
    {path base : DocPath} {step : NodeStep} (hpath : path.text = base.text ++ step.text)
    (hbody : Tells (DocNode.numbered .body 0 body) path (decodeAll (path.member "body") 0 body)) :
    Tells [(step, .statement (.mk h e g body spare))] base
      (decode path (.mk h e g body spare)) := by
  unfold decode
  split
  · next kind =>
    show Tells _ base (decodeQuestion path h >>= fun q ↦ .ok (Statement.question q))
    refine tells_decodeQuestion (by simp [kind]) hpath fun q ↦ ?_
    rw [DocNode.children_question kind]
    exact .nil
  · next kind =>
    refine tells_decodeQuestion (by simp [kind]) hpath fun q ↦ ?_
    rw [DocNode.children_calculated kind]
    exact (e.tells_decode (DocPath.text_member rfl "expression")).map _
  · next kind =>
    refine .node (.condition kind) hpath ?_
    rw [DocNode.children_condition kind]
    -- the body is decoded only if the guard is, and its steps come after that of the guard
    refine .append (g.tells_decode (DocPath.text_member rfl "guard")) (fun _ ↦ hbody.map _) ?_
    intro p hp q hq
    obtain rfl := List.mem_singleton.1 hp
    obtain ⟨i, -, hi⟩ := DocNode.exists_of_mem_numbered hq
    rw [hi]
    exact .guard
  · next hquestion hcalculated hcondition =>
    exact .broken (.kind (by simp_all)) (DocPath.text_member hpath "kind")

/-- **The outcome of decoding a list of statements** tells of them and of the nodes below, whatever
steps lead to the statements, as long as these come in order. -/
theorem tells_decodeAll (docs : List StatementDoc) :
    ∀ {path base : DocPath} {step : Nat → NodeStep} (index : Nat),
      (∀ i, (path.item i).text = base.text ++ (step i).text) →
      (∀ i j, i < j → (step i).Before (step j)) →
      Tells (DocNode.numbered step index docs) base (decodeAll path index docs) := by
  induction docs using listInduction with
  | nil =>
    intro path base step index _ _
    exact .nil
  | cons h e g body spare rest ihbody ihrest =>
    intro path base step index hpath hordered
    rw [DocNode.numbered_cons, decodeAll]
    refine .append (tells_decode_of_body (hpath index) ?_)
      (fun _ ↦ (ihrest (index + 1) hpath hordered).map _) ?_
    · refine ihbody 0 (fun i ↦ ?_) fun i j hij ↦ .body hij
      rw [DocPath.text_item (DocPath.text_member rfl "body"), String.append_assoc]
      rfl
    · intro p hp q hq
      obtain rfl := List.mem_singleton.1 hp
      obtain ⟨j, hj, hq⟩ := DocNode.exists_of_mem_numbered hq
      rw [hq]
      exact hordered index j hj

end StatementDoc

/-! ### Forms -/

namespace FormDoc

/-- **Decoding fails exactly on the documents that break a rule, at the first place.** A document is
decoded if and only if all nodes that count obey their rules. Otherwise there is no form, but a
fault: that of a node that counts, with the path to it, and no node that comes before it in document
order breaks its rule. -/
theorem decode_names_first_fault (d : FormDoc) :
    ((∃ f, d.decode = .ok f) ↔ ∀ place n, d.Active place n → n.Obeys) ∧
    (¬ (∀ place n, d.Active place n → n.Obeys) →
      ∃ e place n member, d.decode = .error e ∧
        d.Active place n ∧ n.Breaks member e.fault ∧
        e.path.text = "$.statements" ++ String.join (place.map NodeStep.text) ++ member ∧
        ∀ place' n', d.Active place' n' → ¬ n'.Obeys →
          place' = place ∨ List.Lex NodeStep.Before place place') := by
  have htells : Tells (DocNode.numbered .statement 0 d.statements.items)
      (DocPath.member {} "statements") d.decode :=
    (StatementDoc.tells_decodeAll d.statements.items 0 (fun i ↦ DocPath.text_item rfl i)
      fun i j hij ↦ .statement hij).map _
  simp only [active_iff_reached]
  cases hd : d.decode with
  | ok f =>
    rw [hd] at htells
    exact ⟨iff_of_true ⟨f, rfl⟩ htells, fun hnot ↦ absurd htells hnot⟩
  | error e =>
    rw [hd] at htells
    obtain ⟨place, member, ⟨⟨n, hreached, hbreaks⟩, hfirst⟩, htext⟩ := htells
    refine ⟨iff_of_false (by simp) fun hall ↦ hbreaks.not_obeys (hall place n hreached), fun _ ↦ ?_⟩
    exact ⟨e, place, n, member, rfl, hreached, hbreaks, htext, hfirst⟩

/-- A document with faults at several depths. The question that comes first has what would be faults
of another kind of statement. -/
def tangled : FormDoc where
  statements :=
    { items :=
        [.mk { kind := "question", id := "first", type := "integer" }
            (.node { kind := "riddle" } .absent .absent .absent) .absent [.empty] [],
          .mk { kind := "condition" } .absent
            (.node { kind := "binary", operator := "&&" } .absent
              (.node { kind := "literal", type := "boolean", value := some .null } .absent .absent
                .absent)
              (.node { kind := "reference" } .absent .absent .absent))
            [.mk { kind := "riddle" } .absent .absent [] []] [],
          .mk { kind := "question" } .absent .absent [] []] }

/-- The nameless reference in the guard comes first: before the faults of the body and of the
question behind it. -/
theorem decode_tangled :
    ¬ (∀ place n, tangled.Active place n → n.Obeys) ∧
    ∃ e place n member, tangled.decode = .error e ∧
      e.path.text = "$.statements[1].guard.right.name" ∧ e.fault = .missingName ∧
      tangled.Active place n ∧ n.Breaks member e.fault ∧
      ∀ place' n', tangled.Active place' n' → ¬ n'.Obeys →
        place' = place ∨ List.Lex NodeStep.Before place place' := by
  have hnot : ¬ ∀ place n, tangled.Active place n → n.Obeys := by
    intro hall
    have hactive : tangled.Active [.statement 2]
        (.statement (.mk { kind := "question" } .absent .absent [] [])) :=
      .statement (by simp [tangled, DocNode.numbered])
    exact (DocNode.Breaks.id (by decide) rfl).not_obeys (hall _ _ hactive)
  obtain ⟨e, place, n, member, he, hactive, hbreaks, -, hfirst⟩ :=
    (decode_names_first_fault tangled).2 hnot
  have hvalue : tangled.decode = .error ⟨⟨[.member "name", .member "right", .member "guard",
      .item 1, .member "statements"]⟩, .missingName⟩ := rfl
  obtain rfl := Except.error.inj (hvalue.symm.trans he)
  exact ⟨hnot, _, place, n, member, he, by decide, rfl, hactive, hbreaks, hfirst⟩

end FormDoc

end Questionnaire
