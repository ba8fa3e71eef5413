import Mathlib.Data.List.Forall2
import Questionnaire.Form.Document
import Questionnaire.Proofs.Json.Records

/-!
# Form documents read from JSON

Expressions, statements and forms are read as records, over whatever an earlier member with the same
name has left. What a record holds is seen field by field as a `DocPart`. For each of the three
records, `readsFields` is the law of a single member. From it follow, for whole objects, what the
parts are read from (`part_of_read`) and that an object can be read when each of its members is of
the sort that its field takes (`exists_read`).
-/

namespace Questionnaire

open Json (matching? field? ReadsFields)

/-! ### Parts -/

/-- A part of an expression, a statement or a form in a document. -/
inductive DocPart where
  | text (s : String)
  | word (i : Int64)
  | kept (j : Option Json)
  | expression (d : ExprDoc)
  | statements (l : Json.Overlaid StatementDoc)

namespace DocPart

/-- A part is what a value is read as, over some earlier part. -/
def ReadFrom (j : Json) : DocPart → Prop
  | text s => ∃ old, Json.readText old j = .ok s
  | word i => ∃ old, Json.readInt64 old j = .ok i
  | kept k => k = some j
  | expression d => ∃ old, ExprDoc.read old j = .ok d
  | statements l => ∃ earlier, StatementDoc.readList earlier j = .ok l

@[simp]
theorem text_readFrom_string {s t : String} : (text t).ReadFrom (.string s) ↔ t = s := by
  simp [ReadFrom, Json.readText, eq_comm]

@[simp]
theorem word_readFrom_number {n : Json.Numeral} {i : Int64} :
    (word i).ReadFrom (.number n) ↔ n.toInt64? = some i := by
  simp only [ReadFrom, Json.readInt64, exists_const]
  cases n.toInt64? <;> simp

end DocPart

/-- The sorts of parts. -/
inductive PartSort where
  | text | word | kept | expression | statements
  deriving DecidableEq

/-- A value can be read as a part of a sort, over any earlier part. -/
def PartSort.Takes (j : Json) : PartSort → Prop
  | text => ∃ s, j = .string s
  | word => ∃ n i, j = .number n ∧ n.toInt64? = some i
  | kept => True
  | expression => ∀ old, ∃ d, ExprDoc.read old j = .ok d
  | statements => ∀ earlier, ∃ l, StatementDoc.readList earlier j = .ok l

namespace PartSort

theorem Takes.readText {j : Json} (h : text.Takes j) (old : String) :
    ∃ s, Json.readText old j = .ok s := by
  obtain ⟨s, rfl⟩ := h
  exact ⟨s, rfl⟩

theorem Takes.readInt64 {j : Json} (h : word.Takes j) (old : Int64) :
    ∃ i, Json.readInt64 old j = .ok i := by
  obtain ⟨n, i, rfl, hi⟩ := h
  exact ⟨i, by simp [Json.readInt64, hi]⟩

/-- Members that have no names but those of some parts, and none twice, are of the sorts of their
fields as soon as the last member with each name is. -/
theorem takes_of_parts {F : Type} {table : List (String × F)} {sort : F → PartSort}
    {members : List (String × Json)} (htable : Json.IsTable table)
    (parts : List (String × PartSort))
    (hfields : ∀ p ∈ parts, ∃ q ∈ table, q.1 = p.1 ∧ sort q.2 = p.2)
    (hnodup : (members.map Prod.fst).Nodup) (honly : ∀ m ∈ members, m.1 ∈ parts.map Prod.fst)
    (htakes : ∀ p ∈ parts, ∀ j, Json.member? p.1 members = some j → p.2.Takes j) :
    ∀ m ∈ members, ∀ f, field? table m.1 = some f → (sort f).Takes m.2 := by
  intro m hm f hf
  obtain ⟨p, hp, hname⟩ := List.mem_map.1 (honly m hm)
  obtain ⟨q, hq, hqname, hsort⟩ := hfields p hp
  have hfound : field? table m.1 = some q.2 :=
    (htable.field?_eq_some_iff hq).2 (by rw [hqname, hname])
  rw [Option.some.inj (hf.symm.trans hfound), hsort]
  exact htakes p hp m.2 (Json.member?_of_mem hnodup (hname ▸ hm))

end PartSort

/-! ### Expressions -/

/-- The sort of part in a field of expressions. -/
def ExprField.sort : ExprField → PartSort
  | kind | type | name | operator => .text
  | line | column => .word
  | value => .kept
  | operand | left | right => .expression

namespace ExprDoc

/-- The part of an expression in a field. -/
def part : ExprDoc → ExprField → DocPart
  | absent, _ => .expression absent
  | node h _ _ _, .kind => .text h.kind
  | node h _ _ _, .line => .word h.line
  | node h _ _ _, .column => .word h.column
  | node h _ _ _, .type => .text h.type
  | node h _ _ _, .value => .kept h.value
  | node h _ _ _, .name => .text h.name
  | node h _ _ _, .operator => .text h.operator
  | node _ x _ _, .operand => .expression x
  | node _ _ l _, .left => .expression l
  | node _ _ _ r, .right => .expression r

theorem isTable_byName : Json.IsTable ExprField.byName where
  names := by decide
  fields := by decide

/-- **A member of an expression** sets the part in its field. -/
theorem readsFields :
    ReadsFields ExprField.byName readMember part DocPart.ReadFrom (· ≠ absent) where
  isTable := isTable_byName
  skips := by
    rintro (_ | ⟨h, x, l, r⟩) d' ⟨n, v⟩ hd hfield hread
    · exact absurd rfl hd
    · unfold readMember at hread
      simp only [hfield] at hread
      exact (Except.ok.inj hread).symm
  sets := by
    rintro (_ | ⟨h, x, l, r⟩) d' ⟨n, v⟩ f hd hfield hread
    · exact absurd rfl hd
    unfold readMember at hread
    rw [hfield] at hread
    cases f with
    | kind | type | name | operator =>
      obtain ⟨h', hh, rfl⟩ := map_eq_ok_iff.1 hread
      obtain ⟨s, hs, rfl⟩ := map_eq_ok_iff.1 hh
      exact ⟨by simp, .text s, ⟨_, hs⟩, by funext g; cases g <;> rfl⟩
    | line | column =>
      obtain ⟨h', hh, rfl⟩ := map_eq_ok_iff.1 hread
      obtain ⟨i, hi, rfl⟩ := map_eq_ok_iff.1 hh
      exact ⟨by simp, .word i, ⟨_, hi⟩, by funext g; cases g <;> rfl⟩
    | value =>
      obtain ⟨h', hh, rfl⟩ := map_eq_ok_iff.1 hread
      cases hh
      exact ⟨by simp, .kept (some v), rfl, by funext g; cases g <;> rfl⟩
    | operand | left | right =>
      obtain ⟨y, hy, rfl⟩ := map_eq_ok_iff.1 hread
      exact ⟨by simp, .expression y, ⟨_, hy⟩, by funext g; cases g <;> rfl⟩

theorem read_object (old : ExprDoc) (members : List (String × Json)) :
    read old (.object members) =
      members.foldlM (Json.readIn "exprDoc" ExprField.byName readMember) old.orEmpty := by
  have hmembers : ∀ d, readMembers d members =
      members.foldlM (Json.readIn "exprDoc" ExprField.byName readMember) d := by
    induction members with
    | nil => exact fun d ↦ by rw [readMembers]; rfl
    | cons m rest ih =>
      intro d
      rw [readMembers, List.foldlM_cons]
      simp only [ih]
      rfl
  rw [read, hmembers]

theorem orEmpty_ne_absent (d : ExprDoc) : d.orEmpty ≠ absent := by
  cases d <;> simp [orEmpty, empty]

/-- **The parts of an expression** are read from the last members that match their names. -/
theorem part_of_read {old d : ExprDoc} {members : List (String × Json)}
    (h : read old (.object members) = .ok d) :
    d ≠ absent ∧ ∀ name f, (name, f) ∈ ExprField.byName → ∀ j,
      matching? name members = some j → (d.part f).ReadFrom j := by
  rw [read_object] at h
  obtain ⟨hd, hparts⟩ := (readsFields.readIn _).foldlM_eq_ok old.orEmpty_ne_absent h
  exact ⟨hd, fun name f hf ↦ (hparts name f hf).1⟩

/-- An expression whose members are of the sorts that their fields take can be read. -/
theorem exists_read {members : List (String × Json)}
    (h : ∀ m ∈ members, ∀ f, field? ExprField.byName m.1 = some f → f.sort.Takes m.2)
    (old : ExprDoc) : ∃ d, read old (.object members) = .ok d := by
  rw [read_object]
  refine (readsFields.readIn _).exists_foldlM old.orEmpty_ne_absent fun ⟨n, v⟩ hm d hd ↦ ?_
  simp only [Json.readIn, mapError_eq_ok_iff]
  have hsort := h _ hm
  cases d with
  | absent => exact absurd rfl hd
  | node hd x l r =>
    unfold readMember
    cases hfield : field? ExprField.byName n with
    | none => exact ⟨_, rfl⟩
    | some f =>
      have htakes := hsort f hfield
      cases f with
      | kind | type | name | operator =>
        exact exists_map_eq_ok (exists_map_eq_ok (PartSort.Takes.readText htakes _))
      | line | column =>
        exact exists_map_eq_ok (exists_map_eq_ok (PartSort.Takes.readInt64 htakes _))
      | value => exact exists_map_eq_ok ⟨_, rfl⟩
      | operand | left | right => exact exists_map_eq_ok (htakes _)

end ExprDoc

/-! ### Statements -/

/-- The sort of part in a field of statements. -/
def StatementField.sort : StatementField → PartSort
  | kind | id | type | label => .text
  | line | column => .word
  | expression | guard => .expression
  | body => .statements

namespace StatementDoc

/-- The part of a statement in a field. -/
def part : StatementDoc → StatementField → DocPart
  | mk h _ _ _ _, .kind => .text h.kind
  | mk h _ _ _ _, .line => .word h.line
  | mk h _ _ _ _, .column => .word h.column
  | mk h _ _ _ _, .id => .text h.id
  | mk h _ _ _ _, .type => .text h.type
  | mk h _ _ _ _, .label => .text h.label
  | mk _ e _ _ _, .expression => .expression e
  | mk _ _ g _ _, .guard => .expression g
  | mk _ _ _ items spare, .body => .statements { items, spare }

theorem isTable_byName : Json.IsTable StatementField.byName where
  names := by decide
  fields := by decide

/-- **A member of a statement** sets the part in its field. -/
theorem readsFields :
    ReadsFields StatementField.byName readMember part DocPart.ReadFrom (fun _ ↦ True) where
  isTable := isTable_byName
  skips := by
    rintro ⟨h, e, g, body, spare⟩ d' ⟨n, v⟩ - hfield hread
    unfold readMember at hread
    simp only [hfield] at hread
    exact (Except.ok.inj hread).symm
  sets := by
    rintro ⟨h, e, g, body, spare⟩ d' ⟨n, v⟩ f - hfield hread
    unfold readMember at hread
    rw [hfield] at hread
    refine ⟨trivial, ?_⟩
    cases f with
    | kind | id | type | label =>
      obtain ⟨h', hh, rfl⟩ := map_eq_ok_iff.1 hread
      obtain ⟨s, hs, rfl⟩ := map_eq_ok_iff.1 hh
      exact ⟨.text s, ⟨_, hs⟩, by funext g; cases g <;> rfl⟩
    | line | column =>
      obtain ⟨h', hh, rfl⟩ := map_eq_ok_iff.1 hread
      obtain ⟨i, hi, rfl⟩ := map_eq_ok_iff.1 hh
      exact ⟨.word i, ⟨_, hi⟩, by funext g; cases g <;> rfl⟩
    | expression | guard =>
      obtain ⟨y, hy, rfl⟩ := map_eq_ok_iff.1 hread
      exact ⟨.expression y, ⟨_, hy⟩, by funext g; cases g <;> rfl⟩
    | body =>
      obtain ⟨l, hl, rfl⟩ := map_eq_ok_iff.1 hread
      exact ⟨.statements l, ⟨_, hl⟩, by funext g; cases g <;> rfl⟩

theorem read_object (old : StatementDoc) (members : List (String × Json)) :
    read old (.object members) =
      members.foldlM (Json.readIn "statementDoc" StatementField.byName readMember) old := by
  rw [read]
  induction members generalizing old with
  | nil => rw [readMembers]; rfl
  | cons m rest ih =>
    rw [readMembers, List.foldlM_cons]
    simp only [ih]
    rfl

/-- **The parts of a statement** are read from the last members that match their names. -/
theorem part_of_read {old d : StatementDoc} {members : List (String × Json)}
    (h : read old (.object members) = .ok d) :
    ∀ name f, (name, f) ∈ StatementField.byName → ∀ j,
      matching? name members = some j → (d.part f).ReadFrom j := by
  rw [read_object] at h
  intro name f hf
  exact (((readsFields.readIn _).foldlM_eq_ok trivial h).2 name f hf).1

/-- A statement whose members are of the sorts that their fields take can be read. -/
theorem exists_read {members : List (String × Json)}
    (h : ∀ m ∈ members, ∀ f, field? StatementField.byName m.1 = some f → f.sort.Takes m.2)
    (old : StatementDoc) : ∃ d, read old (.object members) = .ok d := by
  rw [read_object]
  refine (readsFields.readIn _).exists_foldlM trivial
    fun ⟨n, v⟩ hm ⟨hd, e, g, body, spare⟩ _ ↦ ?_
  simp only [Json.readIn, mapError_eq_ok_iff]
  have hsort := h _ hm
  unfold readMember
  cases hfield : field? StatementField.byName n with
  | none => exact ⟨_, rfl⟩
  | some f =>
    have htakes := hsort f hfield
    cases f with
    | kind | id | type | label =>
      exact exists_map_eq_ok (exists_map_eq_ok (PartSort.Takes.readText htakes _))
    | line | column =>
      exact exists_map_eq_ok (exists_map_eq_ok (PartSort.Takes.readInt64 htakes _))
    | expression | guard | body => exact exists_map_eq_ok (htakes _)

/-! ### Lists of statements -/

theorem readItems_eq_ok {items : List Json} : ∀ {earlier read' : List StatementDoc},
    readItems earlier items = .ok read' →
      List.Forall₂ (fun j d ↦ ∃ old, read old j = .ok d) items read' := by
  induction items with
  | nil =>
    intro earlier read' h
    rw [readItems] at h
    cases h
    exact .nil
  | cons j rest ih =>
    intro earlier read' h
    rw [readItems] at h
    obtain ⟨s, hs, h⟩ := bind_eq_ok_iff.1 h
    obtain ⟨tail, htail, h⟩ := bind_eq_ok_iff.1 h
    cases h
    exact .cons ⟨_, hs⟩ (ih htail)

/-- **The items of a list** are read one by one, each over some earlier statement. -/
theorem readList_eq_ok {items : List Json} {earlier : List StatementDoc}
    {l : Json.Overlaid StatementDoc} (h : readList earlier (.array items) = .ok l) :
    List.Forall₂ (fun j d ↦ ∃ old, read old j = .ok d) items l.items := by
  rw [readList] at h
  obtain ⟨read', hread, rfl⟩ := map_eq_ok_iff.1 h
  exact readItems_eq_ok hread

theorem exists_readItems {items : List Json}
    (h : ∀ j ∈ items, ∀ old, ∃ d, read old j = .ok d) :
    ∀ earlier, ∃ read', readItems earlier items = .ok read' := by
  induction items with
  | nil => exact fun earlier ↦ ⟨[], by rw [readItems]⟩
  | cons j rest ih =>
    intro earlier
    obtain ⟨hj, hrest⟩ := List.forall_mem_cons.1 h
    obtain ⟨s, hs⟩ := hj (earlier.headD empty)
    obtain ⟨tail, htail⟩ := ih hrest earlier.tail
    refine ⟨s :: tail, ?_⟩
    rw [readItems]
    exact bind_eq_ok_iff.2 ⟨s, hs, bind_eq_ok_iff.2 ⟨tail, htail, rfl⟩⟩

/-- A list whose items can be read can be read. -/
theorem exists_readList {items : List Json} (h : ∀ j ∈ items, ∀ old, ∃ d, read old j = .ok d) :
    PartSort.statements.Takes (.array items) := by
  intro earlier
  rw [readList]
  exact exists_map_eq_ok (exists_readItems h earlier)

end StatementDoc

/-! ### Forms -/

/-- The sort of part in a field of forms. -/
def FormField.sort : FormField → PartSort
  | name | file => .text
  | statements => .statements

namespace FormDoc

/-- The part of a form in a field. -/
def part (d : FormDoc) : FormField → DocPart
  | .name => .text d.name
  | .file => .text d.file
  | .statements => .statements d.statements

theorem isTable_byName : Json.IsTable FormField.byName where
  names := by decide
  fields := by decide

/-- **A member of a form** sets the part in its field. -/
theorem readsFields :
    ReadsFields FormField.byName readMember part DocPart.ReadFrom (fun _ ↦ True) where
  isTable := isTable_byName
  skips := by
    rintro d d' m - hfield hread
    rw [readMember, hfield] at hread
    exact (Except.ok.inj hread).symm
  sets := by
    rintro d d' m f - hfield hread
    rw [readMember, hfield] at hread
    refine ⟨trivial, ?_⟩
    cases f with
    | name | file =>
      obtain ⟨s, hs, rfl⟩ := map_eq_ok_iff.1 hread
      exact ⟨.text s, ⟨_, hs⟩, by funext g; cases g <;> rfl⟩
    | statements =>
      obtain ⟨l, hl, rfl⟩ := map_eq_ok_iff.1 hread
      exact ⟨.statements l, ⟨_, hl⟩, by funext g; cases g <;> rfl⟩

/-- A form whose members are of the sorts that their fields take can be read. -/
theorem exists_read {members : List (String × Json)}
    (h : ∀ m ∈ members, ∀ f, field? FormField.byName m.1 = some f → f.sort.Takes m.2)
    (old : FormDoc) : ∃ d, readMembers old members = .ok d := by
  refine (readsFields.readIn _).exists_foldlM trivial fun m hm d _ ↦ ?_
  simp only [Json.readIn, mapError_eq_ok_iff]
  have hsort := h m hm
  rw [readMember]
  cases hfield : field? FormField.byName m.1 with
  | none => exact ⟨d, rfl⟩
  | some f =>
    have htakes := hsort f hfield
    cases f with
    | name | file => exact exists_map_eq_ok (PartSort.Takes.readText htakes _)
    | statements => exact exists_map_eq_ok (htakes _)

end FormDoc

end Questionnaire
