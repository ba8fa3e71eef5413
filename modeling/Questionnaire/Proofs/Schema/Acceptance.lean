import Questionnaire.Proofs.Schema.Validators

/-!
# The schemas describe the grammar

`failures_form_eq_nil_iff` says that a document fails nothing by the schema of forms exactly when it
is a form of the grammar, with the integers that the type of integers admits. What the schemas of
expressions and statements ask of each kind comes to the clauses of the grammar, and the induction
goes through the members that hold further expressions and statements. For every validator that
implements the schema, and by the values of numbers, this is `validate_eq_nil_iff_isForm`.
-/

namespace Questionnaire.Schema

open Json (member? PartOf ChildOf)

variable {integer : Json.Numeral → Prop} {location : List String} {s : Subschema} {j : Json}
  {members : List (String × Json)}

/-! ### Single values -/

theorem failures_typed_eq_nil_iff {t : TypeName} :
    failures (.inPlace (.mk [.type t])) j location = [] ↔ t.admits j = true := by
  rw [failures_mk_eq_nil_iff, List.forall_mem_singleton, Keyword.holds_type_iff]

theorem admits_string_iff : TypeName.string.admits j = true ↔ ∃ s, j = .string s := by
  cases j <;> simp [TypeName.admits, TypeName.ofJson]

theorem admits_array_iff : TypeName.array.admits j = true ↔ ∃ items, j = .array items := by
  cases j <;> simp [TypeName.admits, TypeName.ofJson]

theorem failures_string_eq_nil_iff :
    failures (.inPlace (.mk [.type .string])) j location = [] ↔ ∃ s, True ∧ j = .string s := by
  rw [failures_typed_eq_nil_iff, admits_string_iff]
  simp

theorem failures_words_eq_nil_iff {words : List String} :
    failures (.inPlace (.mk [.enum words])) j location = [] ↔ ∃ s ∈ words, j = .string s := by
  rw [failures_mk_eq_nil_iff, List.forall_mem_singleton, Keyword.holds_enum_iff]

theorem failures_type_eq_nil_iff :
    failures (.ref .type) j location = [] ↔
      ∃ s ∈ ["boolean", "integer", "decimal", "string"], j = .string s := by
  rw [failures_ref]
  exact failures_words_eq_nil_iff

theorem failures_someText_eq_nil_iff :
    failures (.inPlace (.mk [.type .string, .minLength 1])) j location = [] ↔
      ∃ s, s ≠ "" ∧ j = .string s := by
  rw [failures_mk_eq_nil_iff, List.forall_mem_cons, List.forall_mem_singleton,
    Keyword.holds_type_iff, admits_string_iff]
  constructor
  · rintro ⟨⟨s, rfl⟩, hlength⟩
    refine ⟨s, fun hempty ↦ ?_, rfl⟩
    rw [Keyword.holds_minLength_iff, hempty] at hlength
    exact absurd hlength (by decide)
  · rintro ⟨s, hne, rfl⟩
    refine ⟨⟨s, rfl⟩, Keyword.holds_minLength_iff.2 ?_⟩
    rw [Nat.one_le_iff_ne_zero, ne_eq, ← String.length_toList, List.length_eq_zero_iff,
      String.toList_eq_nil_iff]
    exact hne

theorem failures_coordinate_eq_nil_iff (h : DecidesIntegers integer j) :
    failures (.ref .coordinate) j location = [] ↔ IsCoordinate integer j := by
  rw [failures_ref]
  show failures (.inPlace (.mk [.type .integer, .minimumZero])) j location = [] ↔ _
  rw [failures_mk_eq_nil_iff, List.forall_mem_cons, List.forall_mem_singleton,
    Keyword.holds_type_iff]
  cases j with
  | number n =>
    rw [h n (.refl _), Keyword.holds_minimumZero_iff]
    exact ⟨fun ⟨hn, hnonneg⟩ ↦ ⟨hn, hnonneg⟩, fun ⟨hn, hnonneg⟩ ↦ ⟨hn, hnonneg⟩⟩
  | _ => exact iff_of_false (by simp [TypeName.admits, TypeName.ofJson]) (by rintro ⟨⟩)

theorem isIdentifierStart_iff {c : Char} : isIdentifierStart c ↔ c.isAlpha ∨ c = '_' := by
  have halpha : c.isAlpha = (decide ('A' ≤ c ∧ c ≤ 'Z') || ('a' ≤ c && c ≤ 'z')) := rfl
  simp [isIdentifierStart, halpha]

theorem isIdentifierRest_iff {c : Char} : isIdentifierRest c ↔ c.isAlphanum ∨ c = '_' := by
  rw [isIdentifierRest, Bool.or_eq_true_iff, isIdentifierStart_iff, Char.isAlphanum,
    Bool.or_eq_true_iff]
  simp [Char.isDigit, Char.le_def]
  tauto

theorem admits_identifier_iff {s : String} :
    Pattern.identifier.admits s = true ↔ IsIdentifier s := by
  constructor
  · intro hadmits
    cases hchars : s.toList with
    | nil => simp [Pattern.admits, hchars, isIdentifier] at hadmits
    | cons c rest =>
      simp only [Pattern.admits, hchars, isIdentifier, Bool.and_eq_true_iff, List.all_eq_true]
        at hadmits
      exact ⟨hchars, isIdentifierStart_iff.1 hadmits.1,
        fun d hd ↦ isIdentifierRest_iff.1 (hadmits.2 d hd)⟩
  · rintro ⟨hchars, hstart, hfollow⟩
    rw [Pattern.admits, hchars, isIdentifier, Bool.and_eq_true_iff, List.all_eq_true]
    exact ⟨isIdentifierStart_iff.2 hstart, fun d hd ↦ isIdentifierRest_iff.2 (hfollow d hd)⟩

theorem failures_identifier_eq_nil_iff :
    failures (.ref .identifier) j location = [] ↔ ∃ s, IsIdentifier s ∧ j = .string s := by
  rw [failures_ref]
  show failures (.inPlace (.mk [.type .string, .pattern .identifier])) j location = [] ↔ _
  rw [failures_mk_eq_nil_iff, List.forall_mem_cons, List.forall_mem_singleton,
    Keyword.holds_type_iff, admits_string_iff]
  constructor
  · rintro ⟨⟨s, rfl⟩, hpattern⟩
    exact ⟨s, admits_identifier_iff.1 (Keyword.holds_pattern_iff.1 hpattern), rfl⟩
  · rintro ⟨s, hs, rfl⟩
    exact ⟨⟨s, rfl⟩, Keyword.holds_pattern_iff.2 (admits_identifier_iff.2 hs)⟩

/-! ### Members by their schemas -/

/-- A member that has to be a text of some sort. -/
theorem obeys_text_iff {name : String} {sort : String → Prop}
    (h : ∀ {location j}, failures s j location = [] ↔ ∃ t, sort t ∧ j = .string t) :
    Obeys location members name s ↔ ∃ t, sort t ∧ member? name members = some (.string t) := by
  simp only [Obeys, h]
  constructor
  · rintro ⟨j, hj, t, ht, rfl⟩
    exact ⟨t, ht, hj⟩
  · rintro ⟨t, ht, hj⟩
    exact ⟨_, hj, t, ht, rfl⟩

theorem obeys_coordinate_iff (h : DecidesIntegers integer (.object members)) {name : String} :
    Obeys location members name (.ref .coordinate) ↔
      ∃ j, member? name members = some j ∧ IsCoordinate integer j :=
  exists_congr fun _ ↦ and_congr_right fun hj ↦ failures_coordinate_eq_nil_iff (h.member hj)

/-- What has the given members, and any others. -/
theorem failures_open_eq_nil_iff {names : List String} {schemas : List (String × Subschema)}
    (hnames : names = schemas.map Prod.fst) :
    failures (.inPlace (.mk [.required names, .properties schemas])) (.object members) location = []
      ↔ ∀ p ∈ schemas, Obeys location members p.1 p.2 := by
  rw [failures_mk_eq_nil_iff, obeys_iff_holds, List.forall_mem_cons, List.forall_mem_singleton,
    hnames]

/-- What has the given members, a kind and a position, and no others. -/
theorem failures_statementKeywords_eq_nil_iff {names : List String}
    {schemas : List (String × Subschema)} (hnames : names = schemas.map Prod.fst) :
    failures (.inPlace (.mk (statementKeywords names schemas))) (.object members) location = [] ↔
      (∀ p ∈ schemas, Obeys location members p.1 p.2) ∧
        HasOnly (["kind", "line", "column"] ++ names) members := by
  rw [hnames, failures_mk_eq_nil_iff, obeys_iff_holds, statementKeywords, List.forall_mem_cons,
    List.forall_mem_cons, List.forall_mem_cons, List.forall_mem_singleton,
    Keyword.holds_noAdditionalProperties_iff, and_iff_left Keyword.holds_patternProperties,
    ← and_assoc]
  refine and_congr_right fun _ ↦ forall₂_congr fun m _ ↦ ?_
  simp [Keyword.covers, Json.hasMember, Pattern.admits, or_comm, or_assoc, or_left_comm]

/-! ### Kinds -/

/-- What has one of some kinds and a position, and what else is asked for its kind. -/
def kindKeywords (kinds : List (String × List Keyword)) : List Keyword :=
  [.type .object,
    .required ["kind", "line", "column"],
    .properties
      [("kind", .inPlace (.mk [.enum (kinds.map Prod.fst)])),
        ("line", .ref .coordinate), ("column", .ref .coordinate)],
    .allOf (kinds.map fun p ↦ whereMember "kind" p.1 p.2)]

/-- A kind and a position are asked for, and what else is asked for the kind. -/
theorem failures_kindKeywords_eq_nil_iff (h : DecidesIntegers integer (.object members))
    {kinds : List (String × List Keyword)} (hkinds : (kinds.map Prod.fst).Nodup) :
    failures (.inPlace (.mk (kindKeywords kinds))) (.object members) location = [] ↔
      ∃ p ∈ kinds, HasHead integer p.1 members ∧
        failures (.inPlace (.mk p.2)) (.object members) location = [] := by
  have hhead : (∀ p ∈ [("kind", Subschema.inPlace (.mk [.enum (kinds.map Prod.fst)])),
      ("line", .ref .coordinate), ("column", .ref .coordinate)],
      Obeys location members p.1 p.2) ↔
        ∃ p ∈ kinds, HasHead integer p.1 members := by
    simp only [List.forall_mem_cons, List.not_mem_nil, false_imp_iff, implies_true, and_true,
      obeys_text_iff failures_words_eq_nil_iff, obeys_coordinate_iff h]
    constructor
    · rintro ⟨⟨kind, hmem, hkind⟩, hline, hcolumn⟩
      obtain ⟨p, hp, rfl⟩ := List.mem_map.1 hmem
      exact ⟨p, hp, hkind, hline, hcolumn⟩
    · rintro ⟨p, hp, hkind, hline, hcolumn⟩
      exact ⟨⟨p.1, List.mem_map_of_mem hp, hkind⟩, hline, hcolumn⟩
  have hobject : TypeName.object.admits (.object members) = true := rfl
  have hall : failures (.inPlace (.mk (kindKeywords kinds))) (.object members) location = [] ↔
      (∃ p ∈ kinds, HasHead integer p.1 members) ∧
        ∀ p ∈ kinds, member? "kind" members = some (.string p.1) →
          failures (.inPlace (.mk p.2)) (.object members) location = [] := by
    rw [← hhead, failures_mk_eq_nil_iff, obeys_iff_holds, and_assoc, kindKeywords,
      List.forall_mem_cons, Keyword.holds_type_iff, hobject, List.forall_mem_cons,
      List.forall_mem_cons, List.forall_mem_singleton, Keyword.holds_allOf_iff,
      List.forall_mem_map]
    simp only [failures_whereMember_eq_nil_iff, true_and]
    rfl
  rw [hall]
  constructor
  · rintro ⟨⟨p, hp, hhead⟩, hasked⟩
    exact ⟨p, hp, hhead, hasked p hp hhead.kind⟩
  · rintro ⟨p, hp, hhead, hasked⟩
    refine ⟨⟨p, hp, hhead⟩, fun q hq hkind ↦ ?_⟩
    have hpq : p.1 = q.1 := by simpa using hhead.kind.symm.trans hkind
    rwa [← List.inj_on_of_nodup_map hkinds hp hq hpq]

/-- What is not an object fails what asks for one. -/
theorem failures_ne_nil_of_not_object {keywords : List Keyword} (htype : .type .object ∈ keywords)
    (hj : ∀ members, j ≠ .object members) : failures (.inPlace (.mk keywords)) j location ≠ [] := by
  rw [ne_eq, failures_mk_eq_nil_iff]
  intro hholds
  have hadmits := Keyword.holds_type_iff.1 (hholds _ htype)
  cases j with
  | object members => exact hj members rfl
  | _ => simp [TypeName.admits, TypeName.ofJson] at hadmits

/-! ### Expressions -/

/-- The words for types, with the types that the values of literals have for them. -/
def literalTypes : List (String × TypeName) :=
  [("boolean", .boolean), ("integer", .integer), ("decimal", .number), ("string", .string)]

theorem isLiteral_iff (h : DecidesIntegers integer j) {type : String} :
    IsLiteral integer type j ↔ ∃ p ∈ literalTypes, p.1 = type ∧ p.2.admits j = true := by
  constructor
  · rintro (_ | hn | _ | _)
    · exact ⟨("boolean", .boolean), by simp [literalTypes], rfl, rfl⟩
    · exact ⟨("integer", .integer), by simp [literalTypes], rfl, (h _ (.refl _)).2 hn⟩
    · exact ⟨("decimal", .number), by simp [literalTypes], rfl, rfl⟩
    · exact ⟨("string", .string), by simp [literalTypes], rfl, rfl⟩
  · rintro ⟨p, hp, rfl, hadmits⟩
    simp only [literalTypes, List.mem_cons, List.not_mem_nil, or_false] at hp
    rcases hp with rfl | rfl | rfl | rfl <;> cases j <;>
      try simp [TypeName.admits, TypeName.ofJson] at hadmits
    · exact .boolean
    · exact .integer ((h _ (.refl _)).1 hadmits)
    · exact .decimal
    · exact .string

/-- What is asked of a literal. -/
def literalKeywords : List Keyword :=
  [.required ["type", "value"],
    .properties [("type", .ref .type)],
    .allOf (literalTypes.map fun p ↦ whereType p.1 p.2)]

theorem failures_whereType_eq_nil_iff {word : String} {t : TypeName} :
    failures (.inPlace (whereType word t)) (.object members) location = [] ↔
      (member? "type" members = some (.string word) →
        ∀ k, member? "value" members = some k → t.admits k = true) := by
  rw [whereType, failures_whereMember_eq_nil_iff, failures_mk_eq_nil_iff,
    List.forall_mem_singleton, Keyword.holds_properties_iff, List.forall_mem_singleton]
  simp only [failures_typed_eq_nil_iff]

theorem failures_literal_eq_nil_iff (h : DecidesIntegers integer (.object members)) :
    failures (.inPlace (.mk literalKeywords)) (.object members) location = [] ↔
      ∃ type value, member? "type" members = some (.string type) ∧
        member? "value" members = some value ∧ IsLiteral integer type value := by
  have hholds : failures (.inPlace (.mk literalKeywords)) (.object members) location = [] ↔
      (∀ name ∈ ["type", "value"], ∃ k, member? name members = some k) ∧
      (∀ k, member? "type" members = some k →
        failures (.ref .type) k (location ++ ["type"]) = []) ∧
      ∀ p ∈ literalTypes, member? "type" members = some (.string p.1) →
        ∀ k, member? "value" members = some k → p.2.admits k = true := by
    rw [failures_mk_eq_nil_iff, literalKeywords, List.forall_mem_cons, List.forall_mem_cons,
      List.forall_mem_singleton, Keyword.holds_required_iff, Keyword.holds_properties_iff,
      List.forall_mem_singleton, Keyword.holds_allOf_iff, List.forall_mem_map]
    simp only [failures_whereType_eq_nil_iff]
  rw [hholds]
  constructor
  · rintro ⟨hrequired, htype, hvalue⟩
    obtain ⟨t, ht⟩ := hrequired "type" (by simp)
    obtain ⟨v, hv⟩ := hrequired "value" (by simp)
    obtain ⟨type, hword, rfl⟩ := failures_type_eq_nil_iff.1 (htype t ht)
    obtain ⟨p, hp, rfl⟩ : ∃ p ∈ literalTypes, p.1 = type := by
      simpa [literalTypes, eq_comm] using hword
    exact ⟨p.1, v, ht, hv, (isLiteral_iff (h.member hv)).2 ⟨p, hp, rfl, hvalue p hp ht v hv⟩⟩
  · rintro ⟨type, v, ht, hv, hliteral⟩
    obtain ⟨p, hp, rfl, hadmits⟩ := (isLiteral_iff (h.member hv)).1 hliteral
    refine ⟨by simp [ht, hv], ?_, ?_⟩
    · simp only [ht, Option.some.injEq, forall_eq']
      refine failures_type_eq_nil_iff.2 ⟨p.1, ?_, rfl⟩
      exact List.mem_map_of_mem hp
    · intro q hq hname k hk
      obtain rfl := Option.some.inj (hv.symm.trans hk)
      have hwords : (literalTypes.map Prod.fst).Nodup := by simp [literalTypes]
      have hpq : p.1 = q.1 := by simpa using ht.symm.trans hname
      rwa [← List.inj_on_of_nodup_map hwords hp hq hpq]

theorem failures_reference_eq_nil_iff :
    failures (.inPlace (.mk [.required ["name"],
        .properties [("name", .inPlace (.mk [.type .string, .minLength 1]))]]))
        (.object members) location = [] ↔
      ∃ name, name ≠ "" ∧ member? "name" members = some (.string name) := by
  rw [← obeys_text_iff failures_someText_eq_nil_iff]
  exact (failures_open_eq_nil_iff (by rfl)).trans List.forall_mem_singleton

/-- What is asked of expressions by their kinds. -/
def expressionKinds : List (String × List Keyword) :=
  [("literal", literalKeywords),
    ("reference", [.required ["name"],
      .properties [("name", .inPlace (.mk [.type .string, .minLength 1]))]]),
    ("unary", [.required ["operator", "operand"],
      .properties [("operator", .inPlace (.mk [.enum ["!", "-", "+"]])),
        ("operand", .ref .expression)]]),
    ("binary", [.required ["operator", "left", "right"],
      .properties
        [("operator", .inPlace (.mk [.enum ["+", "-", "*", "/", "%", "^", "&&", "||", "==",
          "!=", "<", "<=", ">", ">="]])),
          ("left", .ref .expression), ("right", .ref .expression)]])]

theorem failures_unary_eq_nil_iff :
    failures (.inPlace (.mk [.required ["operator", "operand"],
        .properties [("operator", .inPlace (.mk [.enum ["!", "-", "+"]])),
          ("operand", .ref .expression)]])) (.object members) location = [] ↔
      (∃ operator ∈ ["!", "-", "+"], member? "operator" members = some (.string operator)) ∧
        Obeys location members "operand" (.ref .expression) := by
  refine (failures_open_eq_nil_iff (by rfl)).trans ?_
  rw [List.forall_mem_cons, List.forall_mem_singleton, obeys_text_iff failures_words_eq_nil_iff]

theorem failures_binary_eq_nil_iff {operators : List String} :
    failures (.inPlace (.mk [.required ["operator", "left", "right"],
        .properties [("operator", .inPlace (.mk [.enum operators])),
          ("left", .ref .expression), ("right", .ref .expression)]]))
        (.object members) location = [] ↔
      (∃ operator ∈ operators, member? "operator" members = some (.string operator)) ∧
        Obeys location members "left" (.ref .expression) ∧
        Obeys location members "right" (.ref .expression) := by
  refine (failures_open_eq_nil_iff (by rfl)).trans ?_
  rw [List.forall_mem_cons, List.forall_mem_cons, List.forall_mem_singleton,
    obeys_text_iff failures_words_eq_nil_iff]

/-- **The schema of expressions** describes the expressions of the grammar. -/
theorem failures_expression_eq_nil_iff (h : DecidesIntegers integer j) :
    ∀ location, failures (.ref .expression) j location = [] ↔ IsExpression integer j := by
  induction j using Json.childInduction with
  | step j ih =>
  intro location
  rw [failures_ref]
  show failures (.inPlace (.mk (kindKeywords expressionKinds))) j location = [] ↔ _
  cases j with
  | object members =>
    have hobeys : ∀ name, Obeys location members name (.ref .expression) ↔
        ∃ k, member? name members = some k ∧ IsExpression integer k :=
      fun name ↦ exists_congr fun k ↦ and_congr_right fun hk ↦ ih k (.member hk) (h.member hk) _
    rw [failures_kindKeywords_eq_nil_iff h (by simp [expressionKinds])]
    constructor
    · rintro ⟨p, hp, hhead, hasked⟩
      simp only [expressionKinds, List.mem_cons, List.not_mem_nil, or_false] at hp
      rcases hp with rfl | rfl | rfl | rfl
      · obtain ⟨type, value, htype, hvalue, hliteral⟩ := (failures_literal_eq_nil_iff h).1 hasked
        exact .literal hhead htype hvalue hliteral
      · obtain ⟨name, hne, hname⟩ := failures_reference_eq_nil_iff.1 hasked
        exact .reference hhead hname hne
      · obtain ⟨⟨operator, hknown, hoperator⟩, hoperand⟩ := failures_unary_eq_nil_iff.1 hasked
        obtain ⟨x, hx, hvalid⟩ := (hobeys _).1 hoperand
        exact .unary hhead hoperator hknown hx hvalid
      · obtain ⟨⟨operator, hknown, hoperator⟩, hleft, hright⟩ :=
          failures_binary_eq_nil_iff.1 hasked
        obtain ⟨l, hl, hlvalid⟩ := (hobeys _).1 hleft
        obtain ⟨r, hr, hrvalid⟩ := (hobeys _).1 hright
        exact .binary hhead hoperator hknown hl hlvalid hr hrvalid
    · intro hexpression
      cases hexpression with
      | literal head htype hvalue matching =>
        refine ⟨_, .head _, head, ?_⟩
        exact (failures_literal_eq_nil_iff h).2 ⟨_, _, htype, hvalue, matching⟩
      | reference head hname nonempty =>
        refine ⟨_, .tail _ (.head _), head, ?_⟩
        exact failures_reference_eq_nil_iff.2 ⟨_, nonempty, hname⟩
      | unary head hoperator known hoperand operandValid =>
        refine ⟨_, .tail _ (.tail _ (.head _)), head, ?_⟩
        exact failures_unary_eq_nil_iff.2
          ⟨⟨_, known, hoperator⟩, (hobeys _).2 ⟨_, hoperand, operandValid⟩⟩
      | binary head hoperator known hleft leftValid hright rightValid =>
        refine ⟨_, .tail _ (.tail _ (.tail _ (.head _))), head, ?_⟩
        exact failures_binary_eq_nil_iff.2 ⟨⟨_, known, hoperator⟩,
          (hobeys _).2 ⟨_, hleft, leftValid⟩, (hobeys _).2 ⟨_, hright, rightValid⟩⟩
  | _ =>
    exact iff_of_false (failures_ne_nil_of_not_object (.head _) (by simp)) (by rintro ⟨⟩)

/-! ### Statements -/

theorem declares_iff :
    (∀ p ∈ questionProperties, Obeys location members p.1 p.2) ↔ Declares members := by
  simp only [questionProperties, List.forall_mem_cons, List.not_mem_nil, false_imp_iff,
    implies_true, and_true, obeys_text_iff failures_identifier_eq_nil_iff,
    obeys_text_iff failures_type_eq_nil_iff, obeys_text_iff failures_string_eq_nil_iff, true_and]
  constructor
  · rintro ⟨⟨s, hs, hid⟩, htype, hlabel⟩
    exact ⟨⟨s, hid, hs⟩, htype, hlabel⟩
  · rintro ⟨⟨s, hid, hs⟩, htype, hlabel⟩
    exact ⟨⟨s, hs, hid⟩, htype, hlabel⟩

theorem failures_question_eq_nil_iff :
    failures (.inPlace (.mk (statementKeywords ["id", "type", "label"] questionProperties)))
        (.object members) location = [] ↔
      Declares members ∧ HasOnly ["kind", "line", "column", "id", "type", "label"] members := by
  refine (failures_statementKeywords_eq_nil_iff (by rfl)).trans ?_
  rw [declares_iff]
  rfl

theorem failures_calculated_eq_nil_iff :
    failures (.inPlace (.mk (statementKeywords ["id", "type", "label", "expression"]
        (questionProperties ++ [("expression", .ref .expression)]))))
        (.object members) location = [] ↔
      (Declares members ∧ Obeys location members "expression" (.ref .expression)) ∧
        HasOnly ["kind", "line", "column", "id", "type", "label", "expression"] members := by
  refine (failures_statementKeywords_eq_nil_iff (by rfl)).trans ?_
  rw [List.forall_mem_append, declares_iff, List.forall_mem_singleton]
  rfl

theorem failures_condition_eq_nil_iff :
    failures (.inPlace (.mk (statementKeywords ["guard", "body"]
        [("guard", .ref .expression), ("body", .inPlace statementsSchema)])))
        (.object members) location = [] ↔
      (Obeys location members "guard" (.ref .expression) ∧
        Obeys location members "body" (.inPlace statementsSchema)) ∧
        HasOnly ["kind", "line", "column", "guard", "body"] members := by
  refine (failures_statementKeywords_eq_nil_iff (by rfl)).trans ?_
  rw [List.forall_mem_cons, List.forall_mem_singleton]
  rfl

/-- What is asked of statements by their kinds. -/
def statementKinds : List (String × List Keyword) :=
  [("question", statementKeywords ["id", "type", "label"] questionProperties),
    ("calculated", statementKeywords ["id", "type", "label", "expression"]
      (questionProperties ++ [("expression", .ref .expression)])),
    ("condition", statementKeywords ["guard", "body"]
      [("guard", .ref .expression), ("body", .inPlace statementsSchema)])]

/-- A list of statements, where the schema of statements describes its items. -/
theorem failures_statements_eq_nil_iff
    (h : ∀ k, ChildOf k j → ∀ location,
      failures (.ref .statement) k location = [] ↔ IsStatement integer k) :
    failures (.inPlace statementsSchema) j location = [] ↔
      ∃ items, j = .array items ∧ ∀ k ∈ items, IsStatement integer k := by
  rw [statementsSchema, failures_mk_eq_nil_iff, List.forall_mem_cons, List.forall_mem_singleton,
    Keyword.holds_type_iff, admits_array_iff]
  constructor
  · rintro ⟨⟨items, rfl⟩, hholds⟩
    refine ⟨items, rfl, fun k hk ↦ ?_⟩
    obtain ⟨i, hi⟩ := List.mem_iff_getElem?.1 hk
    have hitem : (k, i) ∈ items.zipIdx := List.mk_mem_zipIdx_iff_getElem?.2 hi
    exact (h k (.item hk) _).1 (Keyword.holds_items_iff.1 hholds _ hitem)
  · rintro ⟨items, rfl, hstatements⟩
    refine ⟨⟨items, rfl⟩, Keyword.holds_items_iff.2 ?_⟩
    rintro ⟨k, i⟩ hitem
    have hk : k ∈ items := List.fst_mem_of_mem_zipIdx hitem
    exact (h k (.item hk) _).2 (hstatements k hk)

/-- **The schema of statements** describes the statements of the grammar, one by one and in
lists. -/
theorem failures_statement_eq_nil_iff (h : DecidesIntegers integer j) :
    ∀ location, (failures (.ref .statement) j location = [] ↔ IsStatement integer j) ∧
      (failures (.inPlace statementsSchema) j location = [] ↔
        ∃ items, j = .array items ∧ ∀ k ∈ items, IsStatement integer k) := by
  induction j using Json.childInduction with
  | step j ih =>
  intro location
  refine ⟨?_, failures_statements_eq_nil_iff fun k hk ↦
    fun location ↦ (ih k hk (h.of_partOf (.of_childOf hk)) location).1⟩
  rw [failures_ref]
  show failures (.inPlace (.mk (kindKeywords statementKinds))) j location = [] ↔ _
  cases j with
  | object members =>
    have hexpression : ∀ name, Obeys location members name (.ref .expression) ↔
        ∃ k, member? name members = some k ∧ IsExpression integer k :=
      fun name ↦ exists_congr fun k ↦ and_congr_right fun hk ↦
        failures_expression_eq_nil_iff (h.member hk) _
    have hlist : ∀ name, Obeys location members name (.inPlace statementsSchema) ↔
        ∃ items, member? name members = some (.array items) ∧
          ∀ k ∈ items, IsStatement integer k := by
      intro name
      constructor
      · rintro ⟨k, hk, hfailures⟩
        obtain ⟨items, rfl, hitems⟩ := (ih k (.member hk) (h.member hk) _).2.1 hfailures
        exact ⟨items, hk, hitems⟩
      · rintro ⟨items, hk, hitems⟩
        exact ⟨_, hk, (ih _ (.member hk) (h.member hk) _).2.2 ⟨items, rfl, hitems⟩⟩
    rw [failures_kindKeywords_eq_nil_iff h (by simp [statementKinds])]
    constructor
    · rintro ⟨p, hp, hhead, hasked⟩
      simp only [statementKinds, List.mem_cons, List.not_mem_nil, or_false] at hp
      rcases hp with rfl | rfl | rfl
      · obtain ⟨hdeclares, honly⟩ := failures_question_eq_nil_iff.1 hasked
        exact .question hhead hdeclares honly
      · obtain ⟨⟨hdeclares, hvalue⟩, honly⟩ := failures_calculated_eq_nil_iff.1 hasked
        obtain ⟨e, he, hvalid⟩ := (hexpression _).1 hvalue
        exact .calculated hhead hdeclares he hvalid honly
      · obtain ⟨⟨hguard, hbody⟩, honly⟩ := failures_condition_eq_nil_iff.1 hasked
        obtain ⟨g, hg, hgvalid⟩ := (hexpression _).1 hguard
        obtain ⟨items, hitems, hvalid⟩ := (hlist _).1 hbody
        exact .condition hhead hg hgvalid hitems hvalid honly
    · intro hstatement
      cases hstatement with
      | question head declares only =>
        exact ⟨_, .head _, head, failures_question_eq_nil_iff.2 ⟨declares, only⟩⟩
      | calculated head declares hvalue valueValid only =>
        refine ⟨_, .tail _ (.head _), head, failures_calculated_eq_nil_iff.2 ⟨⟨declares, ?_⟩, only⟩⟩
        exact (hexpression _).2 ⟨_, hvalue, valueValid⟩
      | condition head hguard guardValid hbody bodyValid only =>
        refine ⟨_, .tail _ (.tail _ (.head _)), head,
          failures_condition_eq_nil_iff.2 ⟨⟨?_, ?_⟩, only⟩⟩
        · exact (hexpression _).2 ⟨_, hguard, guardValid⟩
        · exact (hlist _).2 ⟨_, hbody, bodyValid⟩
  | _ =>
    exact iff_of_false (failures_ne_nil_of_not_object (.head _) (by simp)) (by rintro ⟨⟩)

/-! ### Forms -/

/-- **A document fails nothing** by the schema of forms exactly when it is a form, for the integers
that are admitted. -/
theorem failures_form_eq_nil_iff (h : DecidesIntegers integer j) :
    failures (.inPlace formSchema) j location = [] ↔ IsForm integer j := by
  cases j with
  | object members =>
    have hobject : TypeName.object.admits (.object members) = true := rfl
    rw [formSchema, failures_mk_eq_nil_iff, List.forall_mem_cons, Keyword.holds_type_iff, hobject,
      List.forall_mem_cons, Keyword.holds_required_iff, List.forall_mem_singleton,
      List.forall_mem_cons, Keyword.holds_noAdditionalProperties_iff, List.forall_mem_singleton,
      Keyword.holds_properties_iff, List.forall_mem_cons, List.forall_mem_cons,
      List.forall_mem_singleton]
    have honly : ∀ m : String × Json,
        ([Keyword.type .object, .required ["statements"], .noAdditionalProperties, .properties
          [("name", .inPlace (.mk [.type .string])), ("file", .inPlace (.mk [.type .string])),
            ("statements", .inPlace statementsSchema)]].any (Keyword.covers m.1) = true ↔
          m.1 ∈ ["name", "file", "statements"]) := by
      intro m
      simp [Keyword.covers, Json.hasMember, @eq_comm _ m.1]
    simp only [honly, failures_string_eq_nil_iff, true_and]
    constructor
    · rintro ⟨⟨k, hk⟩, hclosed, hname, hfile, hstatements⟩
      obtain ⟨items, rfl, hvalid⟩ :=
        (failures_statement_eq_nil_iff (h.member hk) _).2.1 (hstatements k hk)
      exact ⟨hk, hvalid, hname, hfile, hclosed⟩
    · rintro ⟨hstatements, hvalid, hname, hfile, hclosed⟩
      refine ⟨⟨_, hstatements⟩, hclosed, hname, hfile, fun k hk ↦ ?_⟩
      obtain rfl := Option.some.inj (hk.symm.trans hstatements)
      exact (failures_statement_eq_nil_iff (h.member hk) _).2.2 ⟨_, rfl, hvalid⟩
  | _ =>
    exact iff_of_false (failures_ne_nil_of_not_object (.head _) (by simp)) (by rintro ⟨⟩)

/-- **The schemas describe the grammar.** A validator that implements them finds no error in a
document exactly when it is a form of the grammar: for the integers that are told by their spelling,
and for those that are told by their value, where the type of integers admits the same numbers. -/
theorem validate_eq_nil_iff_isForm {v : Validator} (h : v.Implements formSchema) (doc : Json) :
    (v.validateDocument doc = [] ↔ IsForm (fun n ↦ n.isInteger) doc) ∧
      (DecidesIntegers Json.Numeral.IsInteger doc →
        (v.validateDocument doc = [] ↔ IsForm Json.Numeral.IsInteger doc)) := by
  rw [Validator.validateDocument_eq_nil_iff h]
  exact ⟨failures_form_eq_nil_iff fun _ _ ↦ Iff.rfl, failures_form_eq_nil_iff⟩

/-- A condition with a question in it. The numbers are spelled `1.0`, `120e-1` and `1E2`, and the
reference has a member that no reference needs. -/
def oddlySpelled : Json :=
  let one := Json.number { whole := ['1'], fraction := ['0'] }
  let twelve := Json.number
    { whole := ['1', '2', '0'], exponent := some ⟨'e', some '-', ['1']⟩ }
  let hundred := Json.number { whole := ['1'], exponent := some ⟨'E', none, ['2']⟩ }
  .object [("name", .string "sale"), ("statements", .array [
    .object [("kind", .string "condition"), ("line", one), ("column", one),
      ("guard", .object [("kind", .string "unary"), ("line", one), ("column", twelve),
        ("operator", .string "!"),
        ("operand", .object [("kind", .string "reference"), ("line", one), ("column", twelve),
          ("name", .string "sold"), ("type", .null)])]),
      ("body", .array [
        .object [("kind", .string "question"), ("line", hundred), ("column", one),
          ("id", .string "price_1"), ("type", .string "decimal"), ("label", .string "")]])]])]

theorem isForm_oddlySpelled :
    Validator.standard.Implements formSchema ∧
      DecidesIntegers Json.Numeral.IsInteger oddlySpelled ∧
      Validator.standard.validateDocument oddlySpelled = [] ∧
      IsForm Json.Numeral.IsInteger oddlySpelled := by
  have hdecides : DecidesIntegers Json.Numeral.IsInteger oddlySpelled :=
    decidesIntegers_of_inBounds (by decide)
  have hvalid : Validator.standard.validateDocument oddlySpelled = [] := by decide +kernel
  exact ⟨standard_implements, hdecides, hvalid,
    ((validate_eq_nil_iff_isForm standard_implements _).2 hdecides).1 hvalid⟩

end Questionnaire.Schema
