import Questionnaire.Proofs.Declarations
import Questionnaire.Proofs.Typing.Accumulation

/-!
# The typing judgement

`HasType` says which expressions have which types, by rules and with no findings in it. The rules of
the operators are kept apart from those of expressions: `UnaryOp.Takes` and `BinaryOp.Takes` relate
operand types to the type of the result, and know nothing of the lists of operand types that the
check looks into.

`judges_outcome` ties the two together for every expression that is there with known operators, over
a table of declarable types: the type that the check comes to is the one the rules give, it is
`undefined` exactly where they give none, and then, and only then, something is reported.
-/

namespace Questionnaire

/-! ### The rules of the operators -/

namespace ValueType

/-- The types of numbers. -/
inductive IsNumeric : ValueType → Prop
  | integer : IsNumeric integer
  | decimal : IsNumeric decimal

/-- The types of numbers and of text. -/
inductive IsAlphanumeric : ValueType → Prop
  | integer : IsAlphanumeric integer
  | decimal : IsAlphanumeric decimal
  | string : IsAlphanumeric string

/-- The common type of two operands: the type of both, or decimal for an integer and a decimal. -/
inductive Common : ValueType → ValueType → ValueType → Prop
  | same (t : ValueType) : Common t t t
  | widenLeft : Common integer decimal decimal
  | widenRight : Common decimal integer decimal

end ValueType

/-- An operator takes an operand of the first type and gives a result of the second. -/
inductive UnaryOp.Takes : UnaryOp → ValueType → ValueType → Prop
  | not : Takes .not .boolean .boolean
  | negative {t : ValueType} (ht : t.IsNumeric) : Takes .negative t t
  | positive {t : ValueType} (ht : t.IsNumeric) : Takes .positive t t

/-- An operator takes a left and a right operand of the first two types and gives a result of the
third. -/
inductive BinaryOp.Takes : BinaryOp → ValueType → ValueType → ValueType → Prop
  | addition {l r t : ValueType} (common : ValueType.Common l r t) (ht : t.IsAlphanumeric) :
      Takes .addition l r t
  | arithmetic {op : BinaryOp} {l r t : ValueType}
      (hop : op ∈ [subtraction, multiply, divide, modulo, power])
      (common : ValueType.Common l r t) (ht : t.IsNumeric) : Takes op l r t
  | logical {op : BinaryOp} (hop : op ∈ [and, or]) : Takes op .boolean .boolean .boolean
  | equality {op : BinaryOp} {l r t : ValueType} (hop : op ∈ [equal, notEqual])
      (common : ValueType.Common l r t) : Takes op l r .boolean
  | order {op : BinaryOp} {l r t : ValueType}
      (hop : op ∈ [lessThan, lessOrEqual, greaterThan, greaterOrEqual])
      (common : ValueType.Common l r t) (ht : t.IsAlphanumeric) : Takes op l r .boolean

/-! ### The rules of expressions -/

/-- An expression has a type, where `declared` says which types the names are declared with. -/
inductive HasType (declared : String → ValueType → Prop) : Expr → ValueType → Prop
  | boolean {p : Position} {b : Bool} : HasType declared (.literal p (.boolean b)) .boolean
  | integer {p : Position} {n : Int64} : HasType declared (.literal p (.integer n)) .integer
  | decimal {p : Position} {x : Binary64} : HasType declared (.literal p (.decimal x)) .decimal
  | string {p : Position} {s : String} : HasType declared (.literal p (.string s)) .string
  | reference {p : Position} {n : String} {t : ValueType} (h : declared n t) :
      HasType declared (.reference p n) t
  | unary {p : Position} {op : UnaryOp} {x : Expr} {s t : ValueType}
      (hx : HasType declared x s) (hop : op.Takes s t) : HasType declared (.unary p op x) t
  | binary {p : Position} {op : BinaryOp} {l r : Expr} {lt rt t : ValueType}
      (hl : HasType declared l lt) (hr : HasType declared r rt) (hop : op.Takes lt rt t) :
      HasType declared (.binary p op l r) t

/-- The operators of an expression are known ones. -/
def Expr.OperatorsKnown : Expr → Prop
  | .unary _ op x => op ∈ UnaryOp.all ∧ x.OperatorsKnown
  | .binary _ op l r => op ∈ BinaryOp.all ∧ l.OperatorsKnown ∧ r.OperatorsKnown
  | _ => True

/-! ### The rules and the lists of operand types -/

namespace ValueType

/-- Two types have a common one exactly when they are the same once integers are widened. -/
theorem common_iff {l r t : ValueType} :
    Common l r t ↔ l.promote = r.promote ∧ (if l = r then l else l.promote) = t := by
  constructor
  · rintro (_ | _ | _) <;> simp [promote]
  · rintro ⟨hpromote, rfl⟩
    by_cases hlr : l = r
    · rw [if_pos hlr, hlr]
      exact .same r
    · rw [if_neg hlr]
      -- different types that widening makes the same are the two of numbers
      have hnumbers : (l = integer ∧ r = decimal) ∨ (l = decimal ∧ r = integer) := by
        cases l <;> cases r <;> simp_all [promote]
      rcases hnumbers with ⟨rfl, rfl⟩ | ⟨rfl, rfl⟩
      · exact .widenLeft
      · exact .widenRight

theorem mem_numeric_iff {t : ValueType} : t ∈ numeric ↔ t.IsNumeric := by
  constructor
  · intro h
    simp only [numeric, List.mem_cons, List.not_mem_nil, or_false] at h
    rcases h with rfl | rfl
    · exact .integer
    · exact .decimal
  · rintro (_ | _) <;> simp [numeric]

theorem mem_alphanumeric_iff {t : ValueType} : t ∈ alphanumeric ↔ t.IsAlphanumeric := by
  constructor
  · intro h
    simp only [alphanumeric, List.mem_cons, List.not_mem_nil, or_false] at h
    rcases h with rfl | rfl | rfl
    · exact .integer
    · exact .decimal
    · exact .string
  · rintro (_ | _ | _) <;> simp [alphanumeric]

theorem Common.mem_declarable {l r t : ValueType} (h : Common l r t) (hl : l ∈ declarable) :
    t ∈ declarable := by
  cases h with
  | same => exact hl
  | widenLeft => simp [declarable]
  | widenRight => simp [declarable]

theorem Common.eq_boolean {l r : ValueType} (h : Common l r boolean) :
    l = boolean ∧ r = boolean := by
  cases h
  exact ⟨rfl, rfl⟩

theorem ne_undefined_of_mem_declarable {t : ValueType} (h : t ∈ declarable) : t ≠ undefined := by
  rintro rfl
  simp [declarable] at h

end ValueType

theorem UnaryOp.takes_iff {op : UnaryOp} (hop : op ∈ UnaryOp.all) {s t : ValueType} :
    op.Takes s t ↔ s ∈ op.operandTypes ∧ s = t := by
  constructor
  · rintro (_ | ht | ht)
    · exact ⟨List.mem_singleton.2 rfl, rfl⟩
    · exact ⟨ValueType.mem_numeric_iff.2 ht, rfl⟩
    · exact ⟨ValueType.mem_numeric_iff.2 ht, rfl⟩
  · rintro ⟨hs, rfl⟩
    simp only [all, List.mem_cons, List.not_mem_nil, or_false] at hop
    rcases hop with rfl | rfl | rfl
    · rw [List.mem_singleton.1 hs]
      exact .not
    · exact .negative (ValueType.mem_numeric_iff.1 hs)
    · exact .positive (ValueType.mem_numeric_iff.1 hs)

/-- **The rules of the binary operators** in terms of what the check looks at: the common type of
the operands is one of the operator's operand types, and the result is that type, or Boolean for a
comparison. -/
theorem BinaryOp.takes_iff {op : BinaryOp} (hop : op ∈ BinaryOp.all) {l r t : ValueType}
    (hl : l ∈ ValueType.declarable) :
    op.Takes l r t ↔ ∃ c, ValueType.Common l r c ∧ c ∈ op.operandTypes ∧
      (if op.isComparison then .boolean else c) = t := by
  constructor
  · rintro (⟨common, ht⟩ | ⟨hop, common, ht⟩ | ⟨hop⟩ | ⟨hop, common⟩ | ⟨hop, common, ht⟩)
    · exact ⟨_, common, ValueType.mem_alphanumeric_iff.2 ht, rfl⟩
    · refine ⟨_, common, ?_⟩
      simp only [List.mem_cons, List.not_mem_nil, or_false] at hop
      rcases hop with rfl | rfl | rfl | rfl | rfl <;>
        exact ⟨ValueType.mem_numeric_iff.2 ht, rfl⟩
    · refine ⟨.boolean, .same _, ?_⟩
      simp only [List.mem_cons, List.not_mem_nil, or_false] at hop
      rcases hop with rfl | rfl <;> exact ⟨List.mem_singleton.2 rfl, rfl⟩
    · refine ⟨_, common, ?_⟩
      simp only [List.mem_cons, List.not_mem_nil, or_false] at hop
      rcases hop with rfl | rfl <;> exact ⟨common.mem_declarable hl, rfl⟩
    · refine ⟨_, common, ?_⟩
      simp only [List.mem_cons, List.not_mem_nil, or_false] at hop
      rcases hop with rfl | rfl | rfl | rfl <;>
        exact ⟨ValueType.mem_alphanumeric_iff.2 ht, rfl⟩
  · rintro ⟨c, common, hc, rfl⟩
    simp only [all, List.mem_cons, List.not_mem_nil, or_false] at hop
    rcases hop with rfl | rfl | rfl | rfl | rfl | rfl | rfl | rfl | rfl | rfl | rfl | rfl | rfl |
      rfl
    · exact .addition common (ValueType.mem_alphanumeric_iff.1 hc)
    iterate 5 exact .arithmetic (by simp) common (ValueType.mem_numeric_iff.1 hc)
    iterate 2
      obtain rfl := List.mem_singleton.1 hc
      obtain ⟨rfl, rfl⟩ := common.eq_boolean
      exact .logical (by simp)
    iterate 2 exact .equality (by simp) common
    iterate 4 exact .order (by simp) common (ValueType.mem_alphanumeric_iff.1 hc)

/-! ### The check computes the judgement -/

/-- What the check of an expression came to is what the rules say: the type they give, `undefined`
where they give none, and findings exactly then. -/
structure Judges (declared : String → ValueType → Prop) (e : Expr)
    (r : ValueType × List Finding) : Prop where
  hasType_iff : ∀ t, HasType declared e t ↔ t ≠ .undefined ∧ r.1 = t
  clean_iff : r.2 = [] ↔ r.1 ≠ .undefined

namespace SymbolTable

/-- The declared types of a table, as a relation. -/
def Declares (table : SymbolTable) (name : String) (t : ValueType) : Prop :=
  table.type? name = some t

/-- Only declarable types are declared. -/
def TypesDeclarable (table : SymbolTable) : Prop :=
  ∀ name t, table.Declares name t → t ∈ ValueType.declarable

end SymbolTable

namespace Typing

variable {file : String} {table : SymbolTable}

/-- With declarable declared types, all types are declarable ones. -/
theorem mem_declarable_of_hasType (ht : table.TypesDeclarable) {e : Expr} {t : ValueType}
    (h : HasType table.Declares e t) : t ∈ ValueType.declarable := by
  induction h with
  | boolean => simp [ValueType.declarable]
  | integer => simp [ValueType.declarable]
  | decimal => simp [ValueType.declarable]
  | string => simp [ValueType.declarable]
  | reference h => exact ht _ _ h
  | unary _ hop ih => cases hop <;> exact ih
  | binary _ _ hop ihl _ =>
    cases hop with
    | addition common => exact common.mem_declarable ihl
    | arithmetic _ common => exact common.mem_declarable ihl
    | logical => simp [ValueType.declarable]
    | equality => simp [ValueType.declarable]
    | order => simp [ValueType.declarable]

/-- A report is added behind the findings. -/
theorem exists_reported_eq (mark : Nat) (findings : List Finding) (t : ValueType) (e : Expr) :
    ∃ more, reported file mark findings t e = findings ++ more := by
  unfold reported reportOperand undefinedOperand
  split
  · cases e.pos? with
    | none => exact ⟨[], (List.append_nil _).symm⟩
    | some p =>
      simp only [Option.map_some, Option.getD_some]
      split
      · exact ⟨[], (List.append_nil _).symm⟩
      · exact ⟨_, rfl⟩
  · exact ⟨[], (List.append_nil _).symm⟩

theorem reported_ne_nil {mark : Nat} {findings : List Finding} {t : ValueType} {e : Expr}
    (h : findings ≠ []) : reported file mark findings t e ≠ [] := by
  obtain ⟨more, hmore⟩ : ∃ more, reported file mark findings t e = findings ++ more :=
    exists_reported_eq mark findings t e
  rw [hmore]
  exact List.append_ne_nil_of_left_ne_nil h more

/-! ### Operators on operands with types -/

theorem hasType_unary_iff {p : Position} {op : UnaryOp} {x : Expr} {s t : ValueType}
    (hop : op ∈ UnaryOp.all) (hs : s ≠ .undefined)
    (hx : ∀ t, HasType table.Declares x t ↔ t ≠ .undefined ∧ s = t) :
    HasType table.Declares (.unary p op x) t ↔ s ∈ op.operandTypes ∧ s = t := by
  constructor
  · rintro (_ | _ | _ | _ | _ | ⟨hx', htakes⟩ | _)
    obtain ⟨-, rfl⟩ := (hx _).1 hx'
    exact (UnaryOp.takes_iff hop).1 htakes
  · intro h
    exact .unary ((hx s).2 ⟨hs, rfl⟩) ((UnaryOp.takes_iff hop).2 h)

theorem judges_operandType {p : Position} {op : UnaryOp} {x : Expr} {s : ValueType}
    (hop : op ∈ UnaryOp.all) (hs : s ≠ .undefined)
    (hx : ∀ t, HasType table.Declares x t ↔ t ≠ .undefined ∧ s = t) :
    Judges table.Declares (.unary p op x) (operandType file [] p s op.operandTypes op.name) := by
  unfold operandType
  split
  · rename_i hmem
    refine ⟨fun t ↦ (hasType_unary_iff hop hs hx).trans ?_, by simpa using hs⟩
    exact ⟨fun h ↦ ⟨h.2 ▸ hs, h.2⟩, fun h ↦ ⟨by simpa using hmem, h.2⟩⟩
  · rename_i hmem
    refine ⟨fun t ↦ (hasType_unary_iff hop hs hx).trans ?_, by simp⟩
    exact ⟨fun h ↦ absurd h.1 (by simpa using hmem), fun h ↦ absurd h.2 h.1.symm⟩

theorem hasType_binary_iff {p : Position} {op : BinaryOp} {l r : Expr} {lt rt t : ValueType}
    (hop : op ∈ BinaryOp.all) (hlt : lt ∈ ValueType.declarable) (hrt : rt ≠ .undefined)
    (hl : ∀ t, HasType table.Declares l t ↔ t ≠ .undefined ∧ lt = t)
    (hr : ∀ t, HasType table.Declares r t ↔ t ≠ .undefined ∧ rt = t) :
    HasType table.Declares (.binary p op l r) t ↔
      ∃ c, ValueType.Common lt rt c ∧ c ∈ op.operandTypes ∧
        (if op.isComparison then .boolean else c) = t := by
  rw [← BinaryOp.takes_iff hop hlt]
  constructor
  · rintro (_ | _ | _ | _ | _ | _ | ⟨hl', hr', htakes⟩)
    obtain ⟨-, rfl⟩ := (hl _).1 hl'
    obtain ⟨-, rfl⟩ := (hr _).1 hr'
    exact htakes
  · intro htakes
    have hlt' := ValueType.ne_undefined_of_mem_declarable hlt
    exact .binary ((hl lt).2 ⟨hlt', rfl⟩) ((hr rt).2 ⟨hrt, rfl⟩) htakes

theorem judges_combine {p : Position} {op : BinaryOp} {l r : Expr} {lt rt : ValueType}
    (hop : op ∈ BinaryOp.all) (hlt : lt ∈ ValueType.declarable) (hrt : rt ≠ .undefined)
    (hl : ∀ t, HasType table.Declares l t ↔ t ≠ .undefined ∧ lt = t)
    (hr : ∀ t, HasType table.Declares r t ↔ t ≠ .undefined ∧ rt = t) :
    Judges table.Declares (.binary p op l r) (combine file [] p op lt rt) := by
  have htype := fun t ↦ hasType_binary_iff (p := p) (t := t) hop hlt hrt hl hr
  unfold combine
  split
  · -- no common type
    rename_i hpromote
    refine ⟨fun t ↦ (htype t).trans ⟨?_, fun h ↦ absurd h.2 h.1.symm⟩, ?_⟩
    · rintro ⟨c, common, -⟩
      exact absurd (ValueType.common_iff.1 common).1 hpromote
    · simp [incompatibleOperands]
  · rename_i hpromote
    set c := if lt = rt then lt else lt.promote with hc
    have common : ValueType.Common lt rt c :=
      ValueType.common_iff.2 ⟨not_not.1 hpromote, hc.symm⟩
    have hunique : ∀ {c'}, ValueType.Common lt rt c' → c' = c :=
      fun h ↦ (ValueType.common_iff.1 h).2.symm
    have hdefined : c ≠ .undefined :=
      ValueType.ne_undefined_of_mem_declarable (common.mem_declarable hlt)
    simp only [operandType]
    split
    · -- a common type that the operator takes
      rename_i hmem
      have hresult : (if op.isComparison then .boolean else c) ≠ .undefined := by
        split
        · simp
        · exact hdefined
      simp only [ne_eq, hdefined, not_false_eq_true, true_and]
      refine ⟨fun t ↦ (htype t).trans ⟨?_, fun h ↦ ⟨c, common, by simpa using hmem, h.2⟩⟩, ?_⟩
      · rintro ⟨c', common', -, rfl⟩
        rw [hunique common']
        exact ⟨hresult, rfl⟩
      · simpa using hresult
    · -- a common type that the operator does not take
      rename_i hmem
      simp only [ne_eq, not_true_eq_false, false_and, if_false]
      refine ⟨fun t ↦ (htype t).trans ⟨?_, fun h ↦ absurd h.2 h.1.symm⟩, by simp⟩
      rintro ⟨c', common', hmem', -⟩
      rw [hunique common'] at hmem'
      exact absurd hmem' (by simpa using hmem)

/-! ### All expressions -/

theorem judges_literal (p : Position) (v : Literal) :
    Judges table.Declares (.literal p v) (v.type, []) := by
  refine ⟨fun t ↦ ?_, by cases v <;> simp [Literal.type]⟩
  constructor
  · rintro (_ | _ | _ | _) <;> exact ⟨by simp, rfl⟩
  · rintro ⟨-, rfl⟩
    cases v with
    | boolean => exact .boolean
    | integer => exact .integer
    | decimal => exact .decimal
    | string => exact .string

theorem hasType_reference_iff {p : Position} {n : String} {t : ValueType} :
    HasType table.Declares (.reference p n) t ↔ table.type? n = some t :=
  ⟨fun h ↦ by cases h; assumption, fun h ↦ .reference h⟩

/-- An operator with an operand without a type has none. -/
theorem judges_of_not_hasType {e : Expr} {new : List Finding}
    (hnot : ∀ t, ¬ HasType table.Declares e t) (hnew : new ≠ []) :
    Judges table.Declares e (.undefined, new) where
  hasType_iff t := ⟨fun h ↦ absurd h (hnot t), fun h ↦ absurd h.2 h.1.symm⟩
  clean_iff := by simpa using hnew

theorem exists_check_judges (ht : table.TypesDeclarable) {e : Expr} (hcomplete : e.isComplete)
    (hknown : e.OperatorsKnown) :
    ∃ r, check file table [] e = some r ∧ Judges table.Declares e r := by
  induction e with
  | absent => exact absurd hcomplete (by simp [Expr.isComplete])
  | literal p v => exact ⟨_, rfl, judges_literal p v⟩
  | reference p n =>
    rw [check]
    cases hlookup : table.lookup n with
    | some s =>
      have htype : table.type? n = some s.type := by rw [SymbolTable.type?, hlookup]; rfl
      have hdefined := ValueType.ne_undefined_of_mem_declarable (ht n s.type htype)
      refine ⟨_, rfl, fun t ↦ ?_, by simpa using hdefined⟩
      rw [hasType_reference_iff, htype, Option.some.injEq]
      exact ⟨fun h ↦ ⟨h ▸ hdefined, h⟩, fun h ↦ h.2⟩
    | none =>
      refine ⟨_, rfl, judges_of_not_hasType (fun t h ↦ ?_) (by simp)⟩
      rw [hasType_reference_iff, SymbolTable.type?, hlookup] at h
      simp at h
  | unary p op x ih =>
    obtain ⟨⟨t, new⟩, hx, hjudges⟩ := ih hcomplete hknown.2
    by_cases hundefined : t = .undefined
    · subst hundefined
      refine ⟨_, check_unary_of_undefined hcomplete hx, judges_of_not_hasType ?_ ?_⟩
      · rintro t (_ | _ | _ | _ | _ | ⟨hx', -⟩ | _)
        obtain ⟨hs, rfl⟩ := (hjudges.hasType_iff _).1 hx'
        exact hs rfl
      · exact reported_ne_nil fun hnil ↦ hjudges.clean_iff.1 hnil rfl
    · obtain rfl : new = [] := hjudges.clean_iff.2 hundefined
      exact ⟨_, check_unary_of_typed hx hundefined,
        judges_operandType hknown.1 hundefined hjudges.hasType_iff⟩
  | binary p op l r ihl ihr =>
    obtain ⟨hl, hr⟩ := Bool.and_eq_true_iff.1 hcomplete
    obtain ⟨hop, hknownl, hknownr⟩ := hknown
    obtain ⟨⟨lt, new⟩, hcheckl, hjudgesl⟩ := ihl hl hknownl
    obtain ⟨⟨rt, new'⟩, hcheckr, hjudgesr⟩ := ihr hr hknownr
    by_cases hundefined : lt = .undefined ∨ rt = .undefined
    · refine ⟨_, check_binary_of_undefined hl hr hcheckl hcheckr hundefined,
        judges_of_not_hasType ?_ (reported_ne_nil (reported_ne_nil ?_))⟩
      · rintro t (_ | _ | _ | _ | _ | _ | ⟨hl', hr', -⟩)
        obtain ⟨hlt, rfl⟩ := (hjudgesl.hasType_iff _).1 hl'
        obtain ⟨hrt, rfl⟩ := (hjudgesr.hasType_iff _).1 hr'
        exact hundefined.elim hlt hrt
      · intro hnil
        obtain ⟨hnew, hnew'⟩ := List.append_eq_nil_iff.1 hnil
        exact hundefined.elim (hjudgesl.clean_iff.1 hnew) (hjudgesr.clean_iff.1 hnew')
    · obtain ⟨hlt, hrt⟩ := not_or.1 hundefined
      obtain rfl : new = [] := hjudgesl.clean_iff.2 hlt
      obtain rfl : new' = [] := hjudgesr.clean_iff.2 hrt
      have hltype := mem_declarable_of_hasType ht ((hjudgesl.hasType_iff lt).2 ⟨hlt, rfl⟩)
      exact ⟨_, check_binary_of_typed hcheckl hcheckr hlt hrt,
        judges_combine hop hltype hrt hjudgesl.hasType_iff hjudgesr.hasType_iff⟩

/-- **The check computes the judgement.** -/
theorem judges_outcome (ht : table.TypesDeclarable) {e : Expr} (hcomplete : e.isComplete)
    (hknown : e.OperatorsKnown) : Judges table.Declares e (outcome file table e) := by
  obtain ⟨r, hr, hjudges⟩ : ∃ r, check file table [] e = some r ∧ Judges table.Declares e r :=
    exists_check_judges ht hcomplete hknown
  rw [outcome, hr, Option.getD_some]
  exact hjudges

end Typing

end Questionnaire
