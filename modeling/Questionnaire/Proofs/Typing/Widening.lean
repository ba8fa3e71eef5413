import Mathlib.Data.List.Forall2
import Questionnaire.Proofs.Declarations
import Questionnaire.Proofs.Typing.Accumulation

/-!
# Integers and decimals in expressions

Two expressions are **alike** when they have the same shape, positions, names and operators, and
literals of the same types once integers are widened. The check cannot tell such expressions apart:
over tables that are alike in the same sense, the types it comes to are the same once integers are
widened, and the findings **agree** one by one, in everything but the texts made from values and
types (`outcome_agree`).

The reason is that no list of operand types holds one of the two numeric types without the other
(`WidenClosed`). So two runs always take the same branch, also where one of them finds equal operand
types and the other two that have to be widened.
-/

namespace Questionnaire

/-! ### Types -/

namespace ValueType

variable {t t' : ValueType}

/-- Two types that are the same once integers are widened. -/
def Alike (t t' : ValueType) : Prop :=
  t.promote = t'.promote

theorem promote_eq_undefined_iff : t.promote = undefined ↔ t = undefined := by
  cases t <;> simp [promote]

theorem promote_eq_boolean_iff : t.promote = boolean ↔ t = boolean := by
  cases t <;> simp [promote]

theorem Alike.eq_undefined_iff (h : Alike t t') : t = undefined ↔ t' = undefined := by
  rw [← promote_eq_undefined_iff, show t.promote = t'.promote from h, promote_eq_undefined_iff]

theorem Alike.eq_boolean_iff (h : Alike t t') : t = boolean ↔ t' = boolean := by
  rw [← promote_eq_boolean_iff, show t.promote = t'.promote from h, promote_eq_boolean_iff]

/-- A list of types that holds both numeric types or none. -/
def WidenClosed (allowed : List ValueType) : Prop :=
  ∀ t, t.promote ∈ allowed ↔ t ∈ allowed

theorem WidenClosed.mem_iff {allowed : List ValueType} (hclosed : WidenClosed allowed)
    (h : Alike t t') : t ∈ allowed ↔ t' ∈ allowed := by
  rw [← hclosed t, show t.promote = t'.promote from h, hclosed t']

theorem widenClosed_numeric : WidenClosed numeric := by
  intro t
  cases t <;> simp [promote, numeric]

theorem widenClosed_alphanumeric : WidenClosed alphanumeric := by
  intro t
  cases t <;> simp [promote, alphanumeric]

theorem widenClosed_declarable : WidenClosed declarable := by
  intro t
  cases t <;> simp [promote, declarable]

theorem widenClosed_boolean : WidenClosed [boolean] := by
  intro t
  cases t <;> simp [promote]

end ValueType

theorem UnaryOp.widenClosed_operandTypes (op : UnaryOp) :
    ValueType.WidenClosed op.operandTypes := by
  cases op with
  | not => exact ValueType.widenClosed_boolean
  | negative | positive | unknown => exact ValueType.widenClosed_numeric

theorem BinaryOp.widenClosed_operandTypes (op : BinaryOp) :
    ValueType.WidenClosed op.operandTypes := by
  cases op with
  | subtraction | multiply | divide | modulo | power => exact ValueType.widenClosed_numeric
  | and | or => exact ValueType.widenClosed_boolean
  | equal | notEqual => exact ValueType.widenClosed_declarable
  | addition | lessThan | lessOrEqual | greaterThan | greaterOrEqual | unknown =>
    exact ValueType.widenClosed_alphanumeric

/-! ### Expressions -/

namespace Expr

variable {e e' : Expr}

/-- Two expressions that differ at most in the values of literals, and in which numeric literals are
integers. -/
inductive Alike : Expr → Expr → Prop
  | absent : Alike .absent .absent
  | literal {p : Position} {v v' : Literal} (h : v.type.Alike v'.type) :
      Alike (.literal p v) (.literal p v')
  | reference {p : Position} {n : String} : Alike (.reference p n) (.reference p n)
  | unary {p : Position} {op : UnaryOp} {x x' : Expr} (h : Alike x x') :
      Alike (.unary p op x) (.unary p op x')
  | binary {p : Position} {op : BinaryOp} {l l' r r' : Expr} (hl : Alike l l') (hr : Alike r r') :
      Alike (.binary p op l r) (.binary p op l' r')

theorem Alike.pos?_eq (h : Alike e e') : e.pos? = e'.pos? := by
  cases h <;> rfl

theorem Alike.references_eq (h : Alike e e') : e.references = e'.references := by
  induction h with
  | absent | literal | reference => rfl
  | unary _ ih => rw [references, references, ih]
  | binary _ _ ihl ihr => rw [references, references, ihl, ihr]

theorem Alike.isComplete_eq (h : Alike e e') : e.isComplete = e'.isComplete := by
  induction h with
  | absent | literal | reference => rfl
  | unary _ ih => rw [isComplete, isComplete, ih]
  | binary _ _ ihl ihr => rw [isComplete, isComplete, ihl, ihr]

theorem Alike.operandsPresent (h : Alike e e') (hpresent : e.OperandsPresent) :
    e'.OperandsPresent := by
  rcases hpresent with rfl | hcomplete
  · cases h
    exact Or.inl rfl
  · exact Or.inr (h.isComplete_eq ▸ hcomplete)

end Expr

/-! ### Tables -/

/-- Two symbols that differ at most in which numeric type is declared. -/
structure Symbol.Alike (s s' : Symbol) : Prop where
  name : s.name = s'.name
  type : s.type.Alike s'.type
  index : s.index = s'.index
  pos : s.pos = s'.pos

namespace SymbolTable

/-- Two tables with alike symbols in the same order. -/
def Alike (table table' : SymbolTable) : Prop :=
  List.Forall₂ Symbol.Alike table.symbols table'.symbols

theorem Alike.lookup {table table' : SymbolTable} (h : table.Alike table') (name : String) :
    Option.Rel Symbol.Alike (table.lookup name) (table'.lookup name) := by
  rw [Alike] at h
  rw [lookup_eq_find?, lookup_eq_find?]
  generalize table.symbols = symbols, table'.symbols = symbols' at h ⊢
  induction h with
  | nil => exact .none
  | @cons s s' rest rest' hs _ ih =>
    rw [List.find?_cons, List.find?_cons, ← hs.name]
    cases s.name == name with
    | true => exact .some hs
    | false => exact ih

end SymbolTable

/-! ### Findings -/

/-- Two findings that differ at most in their texts: the message, and the names of types and
operands it was made from. -/
structure Finding.Agrees (a b : Finding) : Prop where
  kind : a.kind = b.kind
  severity : a.severity = b.severity
  location : a.location = b.location
  operator : a.operator = b.operator
  cycle : a.cycle = b.cycle
  related : a.related = b.related

theorem Finding.Agrees.refl (a : Finding) : a.Agrees a :=
  ⟨rfl, rfl, rfl, rfl, rfl, rfl⟩

namespace Typing

variable {file : String} {table table' : SymbolTable}

/-- Two checks of an expression agree: in the type once integers are widened, and in the findings
one by one. -/
structure Agree (r r' : ValueType × List Finding) : Prop where
  type : r.1.Alike r'.1
  findings : List.Forall₂ Finding.Agrees r.2 r'.2

theorem any_eq_of_agrees {findings findings' : List Finding}
    (h : List.Forall₂ Finding.Agrees findings findings') {p : Finding → Bool}
    (hp : ∀ a b : Finding, a.Agrees b → p a = p b) : findings.any p = findings'.any p := by
  induction h with
  | nil => rfl
  | cons hab _ ih => rw [List.any_cons, List.any_cons, hp _ _ hab, ih]

/-- Reporting an operand keeps the agreement: whether it has reported itself is told by kinds and
locations. -/
theorem reported_agrees {findings findings' : List Finding} {t t' : ValueType} {e e' : Expr}
    (mark : Nat) (h : List.Forall₂ Finding.Agrees findings findings') (ht : t.Alike t')
    (he : e.Alike e') :
    List.Forall₂ Finding.Agrees (reported file mark findings t e)
      (reported file mark findings' t' e') := by
  unfold reported reportOperand undefinedOperand
  simp only [ht.eq_undefined_iff, he.pos?_eq]
  split
  · cases e'.pos? with
    | none => exact h
    | some p =>
      have hany := any_eq_of_agrees (List.forall₂_drop mark h)
        (p := fun f ↦ f.kind == .undefinedReference && f.location == .ofPosition file p)
        fun a b hab ↦ by rw [hab.kind, hab.location]
      simp only [Option.map_some, Option.getD_some, hany]
      split
      · exact h
      · exact List.rel_append h (.cons ⟨rfl, rfl, rfl, rfl, rfl, rfl⟩ .nil)
  · exact h

theorem operandType_agree {findings findings' : List Finding} {t t' : ValueType}
    {allowed : List ValueType} (hclosed : ValueType.WidenClosed allowed) (p : Position)
    (operator : String) (h : List.Forall₂ Finding.Agrees findings findings') (ht : t.Alike t') :
    Agree (operandType file findings p t allowed operator)
      (operandType file findings' p t' allowed operator) := by
  unfold operandType
  simp only [List.contains_iff_mem, hclosed.mem_iff ht]
  split
  · exact ⟨ht, h⟩
  · exact ⟨rfl, List.rel_append h (.cons ⟨rfl, rfl, rfl, rfl, rfl, rfl⟩ .nil)⟩

theorem incompatibleOperands_agrees {l l' r r' : ValueType} (p : Position) (op : BinaryOp)
    (hl : l.Alike l') (hr : r.Alike r') :
    List.Forall₂ Finding.Agrees (incompatibleOperands file p op l r)
      (incompatibleOperands file p op l' r') := by
  -- the same operands are not taken, each with one finding
  have hfilter : List.Forall₂ ValueType.Alike
      ([l, r].filter fun t ↦ !op.operandTypes.contains t)
      ([l', r'].filter fun t ↦ !op.operandTypes.contains t) := by
    refine List.rel_filter (fun t t' ht ↦ ?_) (.cons hl (.cons hr .nil))
    simp only [Bool.not_eq_true', ← Bool.not_eq_true, List.contains_iff_mem,
      op.widenClosed_operandTypes.mem_iff ht]
  refine .cons ⟨rfl, rfl, rfl, rfl, rfl, rfl⟩ (List.rel_map (fun t t' _ ↦ ?_) hfilter)
  exact ⟨rfl, rfl, rfl, rfl, rfl, rfl⟩

theorem Agree.comparison {r r' : ValueType × List Finding} (h : Agree r r') (comparison : Bool) :
    Agree (if r.1 ≠ .undefined ∧ comparison then .boolean else r.1, r.2)
      (if r'.1 ≠ .undefined ∧ comparison then .boolean else r'.1, r'.2) := by
  simp only [ne_eq, h.type.eq_undefined_iff]
  refine ⟨?_, h.findings⟩
  split
  · rfl
  · exact h.type

/-- **Combining operands of alike types.** Whether one operand has to be widened changes neither the
branch taken nor the type, up to widening. -/
theorem combine_agree {findings findings' : List Finding} {l l' r r' : ValueType} (p : Position)
    (op : BinaryOp) (h : List.Forall₂ Finding.Agrees findings findings') (hl : l.Alike l')
    (hr : r.Alike r') :
    Agree (combine file findings p op l r) (combine file findings' p op l' r') := by
  have hoperand : ∀ {a b : ValueType}, (if a = b then a else a.promote).promote = a.promote := by
    intro a b
    split
    · rfl
    · exact ValueType.promote_promote a
  unfold combine
  rw [show l.promote = l'.promote from hl, show r.promote = r'.promote from hr]
  split
  · exact ⟨rfl, List.rel_append h (incompatibleOperands_agrees p op hl hr)⟩
  · have hcommon : (if l = r then l else l'.promote).Alike
        (if l' = r' then l' else l'.promote) := by
      rw [ValueType.Alike, hoperand, ← show l.promote = l'.promote from hl, hoperand]
    exact (operandType_agree op.widenClosed_operandTypes p op.name h hcommon).comparison
      op.isComparison

/-! ### Two checks of alike expressions -/

theorem exists_check_agree (htable : table.Alike table') {e e' : Expr} (h : e.Alike e')
    (hcomplete : e.isComplete) :
    ∃ r r', check file table [] e = some r ∧ check file table' [] e' = some r' ∧ Agree r r' := by
  induction h with
  | absent => exact absurd hcomplete (by simp [Expr.isComplete])
  | literal hv => exact ⟨_, _, rfl, rfl, hv, .nil⟩
  | @reference p n =>
    rw [check, check]
    have hlookup := htable.lookup n
    generalize table.lookup n = found, table'.lookup n = found' at hlookup ⊢
    cases hlookup with
    | some hs => exact ⟨_, _, rfl, rfl, hs.type, .nil⟩
    | none => exact ⟨_, _, rfl, rfl, rfl, .cons ⟨rfl, rfl, rfl, rfl, rfl, rfl⟩ .nil⟩
  | unary hx ih =>
    obtain ⟨⟨t, new⟩, ⟨t', new'⟩, hcheck, hcheck', hagree⟩ := ih hcomplete
    have hcomplete' := hx.isComplete_eq ▸ hcomplete
    by_cases ht : t = .undefined
    · -- then the other operand has no type either
      obtain rfl := hagree.type.eq_undefined_iff.1 ht
      subst ht
      exact ⟨_, _, check_unary_of_undefined hcomplete hcheck,
        check_unary_of_undefined hcomplete' hcheck', rfl,
        reported_agrees 0 hagree.findings rfl hx⟩
    · have ht' := mt hagree.type.eq_undefined_iff.2 ht
      exact ⟨_, _, check_unary_of_typed hcheck ht, check_unary_of_typed hcheck' ht',
        operandType_agree (UnaryOp.widenClosed_operandTypes _) _ _ hagree.findings hagree.type⟩
  | binary hl hr ihl ihr =>
    obtain ⟨hlc, hrc⟩ := Bool.and_eq_true_iff.1 hcomplete
    obtain ⟨⟨lt, new⟩, ⟨lt', new'⟩, hcheckl, hcheckl', hagreel⟩ := ihl hlc
    obtain ⟨⟨rt, more⟩, ⟨rt', more'⟩, hcheckr, hcheckr', hagreer⟩ := ihr hrc
    have hfindings := List.rel_append hagreel.findings hagreer.findings
    by_cases ht : lt = .undefined ∨ rt = .undefined
    · have ht' : lt' = .undefined ∨ rt' = .undefined :=
        ht.imp hagreel.type.eq_undefined_iff.1 hagreer.type.eq_undefined_iff.1
      have hlc' := hl.isComplete_eq ▸ hlc
      have hrc' := hr.isComplete_eq ▸ hrc
      refine ⟨_, _, check_binary_of_undefined hlc hrc hcheckl hcheckr ht,
        check_binary_of_undefined hlc' hrc' hcheckl' hcheckr' ht', rfl, ?_⟩
      -- the mark of the right operand is the same in both runs
      rw [show new.length = new'.length from hagreel.findings.length_eq]
      exact reported_agrees _ (reported_agrees 0 hfindings hagreel.type hl) hagreer.type hr
    · obtain ⟨hlt, hrt⟩ := not_or.1 ht
      exact ⟨_, _, check_binary_of_typed hcheckl hcheckr hlt hrt,
        check_binary_of_typed hcheckl' hcheckr' (mt hagreel.type.eq_undefined_iff.2 hlt)
          (mt hagreer.type.eq_undefined_iff.2 hrt),
        combine_agree _ _ hfindings hagreel.type hagreer.type⟩

/-- **The check does not tell alike expressions apart.** -/
theorem outcome_agree (file : String) (htable : table.Alike table') {e e' : Expr}
    (h : e.Alike e') (hpresent : e.OperandsPresent) :
    Agree (outcome file table e) (outcome file table' e') := by
  rcases hpresent with rfl | hcomplete
  · cases h
    exact ⟨rfl, .nil⟩
  · obtain ⟨r, r', hcheck, hcheck', hagree⟩ :
        ∃ r r', check file table [] e = some r ∧ check file table' [] e' = some r' ∧ Agree r r' :=
      exists_check_agree htable h hcomplete
    rw [outcome, outcome, hcheck, hcheck', Option.getD_some, Option.getD_some]
    exact hagree

end Typing

end Questionnaire
