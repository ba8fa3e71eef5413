import Questionnaire.Proofs.Document.Description
import Questionnaire.Proofs.Number.Positional
import Questionnaire.Proofs.Schema.Grammar

/-!
# The text of an expression

The text of an expression tells the expression, except for the positions in it
(`Expr.text_eq_text_iff`). What makes it so is that an operand ends where its text says, whatever
follows it behind a space or a parenthesis (`Expr.operand_append_inj`): a binary expression stands
in parentheses, a sign is followed by its operand, a string closes its quotes, and numbers, names
and the two booleans go on up to a character that none of them has. Among the latter the type of a
literal is told by its text (`Literal.typeOfText_text`): only decimals have a point, only numbers
begin with a digit, and no question is named as a boolean is.

Numbers are those without a sign. The negation of a number is an expression of its own, and has the
text that a literal with a sign would have; this goes for the negative zero too.
-/

namespace Questionnaire

/-! ### Expressions that can be written -/

/-- The number of a literal, if it is one, is finite and has no sign. -/
def Literal.Unsigned : Literal → Prop
  | boolean _ | string _ => True
  | integer n => 0 ≤ n.toInt
  | decimal x => ∃ scale fraction, x = .finite false scale fraction

/-- A name that a question can be referred to by. -/
structure IsName (s : String) : Prop where
  identifier : Schema.IsIdentifier s
  ne_true : s ≠ "true"
  ne_false : s ≠ "false"

namespace Expr

/-- Nothing is missing in an expression, its operators are known, its names are names and its
literals have no sign. -/
def Writable : Expr → Prop
  | absent => False
  | literal _ v => v.Unsigned
  | reference _ n => IsName n
  | unary _ op x => op ∈ UnaryOp.all ∧ x.Writable
  | binary _ op l r => op ∈ BinaryOp.all ∧ l.Writable ∧ r.Writable

/-- An expression with all its positions left out. -/
def withoutPositions : Expr → Expr
  | absent => absent
  | literal _ v => literal {} v
  | reference _ n => reference {} n
  | unary _ op x => unary {} op x.withoutPositions
  | binary _ op l r => binary {} op l.withoutPositions r.withoutPositions

/-- Positions are not written. -/
theorem text_withoutPositions (e : Expr) : e.withoutPositions.text = e.text := by
  have hoperand : ∀ (x : Expr) (s : String), x.withoutPositions.asOperand s = x.asOperand s := by
    intro x s
    cases x <;> rfl
  induction e with
  | absent | literal | reference => rfl
  | unary pos op x ih => rw [withoutPositions, text, text, hoperand, ih]
  | binary pos op l r ihl ihr => rw [withoutPositions, text, text, hoperand, hoperand, ihl, ihr]

end Expr

/-! ### Numbers, names and booleans -/

/-- The characters of numbers, names and booleans. -/
def isPlain (c : Char) : Bool :=
  c.isAlphanum || c == '_' || c == '.'

theorem isPlain_of_isDigit {c : Char} (h : c.isDigit) : isPlain c := by
  simp [isPlain, Char.isAlphanum, h]

/-- Some plain characters, at least one. -/
def Plain (cs : List Char) : Prop :=
  cs ≠ [] ∧ ∀ c ∈ cs, isPlain c

namespace Literal

/-- The type of the literal that has a text without quotes, none for a name. -/
def typeOfText (s : String) : Option ValueType :=
  if '.' ∈ s.toList then some .decimal
  else if s.toList.head?.any Char.isDigit then some .integer
  else if s = "true" ∨ s = "false" then some .boolean
  else none

theorem text_integer {n : Int64} (h : 0 ≤ n.toInt) :
    (integer n).text = toString n.toInt.toNat := by
  obtain ⟨m, hm⟩ := Int.eq_ofNat_of_zero_le h
  rw [text, hm]
  rfl

theorem typeOfText_of_digits {s : String} (h : Json.Digits s.toList) :
    typeOfText s = some .integer := by
  have hpoint : '.' ∉ s.toList := fun hmem ↦ absurd (h.2 '.' hmem) (by decide)
  obtain ⟨c, cs, hchars⟩ := List.exists_cons_of_ne_nil h.1
  have hdigit : c.isDigit := h.2 c (hchars ▸ List.mem_cons_self)
  rw [typeOfText, if_neg hpoint, if_pos (by rw [hchars]; exact hdigit)]

/-- **The type of a literal** without quotes is told by its text. -/
theorem typeOfText_text {v : Literal} (h : v.Unsigned) (htype : v.type ≠ .string) :
    typeOfText v.text = some v.type := by
  cases v with
  | boolean b => cases b <;> rfl
  | integer n =>
    rw [text_integer h]
    exact typeOfText_of_digits (Json.digits_toString _)
  | decimal x =>
    obtain ⟨scale, fraction, rfl⟩ := h
    have hpoint : '.' ∈ (decimalText (.finite false scale fraction)).toList := by
      rw [toList_decimalText]
      exact List.mem_append_right _ List.mem_cons_self
    exact if_pos hpoint
  | string s => exact absurd rfl htype

/-- A text of digits, with a point or without one, and the two booleans are plain. -/
theorem plain_text {v : Literal} (h : v.Unsigned) (htype : v.type ≠ .string) :
    Plain v.text.toList := by
  cases v with
  | boolean b => cases b <;> exact ⟨by decide, List.all_eq_true.1 rfl⟩
  | integer n =>
    rw [text_integer h]
    obtain ⟨hne, hdigit⟩ := Json.digits_toString n.toInt.toNat
    exact ⟨hne, fun c hc ↦ isPlain_of_isDigit (hdigit c hc)⟩
  | decimal x =>
    obtain ⟨scale, fraction, rfl⟩ := h
    have hdigit := DecimalDigits.isDigit_written (Binary64.isDigit_shortest scale fraction)
    rw [text, toList_decimalText]
    refine ⟨by simp, fun c hc ↦ ?_⟩
    obtain hwhole | rfl | hdecimals : c ∈ (Binary64.shortest scale fraction).whole ∨ c = '.' ∨
        c ∈ (Binary64.shortest scale fraction).decimals := by simpa using hc
    · exact isPlain_of_isDigit (hdigit c (List.mem_append_left _ hwhole))
    · rfl
    · exact isPlain_of_isDigit (hdigit c (List.mem_append_right _ hdecimals))
  | string s => exact absurd rfl htype

/-- Literals of one type are told apart by their texts. -/
theorem eq_of_text_eq {v v' : Literal} (h : v.Unsigned) (h' : v'.Unsigned)
    (htype : v.type = v'.type) (htext : v.text = v'.text) : v = v' := by
  cases v with
  | boolean b =>
    cases v' with
    | boolean b' => cases b <;> cases b' <;> first | rfl | exact absurd htext (by decide)
    | integer | decimal | string => cases htype
  | integer n =>
    cases v' with
    | integer n' =>
      have hn : 0 ≤ n.toInt := h
      have hn' : 0 ≤ n'.toInt := h'
      rw [text_integer hn, text_integer hn'] at htext
      have hvalue : n.toInt.toNat = n'.toInt.toNat := Json.toString_inj htext
      rw [Int64.toInt_inj.1 (show n.toInt = n'.toInt by omega)]
    | boolean | decimal | string => cases htype
  | decimal x =>
    cases v' with
    | decimal x' =>
      obtain ⟨scale, fraction, rfl⟩ := h
      obtain ⟨scale', fraction', rfl⟩ := h'
      obtain ⟨rfl, rfl⟩ := decimalText_inj htext
      rfl
    | boolean | integer | string => cases htype
  | string s =>
    cases v' with
    | string s' => rw [(Text.quoted_append_inj (congrArg (String.toList · ++ []) htext)).1]
    | boolean | integer | decimal => cases htype

end Literal

namespace IsName

variable {s : String}

theorem plain (h : IsName s) : Plain s.toList := by
  obtain ⟨⟨hchars, hstart, hfollow⟩, -, -⟩ := h
  rw [hchars]
  refine ⟨List.cons_ne_nil _ _, List.forall_mem_cons.2 ⟨?_, fun c hc ↦ ?_⟩⟩
  · rcases hstart with halpha | rfl
    · simp [isPlain, Char.isAlphanum, halpha]
    · rfl
  · rcases hfollow c hc with halphanum | rfl
    · simp [isPlain, halphanum]
    · rfl

theorem not_isDigit_of_isAlpha {c : Char} (h : c.isAlpha) : ¬ c.isDigit := by
  intro hdigit
  have hbounds := Json.Numeral.toNat_bounds_of_isDigit hdigit
  have hletter := Text.toNat_bounds_of_isAlpha h
  omega

/-- A name is not taken for a literal. -/
theorem typeOfText_eq (h : IsName s) : Literal.typeOfText s = none := by
  obtain ⟨⟨hchars, hstart, hfollow⟩, htrue, hfalse⟩ := h
  have hpoint : '.' ∉ s.toList := by
    rw [hchars]
    rintro (- | ⟨-, hmem⟩)
    · exact absurd hstart (by decide)
    · exact absurd (hfollow '.' hmem) (by decide)
  have hdigit : ¬ s.toList.head?.any Char.isDigit = true := by
    rw [hchars]
    rcases hstart with halpha | rfl
    · exact not_isDigit_of_isAlpha halpha
    · exact Bool.false_ne_true
  rw [Literal.typeOfText, if_neg hpoint, if_neg hdigit, if_neg (not_or.2 ⟨htrue, hfalse⟩)]

end IsName

/-! ### Operands -/

/-- What an operand begins with. -/
inductive Opening where
  | plain
  | quote
  | sign
  | parenthesis
  deriving DecidableEq

/-- What a character begins. -/
def Opening.ofChar (c : Char) : Opening :=
  if isPlain c then plain
  else if c = '"' then quote
  else if c = '(' then parenthesis
  else sign

namespace Expr

variable {e e' : Expr} {r r' : List Char}

/-- What follows an operand: nothing, the operator or the parenthesis of an expression around it. -/
def Ends (rest : List Char) : Prop :=
  ∀ c ∈ rest.head?, c = ' ' ∨ c = ')'

theorem ends_nil : Ends [] :=
  fun _ hc ↦ absurd hc (by simp)

theorem ends_cons {c : Char} {rest : List Char} (h : c = ' ' ∨ c = ')') : Ends (c :: rest) := by
  intro d hd
  rwa [← Option.some.inj hd]

/-- What the text of an expression as an operand begins with. -/
def opening : Expr → Opening
  | literal _ (.string _) => .quote
  | absent | literal .. | reference .. => .plain
  | unary .. => .sign
  | binary .. => .parenthesis

/-- The characters of an expression as an operand. -/
def operandChars (e : Expr) : List Char :=
  (e.asOperand e.text).toList

theorem operandChars_unary (pos : Position) (op : UnaryOp) (x : Expr) :
    (unary pos op x).operandChars = op.symbol.toList ++ x.operandChars :=
  String.toList_append

theorem toList_text_binary (pos : Position) (op : BinaryOp) (left right : Expr) :
    (binary pos op left right).text.toList =
      left.operandChars ++ ' ' :: (op.symbol.toList ++ ' ' :: right.operandChars) := by
  simp [text, operandChars, String.toList_append]

theorem operandChars_binary (pos : Position) (op : BinaryOp) (left right : Expr) :
    (binary pos op left right).operandChars =
      '(' :: ((binary pos op left right).text.toList ++ [')']) := by
  rw [operandChars, asOperand, String.toList_append, String.toList_append]
  rfl

/-- The symbol of a known operator with one operand is a single character. -/
theorem exists_symbol {op : UnaryOp} (h : op ∈ UnaryOp.all) :
    ∃ c, op.symbol.toList = [c] ∧ Opening.ofChar c = .sign := by
  have hall : ∀ op ∈ UnaryOp.all, ∃ c, op.symbol.toList = [c] ∧ Opening.ofChar c = .sign := by
    simp only [UnaryOp.all, List.forall_mem_cons]
    exact ⟨⟨'!', rfl, rfl⟩, ⟨'-', rfl, rfl⟩, ⟨'+', rfl, rfl⟩, fun _ h ↦ absurd h List.not_mem_nil⟩
  exact hall op h

theorem space_notMem_symbol : ∀ op ∈ BinaryOp.all, ' ' ∉ op.symbol.toList := by
  decide

/-- The symbol of an operator between two operands ends at the space after it. -/
theorem symbol_append_inj {op op' : BinaryOp} (h : op ∈ BinaryOp.all) (h' : op' ∈ BinaryOp.all)
    (heq : op.symbol.toList ++ ' ' :: r = op'.symbol.toList ++ ' ' :: r') : op = op' ∧ r = r' := by
  have hspace : ∀ {s : List Char}, ∀ c ∈ (' ' :: s).head?, ¬ c ≠ ' ' := by
    intro s c hc
    exact not_not.2 (Option.some.inj hc).symm
  obtain ⟨hsymbol, hrest⟩ := Text.run_unique (p := (· ≠ ' '))
    (fun c hc hspace ↦ space_notMem_symbol op h (hspace ▸ hc))
    (fun c hc hspace ↦ space_notMem_symbol op' h' (hspace ▸ hc)) hspace hspace heq
  exact ⟨BinaryOp.symbol_injective op h op' h' (String.toList_inj.1 hsymbol),
    (List.cons.inj hrest).2⟩

theorem type_ne_string {pos : Position} {v : Literal} (h : (literal pos v).opening = .plain) :
    v.type ≠ .string := by
  cases v with
  | string s => cases h
  | boolean | integer | decimal => simp [Literal.type]

theorem plain_operandChars (h : e.Writable) (hplain : e.opening = .plain) :
    e.operandChars = e.text.toList ∧ Plain e.text.toList := by
  cases e with
  | absent => exact h.elim
  | literal pos v => exact ⟨rfl, Literal.plain_text h (type_ne_string hplain)⟩
  | reference pos n => exact ⟨rfl, IsName.plain h⟩
  | unary | binary => cases hplain

/-- The first character of an operand tells what begins there. -/
theorem exists_head (h : e.Writable) :
    ∃ c cs, e.operandChars = c :: cs ∧ Opening.ofChar c = e.opening := by
  by_cases hplain : e.opening = .plain
  · obtain ⟨hchars, hne, hall⟩ := plain_operandChars h hplain
    obtain ⟨c, cs, htext⟩ := List.exists_cons_of_ne_nil hne
    refine ⟨c, cs, hchars.trans htext, ?_⟩
    rw [hplain]
    exact if_pos (hall c (htext ▸ List.mem_cons_self))
  · cases e with
    | absent => exact h.elim
    | literal pos v =>
      cases v with
      | string s => exact ⟨'"', _, String.toList_ofList, rfl⟩
      | boolean | integer | decimal => exact absurd rfl hplain
    | reference => exact absurd rfl hplain
    | unary pos op x =>
      obtain ⟨c, hc, hsign⟩ := exists_symbol h.1
      refine ⟨c, x.operandChars, ?_, hsign⟩
      rw [operandChars_unary, hc, List.singleton_append]
    | binary pos op left right => exact ⟨'(', _, operandChars_binary .., rfl⟩

theorem opening_eq (h : e.Writable) (h' : e'.Writable)
    (heq : e.operandChars ++ r = e'.operandChars ++ r') : e.opening = e'.opening := by
  obtain ⟨c, cs, hchars, hopening⟩ := exists_head h
  obtain ⟨c', cs', hchars', hopening'⟩ := exists_head h'
  rw [hchars, hchars'] at heq
  rw [← hopening, ← hopening', (List.cons.inj heq).1]

/-- What an operand begins with tells what it is, unless it is plain. -/
theorem opening_cases (e : Expr) :
    match e.opening with
    | .plain => True
    | .quote => ∃ pos s, e = literal pos (.string s)
    | .sign => ∃ pos op x, e = unary pos op x
    | .parenthesis => ∃ pos op left right, e = binary pos op left right := by
  cases e with
  | absent | reference => trivial
  | literal pos v =>
    cases v with
    | boolean | integer | decimal => trivial
    | string s => exact ⟨pos, s, rfl⟩
  | unary pos op x => exact ⟨pos, op, x, rfl⟩
  | binary pos op left right => exact ⟨pos, op, left, right, rfl⟩

/-- Numbers, names and booleans are told apart by their texts. -/
theorem eq_of_plain_text_eq (h : e.Writable) (h' : e'.Writable) (hplain : e.opening = .plain)
    (hplain' : e'.opening = .plain) (htext : e.text = e'.text) :
    e.withoutPositions = e'.withoutPositions := by
  -- a name is no literal, and literals of two types have two texts
  have htype : Literal.typeOfText e.text = Literal.typeOfText e'.text := by rw [htext]
  cases e with
  | absent => exact h.elim
  | literal pos v =>
    rw [text, Literal.typeOfText_text h (type_ne_string hplain)] at htype
    cases e' with
    | absent => exact h'.elim
    | literal pos' v' =>
      rw [text, Literal.typeOfText_text h' (type_ne_string hplain')] at htype
      rw [Literal.eq_of_text_eq h h' (Option.some.inj htype) htext]
      rfl
    | reference pos' n' =>
      rw [text, IsName.typeOfText_eq h'] at htype
      exact absurd htype (by simp)
    | unary | binary => cases hplain'
  | reference pos n =>
    rw [text, IsName.typeOfText_eq h] at htype
    cases e' with
    | absent => exact h'.elim
    | literal pos' v' =>
      rw [text, Literal.typeOfText_text h' (type_ne_string hplain')] at htype
      exact absurd htype (by simp)
    | reference pos' n' => exact congrArg (reference {}) htext
    | unary | binary => cases hplain'
  | unary | binary => cases hplain

/-- Numbers, names and booleans go on up to what follows them. -/
theorem plain_append_inj (h : e.Writable) (h' : e'.Writable) (hplain : e.opening = .plain)
    (hr : Ends r) (hr' : Ends r') (heq : e.operandChars ++ r = e'.operandChars ++ r') :
    e.withoutPositions = e'.withoutPositions ∧ r = r' := by
  have hends : ∀ {s : List Char}, Ends s → ∀ c ∈ s.head?, ¬ isPlain c = true := by
    intro s hs c hc
    rcases hs c hc with rfl | rfl <;> decide
  have hplain' : e'.opening = .plain := (opening_eq h h' heq).symm.trans hplain
  obtain ⟨hchars, -, hall⟩ := plain_operandChars h hplain
  obtain ⟨hchars', -, hall'⟩ := plain_operandChars h' hplain'
  rw [hchars, hchars'] at heq
  obtain ⟨htext, hrest⟩ := Text.run_unique hall hall' (hends hr) (hends hr') heq
  exact ⟨eq_of_plain_text_eq h h' hplain hplain' (String.toList_inj.1 htext), hrest⟩

/-- **An operand ends where its text says**, whatever follows it. -/
theorem operand_append_inj (h : e.Writable) (h' : e'.Writable) (hr : Ends r) (hr' : Ends r')
    (heq : e.operandChars ++ r = e'.operandChars ++ r') :
    e.withoutPositions = e'.withoutPositions ∧ r = r' := by
  induction e generalizing e' r r' with
  | absent => exact h.elim
  | reference pos n => exact plain_append_inj h h' rfl hr hr' heq
  | literal pos v =>
    cases v with
    | boolean | integer | decimal => exact plain_append_inj h h' rfl hr hr' heq
    | string s =>
      have hcases := opening_cases e'
      rw [← opening_eq h h' heq] at hcases
      obtain ⟨pos', s', rfl⟩ := hcases
      obtain ⟨rfl, hrest⟩ := Text.quoted_append_inj heq
      exact ⟨rfl, hrest⟩
  | unary pos op x ih =>
    have hcases := opening_cases e'
    rw [← opening_eq h h' heq] at hcases
    obtain ⟨pos', op', x', rfl⟩ := hcases
    obtain ⟨c, hc, -⟩ := exists_symbol h.1
    obtain ⟨c', hc', -⟩ := exists_symbol h'.1
    rw [operandChars_unary, operandChars_unary, hc, hc'] at heq
    obtain ⟨rfl, htail⟩ := List.cons.inj heq
    obtain rfl : op = op' :=
      UnaryOp.symbol_injective op h.1 op' h'.1 (String.toList_inj.1 (hc.trans hc'.symm))
    obtain ⟨hx, hrest⟩ := ih h.2 h'.2 hr hr' htail
    exact ⟨congrArg (unary {} op) hx, hrest⟩
  | binary pos op left right ihl ihr =>
    have hcases := opening_cases e'
    rw [← opening_eq h h' heq] at hcases
    obtain ⟨pos', op', left', right', rfl⟩ := hcases
    rw [operandChars_binary, operandChars_binary, toList_text_binary, toList_text_binary] at heq
    simp only [List.cons_append, List.append_assoc, List.nil_append] at heq
    -- the left operand ends at the space before the operator, and the operator at the next one
    obtain ⟨hleft, htail⟩ := ihl h.2.1 h'.2.1 (ends_cons (.inl rfl)) (ends_cons (.inl rfl))
      (List.cons.inj heq).2
    obtain ⟨hsymbol, htail⟩ := symbol_append_inj h.1 h'.1 (List.cons.inj htail).2
    obtain ⟨hright, htail⟩ := ihr h.2.2 h'.2.2 (ends_cons (.inr rfl)) (ends_cons (.inr rfl)) htail
    refine ⟨?_, (List.cons.inj htail).2⟩
    rw [withoutPositions, withoutPositions, hsymbol, hleft, hright]

/-! ### Whole expressions -/

/-- Outside of parentheses an expression that is not binary is written as an operand is. -/
theorem operandChars_eq (h : e.opening ≠ .parenthesis) : e.operandChars = e.text.toList := by
  cases e with
  | absent | literal | reference | unary => rfl
  | binary => exact absurd rfl h

/-- A binary expression has a space that belongs to no operand, and no other expression has. -/
theorem text_ne_of_opening (h : e.Writable) (h' : e'.Writable) (hbinary : e.opening = .parenthesis)
    (hother : e'.opening ≠ .parenthesis) : e.text ≠ e'.text := by
  intro htext
  have hcases := opening_cases e
  rw [hbinary] at hcases
  obtain ⟨pos, op, left, right, rfl⟩ := hcases
  have hchars := congrArg String.toList htext
  rw [toList_text_binary, ← operandChars_eq hother, ← List.append_nil e'.operandChars] at hchars
  obtain ⟨-, hrest⟩ := operand_append_inj h.2.1 h' (ends_cons (.inl rfl)) ends_nil hchars
  exact absurd hrest (by simp)

theorem operandChars_eq_of_text_eq (h : e.Writable) (h' : e'.Writable) (htext : e.text = e'.text) :
    e.operandChars = e'.operandChars := by
  by_cases hbinary : e.opening = .parenthesis
  · by_cases hbinary' : e'.opening = .parenthesis
    · have hcases := opening_cases e
      have hcases' := opening_cases e'
      rw [hbinary] at hcases
      rw [hbinary'] at hcases'
      obtain ⟨pos, op, left, right, rfl⟩ := hcases
      obtain ⟨pos', op', left', right', rfl⟩ := hcases'
      rw [operandChars_binary, operandChars_binary, htext]
    · exact absurd htext (text_ne_of_opening h h' hbinary hbinary')
  · by_cases hbinary' : e'.opening = .parenthesis
    · exact absurd htext.symm (text_ne_of_opening h' h hbinary' hbinary)
    · rw [operandChars_eq hbinary, operandChars_eq hbinary', htext]

/-- **The text of an expression** tells the expression, except for its positions. -/
theorem text_eq_text_iff (h : e.Writable) (h' : e'.Writable) :
    e.text = e'.text ↔ e.withoutPositions = e'.withoutPositions := by
  constructor
  · intro htext
    have hchars : e.operandChars ++ [] = e'.operandChars ++ [] := by
      rw [operandChars_eq_of_text_eq h h' htext]
    exact (operand_append_inj h h' ends_nil ends_nil hchars).1
  · intro hsame
    rw [← text_withoutPositions e, hsame, text_withoutPositions]

/-- The number 0.1. -/
def tenth : Binary64 :=
  .finite false ⟨1019, by decide⟩ ⟨0x999999999999A, by decide⟩

/-- The amount `-net - 0.1`, of which only the first part is negated. -/
def negatedFirst : Expr :=
  binary ⟨3, 5⟩ .subtraction (unary ⟨3, 5⟩ .negative (reference ⟨3, 6⟩ "net"))
    (literal ⟨3, 12⟩ (.decimal tenth))

/-- The amount `-(net - 0.1)`, which is negated as a whole. -/
def negatedWhole : Expr :=
  unary ⟨3, 5⟩ .negative
    (binary ⟨3, 7⟩ .subtraction (reference ⟨3, 7⟩ "net") (literal ⟨3, 13⟩ (.decimal tenth)))

theorem text_negatedFirst_ne : negatedFirst.Writable ∧ negatedWhole.Writable ∧
    negatedFirst.text ≠ negatedWhole.text := by
  have hname : IsName "net" := by
    have hchars : "net".toList = 'n' :: ['e', 't'] := rfl
    have hfollow : ∀ d ∈ ['e', 't'], d.isAlphanum ∨ d = '_' := by simp
    exact ⟨.mk hchars (.inl rfl) hfollow, by decide, by decide⟩
  have hfirst : negatedFirst.Writable := ⟨by decide, ⟨by decide, hname⟩, _, _, rfl⟩
  have hwhole : negatedWhole.Writable := ⟨by decide, by decide, hname, _, _, rfl⟩
  have hother : negatedFirst.withoutPositions ≠ negatedWhole.withoutPositions := by
    simp [negatedFirst, negatedWhole, withoutPositions]
  exact ⟨hfirst, hwhole, mt (text_eq_text_iff hfirst hwhole).1 hother⟩

/-- The negative zero is written as the negation of zero, which is another expression. -/
example : (literal {} (.decimal (.zero true))).text =
    (unary {} .negative (literal {} (.decimal (.zero false)))).text := by
  decide

end Expr

end Questionnaire
