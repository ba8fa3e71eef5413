import Questionnaire.Proofs.Json.Members
import Questionnaire.Proofs.Json.Numerals
import Questionnaire.Schema.Documents

/-!
# The grammar of form documents

Forms, statements and expressions as a grammar of JSON values: which members an object of each kind
has, and what each of them is. The grammar knows no schemas, no keywords and no places. Which
numbers it takes for integers is a parameter: those whose value is one (`Json.Numeral.IsInteger`),
or those whose spelling is recognised as one.

`DecidesIntegers` says that the schemas go by the same numbers in a document. They do so for values
as long as no power of ten leaves the bounds up to which it is formed
(`decidesIntegers_of_inBounds`).
-/

namespace Questionnaire.Schema

open Json (member? PartOf ChildOf)

/-! ### The grammar -/

/-- A line or column number: an integer that is not negative. -/
inductive IsCoordinate (integer : Json.Numeral → Prop) : Json → Prop
  | mk {n : Json.Numeral} (h : integer n) (nonneg : 0 ≤ n.value) :
      IsCoordinate integer (.number n)

/-- An identifier: a letter or an underscore, followed by letters, digits and underscores. -/
inductive IsIdentifier : String → Prop
  | mk {s : String} {c : Char} {rest : List Char} (chars : s.toList = c :: rest)
      (start : c.isAlpha ∨ c = '_') (follow : ∀ d ∈ rest, d.isAlphanum ∨ d = '_') : IsIdentifier s

/-- An object has a kind and a position. -/
structure HasHead (integer : Json.Numeral → Prop) (kind : String)
    (members : List (String × Json)) : Prop where
  kind : member? "kind" members = some (.string kind)
  line : ∃ j, member? "line" members = some j ∧ IsCoordinate integer j
  column : ∃ j, member? "column" members = some j ∧ IsCoordinate integer j

/-- An object has no members but those with some names. -/
def HasOnly (names : List String) (members : List (String × Json)) : Prop :=
  ∀ m ∈ members, m.1 ∈ names

/-- The word for a type, and a value of that type. -/
inductive IsLiteral (integer : Json.Numeral → Prop) : String → Json → Prop
  | boolean {b : Bool} : IsLiteral integer "boolean" (.bool b)
  | integer {n : Json.Numeral} (h : integer n) : IsLiteral integer "integer" (.number n)
  | decimal {n : Json.Numeral} : IsLiteral integer "decimal" (.number n)
  | string {s : String} : IsLiteral integer "string" (.string s)

/-- An expression. It may have any further members. -/
inductive IsExpression (integer : Json.Numeral → Prop) : Json → Prop
  | literal {members : List (String × Json)} {type : String} {value : Json}
      (head : HasHead integer "literal" members)
      (htype : member? "type" members = some (.string type))
      (hvalue : member? "value" members = some value) (matching : IsLiteral integer type value) :
      IsExpression integer (.object members)
  | reference {members : List (String × Json)} {name : String}
      (head : HasHead integer "reference" members)
      (hname : member? "name" members = some (.string name)) (nonempty : name ≠ "") :
      IsExpression integer (.object members)
  | unary {members : List (String × Json)} {operator : String} {operand : Json}
      (head : HasHead integer "unary" members)
      (hoperator : member? "operator" members = some (.string operator))
      (known : operator ∈ ["!", "-", "+"]) (hoperand : member? "operand" members = some operand)
      (operandValid : IsExpression integer operand) : IsExpression integer (.object members)
  | binary {members : List (String × Json)} {operator : String} {left right : Json}
      (head : HasHead integer "binary" members)
      (hoperator : member? "operator" members = some (.string operator))
      (known : operator ∈ ["+", "-", "*", "/", "%", "^", "&&", "||", "==", "!=", "<", "<=", ">",
        ">="])
      (hleft : member? "left" members = some left) (leftValid : IsExpression integer left)
      (hright : member? "right" members = some right) (rightValid : IsExpression integer right) :
      IsExpression integer (.object members)

/-- The members that declare a question. -/
structure Declares (members : List (String × Json)) : Prop where
  id : ∃ s, member? "id" members = some (.string s) ∧ IsIdentifier s
  type : ∃ s ∈ ["boolean", "integer", "decimal", "string"],
    member? "type" members = some (.string s)
  label : ∃ s, member? "label" members = some (.string s)

/-- A statement. It has no further members. -/
inductive IsStatement (integer : Json.Numeral → Prop) : Json → Prop
  | question {members : List (String × Json)} (head : HasHead integer "question" members)
      (declares : Declares members)
      (only : HasOnly ["kind", "line", "column", "id", "type", "label"] members) :
      IsStatement integer (.object members)
  | calculated {members : List (String × Json)} {expression : Json}
      (head : HasHead integer "calculated" members) (declares : Declares members)
      (hexpression : member? "expression" members = some expression)
      (expressionValid : IsExpression integer expression)
      (only : HasOnly ["kind", "line", "column", "id", "type", "label", "expression"] members) :
      IsStatement integer (.object members)
  | condition {members : List (String × Json)} {guard : Json} {body : List Json}
      (head : HasHead integer "condition" members) (hguard : member? "guard" members = some guard)
      (guardValid : IsExpression integer guard)
      (hbody : member? "body" members = some (.array body))
      (bodyValid : ∀ s ∈ body, IsStatement integer s)
      (only : HasOnly ["kind", "line", "column", "guard", "body"] members) :
      IsStatement integer (.object members)

/-- A form. It has no further members. -/
inductive IsForm (integer : Json.Numeral → Prop) : Json → Prop
  | mk {members : List (String × Json)} {statements : List Json}
      (hstatements : member? "statements" members = some (.array statements))
      (statementsValid : ∀ s ∈ statements, IsStatement integer s)
      (name : ∀ j, member? "name" members = some j → ∃ s, j = .string s)
      (file : ∀ j, member? "file" members = some j → ∃ s, j = .string s)
      (only : HasOnly ["name", "file", "statements"] members) : IsForm integer (.object members)

/-! ### Integers -/

/-- The type of integers admits those numbers of a document that are integers. -/
def DecidesIntegers (integer : Json.Numeral → Prop) (doc : Json) : Prop :=
  ∀ n : Json.Numeral, PartOf (.number n) doc → (TypeName.integer.admits (.number n) ↔ integer n)

variable {integer : Json.Numeral → Prop} {j k : Json}

theorem DecidesIntegers.of_partOf (h : DecidesIntegers integer j) (hk : PartOf k j) :
    DecidesIntegers integer k :=
  fun n hn ↦ h n (hn.trans hk)

theorem DecidesIntegers.member {name : String} {members : List (String × Json)}
    (h : DecidesIntegers integer (.object members)) (hj : member? name members = some j) :
    DecidesIntegers integer j :=
  h.of_partOf (.of_childOf (.member hj))

/-- **Within bounds**, integers are decided by value. -/
theorem decidesIntegers_of_inBounds (h : ∀ n ∈ j.numerals, n.WellSpelled ∧ n.InBounds) :
    DecidesIntegers Json.Numeral.IsInteger j := by
  intro n hn
  obtain ⟨hspelled, hbounds⟩ := h n (Json.mem_numerals_of_partOf hn)
  exact Json.Numeral.isInteger_iff hspelled hbounds

end Questionnaire.Schema
