/-!
# White space

The characters that trimming removes: those with the White_Space property. The zero-width space is
not one of them.
-/

namespace Questionnaire.Text

/-- Whether a character is white space. -/
def isBlank (c : Char) : Bool :=
  let n := c.toNat
  decide ((0x09 ≤ n ∧ n ≤ 0x0D) ∨ n = 0x20 ∨ n = 0x85 ∨ n = 0xA0 ∨ n = 0x1680 ∨
    (0x2000 ≤ n ∧ n ≤ 0x200A) ∨ n = 0x2028 ∨ n = 0x2029 ∨ n = 0x202F ∨ n = 0x205F ∨ n = 0x3000)

/-- A list without the elements at either end that satisfy `p`. -/
def trimBoth {α : Type} (p : α → Bool) (l : List α) : List α :=
  ((l.dropWhile p).reverse.dropWhile p).reverse

/-- A text without the white space around it. -/
def trim (s : String) : String :=
  String.ofList (trimBoth isBlank s.toList)

@[simp]
theorem trimBoth_nil {α : Type} (p : α → Bool) : trimBoth p ([] : List α) = [] :=
  rfl

end Questionnaire.Text
