/-!
# Binary64 numbers

The double-precision binary numbers, held field by field: a sign, a scale below 2047 and a fraction
of 52 bits for the finite ones, the two infinities, and one value that is not a number. Every finite
number has exactly one such form, so equality of values of `Binary64` tells the two zeros apart and
nothing else.

`Binary64.ofRatio` reads a quotient of natural numbers: it takes the nearest finite number, a half
going to the one with the even significand, and an infinity beyond the largest. It is written
through the *rank* of a magnitude, its place in the ascending list of all finite magnitudes:
rounding up past the largest significand of one scale is then the step to the first of the next.
-/

namespace Questionnaire

/-- The natural number with the given decimal digits. -/
def natOfDigits (ds : List Char) : Nat :=
  ds.foldl (fun n c ↦ 10 * n + (c.toNat - 48)) 0

/-- A double-precision binary floating-point number. -/
inductive Binary64 where
  | finite (negative : Bool) (scale : Fin 2047) (fraction : Fin 0x10000000000000)
  | infinite (negative : Bool)
  | nan
  deriving DecidableEq, Inhabited

namespace Binary64

/-- The zero of a sign. -/
def zero (negative : Bool) : Binary64 :=
  finite negative ⟨0, by decide⟩ ⟨0, by decide⟩

/-- The integer significand of a finite number: a scale above the least has a leading one. -/
def significand (scale : Fin 2047) (fraction : Fin 0x10000000000000) : Nat :=
  if scale.val = 0 then fraction.val else 0x10000000000000 + fraction.val

/-- The power of two that the significand is multiplied by. -/
def exponent (scale : Fin 2047) : Int :=
  (max scale.val 1 : Nat) - 1075

/-- Whether a number is finite. -/
def isFinite : Binary64 → Bool
  | finite .. => true
  | _ => false

/-- The number of a sign whose magnitude has the given place in ascending order, an infinity when no
finite magnitude has. -/
def ofRank (negative : Bool) (rank : Nat) : Binary64 :=
  if h : rank / 0x10000000000000 < 2047 then
    finite negative ⟨rank / 0x10000000000000, h⟩ ⟨rank % 0x10000000000000, Nat.mod_lt _ (by decide)⟩
  else infinite negative

/-- The place of a magnitude in ascending order. -/
def rank (scale : Fin 2047) (fraction : Fin 0x10000000000000) : Nat :=
  scale.val * 0x10000000000000 + fraction.val

/-- Every finite number is found again at its rank. -/
theorem ofRank_rank (negative : Bool) (scale : Fin 2047) (fraction : Fin 0x10000000000000) :
    ofRank negative (rank scale fraction) = finite negative scale fraction := by
  have hd : (scale.val * 0x10000000000000 + fraction.val) / 0x10000000000000 = scale.val := by
    have := fraction.isLt
    omega
  have hm : (scale.val * 0x10000000000000 + fraction.val) % 0x10000000000000 = fraction.val := by
    have := fraction.isLt
    omega
  simp only [ofRank, rank, hd, hm, scale.isLt, dite_true]

/-- The quotient `n / d` rounded to the nearest natural number, a half to the even one. -/
def roundHalfEven (n d : Nat) : Nat :=
  let q := n / d
  let r := n % d
  if 2 * r < d then q
  else if d < 2 * r then q + 1
  else q + q % 2

/-- A numerator and a denominator after division by two to the power `e`. -/
def shiftRatio (num den : Nat) (e : Int) : Nat × Nat :=
  (num * Nat.pow 2 (-e).toNat, den * Nat.pow 2 e.toNat)

/-- The binary exponent at which a positive quotient has a significand of 53 bits, or the least
exponent when the quotient is too small for that. -/
def exponentFor (num den : Nat) : Int :=
  let e : Int := (num.log2 : Int) - (den.log2 : Int) - 52
  let (n, d) := shiftRatio num den e
  max (if n < 0x10000000000000 * d then e - 1 else e) (-1074)

/-- The number nearest to the quotient of two natural numbers, a half going to the even significand;
the denominator is positive. -/
def ofRatio (negative : Bool) (num den : Nat) : Binary64 :=
  if num = 0 then zero negative
  else
    let e := exponentFor num den
    let (n, d) := shiftRatio num den e
    ofRank negative ((e + 1074).toNat * 0x10000000000000 + roundHalfEven n d)

/-- The number of decimal digits of a natural number, one for zero. -/
def digitCount (n : Nat) : Nat :=
  (Nat.toDigits 10 n).length

/-- The number nearest to `digits · 10 ^ power`. Magnitudes from ten to the 310th on are infinite
and those below ten to the minus 400th are zero, so no larger power of ten is ever formed. -/
def ofDecimal (negative : Bool) (digits : Nat) (power : Int) : Binary64 :=
  let size : Int := digitCount digits + power
  if digits = 0 ∨ size < -400 then zero negative
  else if 310 < size then infinite negative
  else ofRatio negative (digits * Nat.pow 10 power.toNat) (Nat.pow 10 (-power).toNat)

end Binary64

end Questionnaire
