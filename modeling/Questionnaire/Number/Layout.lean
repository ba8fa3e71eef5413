import Questionnaire.Number.Shortest

/-!
# Decimal layouts

A decimal is laid out positionally, with zeros filled in around its digits, or in scientific
notation, with one digit before the point and a power of ten.
-/

namespace Questionnaire

namespace DecimalDigits

/-- The digits before the point, a single zero when there are none. -/
def whole (d : DecimalDigits) : List Char :=
  if d.point ≤ 0 then ['0']
  else
    let n := d.point.toNat
    d.digits.take n ++ List.replicate (n - d.digits.length) '0'

/-- The digits after the point. -/
def fraction (d : DecimalDigits) : List Char :=
  if d.digits.isEmpty then []
  else if d.point ≤ 0 then List.replicate (-d.point).toNat '0' ++ d.digits
  else d.digits.drop d.point.toNat

/-- All digits written out, with a point only when some follow it. -/
def positional (d : DecimalDigits) : List Char :=
  match d.fraction with
  | [] => d.whole
  | f => d.whole ++ '.' :: f

/-- One digit, a point when more follow, and those: the part before the power of ten. -/
def leading (d : DecimalDigits) : List Char :=
  match d.digits with
  | [] => ['0']
  | [c] => [c]
  | c :: rest => c :: '.' :: rest

end DecimalDigits

namespace Binary64

/-- The sign of a negative number. -/
def signText (negative : Bool) : String :=
  if negative then "-" else ""

/-- A number written out positionally in the fewest digits that read back. -/
def positional : Binary64 → String
  | finite negative scale fraction =>
    signText negative ++ String.ofList (shortest scale fraction).positional
  | infinite false => "+Inf"
  | infinite true => "-Inf"
  | nan => "NaN"

end Binary64

end Questionnaire
