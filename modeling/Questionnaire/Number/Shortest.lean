import Questionnaire.Number.Binary64

/-!
# The shortest decimal of a binary64 number

Among the decimals that round to a given number, `Binary64.shortest` finds one with the fewest
digits and, of those, the one nearest to it, a tie going to the even last digit. The decimals that
round to a number form an interval around it, whose ends belong to it when the significand is even.
For one, two, … digits the two neighbours of the number on the grid of that many digits are tried,
in exact arithmetic on natural numbers.
-/

namespace Questionnaire

/-- A positive decimal `0.d₁d₂… · 10 ^ point`, given by the natural number with the digits
`d₁d₂…`. -/
structure DecimalDigits where
  digits : List Char
  point : Int
  deriving DecidableEq, Inhabited

namespace Binary64

/-- A magnitude with the interval of reals that round to it: the numerators of its lower end, of
itself and of its upper end over one denominator, and whether the ends belong to the interval. -/
structure Interval where
  low : Nat
  mid : Nat
  high : Nat
  den : Nat
  closed : Bool

/-- The interval of reals that round to a magnitude. Below the first significand of a scale the
numbers lie half as far apart. -/
def interval (scale : Fin 2047) (fraction : Fin 0x10000000000000) : Interval :=
  let m := significand scale fraction
  let e := exponent scale - 2
  let unit := Nat.pow 2 e.toNat
  { low := (if fraction.val = 0 ∧ 1 < scale.val then 4 * m - 1 else 4 * m - 2) * unit
    mid := 4 * m * unit
    high := (4 * m + 2) * unit
    den := Nat.pow 2 (-e).toNat
    closed := m % 2 == 0 }

/-- Whether `a · 10 ^ k` lies in an interval. -/
def Interval.contains (i : Interval) (a : Nat) (k : Int) : Bool :=
  let x := a * Nat.pow 10 k.toNat * i.den
  let scale := Nat.pow 10 (-k).toNat
  if i.closed then decide (i.low * scale ≤ x ∧ x ≤ i.high * scale)
  else decide (i.low * scale < x ∧ x < i.high * scale)

/-- The power of ten just above the quotient of two positive natural numbers: the least `p` with
`num / den < 10 ^ p`, looked for among the four that the binary sizes leave. -/
def decimalPoint (num den : Nat) : Int :=
  let guess := ((num.log2 : Int) - den.log2) * 30103 / 100000 - 1
  let below (p : Int) : Bool := decide (num * Nat.pow 10 (-p).toNat < den * Nat.pow 10 p.toNat)
  if below guess then guess
  else if below (guess + 1) then guess + 1
  else if below (guess + 2) then guess + 2
  else guess + 3

/-- The decimal of `count` digits in an interval that is nearest to its middle, if there is one: the
middle's two neighbours on the grid `10 ^ k` are tried, the nearer one first. -/
def Interval.neighbour (i : Interval) (k : Int) : Option Nat :=
  let num := i.mid * Nat.pow 10 (-k).toNat
  let den := i.den * Nat.pow 10 k.toNat
  let q := num / den
  let near := roundHalfEven num den
  let far := if near = q then q + 1 else q
  if i.contains near k then some near
  else if i.contains far k then some far
  else none

/-- The first grid, from `count` digits on and finer by one digit at each step, that has a point in
the interval. -/
def Interval.search (i : Interval) (point : Int) : Nat → Nat → Nat × Int
  | 0, count => ((i.neighbour (point - count)).getD 0, point - count)
  | fuel + 1, count =>
    match i.neighbour (point - count) with
    | some a => (a, point - count)
    | none => i.search point fuel (count + 1)

/-- The digits of a list without the zeros at its end. -/
def dropTrailingZeros (ds : List Char) : List Char :=
  (ds.reverse.dropWhile (· == '0')).reverse

/-- The decimal with the fewest digits that rounds to a magnitude, nearest to it among those. A zero
has no digits. -/
def shortest (scale : Fin 2047) (fraction : Fin 0x10000000000000) : DecimalDigits :=
  if significand scale fraction = 0 then ⟨[], 0⟩
  else
    let i := interval scale fraction
    let (a, k) := i.search (decimalPoint i.mid i.den) 16 1
    let ds := Nat.toDigits 10 a
    ⟨dropTrailingZeros ds, ds.length + k⟩

end Binary64

end Questionnaire
