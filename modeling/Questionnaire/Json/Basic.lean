import Questionnaire.Number.Binary64

/-!
# JSON values

A JSON value keeps what its text says and no more: members in the order they were written, repeated
names included, and numbers as they were spelled. `Json.Numeral` holds a spelling part by part; its
exact value is `±digits · 10 ^ power`.
-/

namespace Questionnaire

namespace Json

/-- The exponent of a number's spelling: its letter, its sign if one is written, and its digits. -/
structure Exponent where
  letter : Char
  sign : Option Char
  digits : List Char
  deriving DecidableEq, Inhabited

/-- The spelling of a number. An empty fraction means that no point is written. -/
structure Numeral where
  negative : Bool := false
  whole : List Char
  fraction : List Char := []
  exponent : Option Exponent := none
  deriving DecidableEq, Inhabited

namespace Exponent

/-- The characters of an exponent. -/
def chars (e : Exponent) : List Char :=
  e.letter :: (e.sign.toList ++ e.digits)

/-- The value of an exponent. -/
def value (e : Exponent) : Int :=
  if e.sign = some '-' then -(natOfDigits e.digits : Int) else natOfDigits e.digits

end Exponent

namespace Numeral

/-- The characters of a spelling. -/
def chars (n : Numeral) : List Char :=
  (if n.negative then ['-'] else []) ++ n.whole ++
    (if n.fraction.isEmpty then [] else '.' :: n.fraction) ++
    (n.exponent.map Exponent.chars).getD []

/-- The text of a spelling. -/
def text (n : Numeral) : String :=
  String.ofList n.chars

/-- All digits of a spelling, before and after the point, as one natural number. -/
def digits (n : Numeral) : Nat :=
  natOfDigits (n.whole ++ n.fraction)

/-- The power of ten that the digits are multiplied by. -/
def power (n : Numeral) : Int :=
  (n.exponent.map Exponent.value).getD 0 - n.fraction.length

/-- The binary64 number nearest to the value. -/
def toBinary64 (n : Numeral) : Binary64 :=
  Binary64.ofDecimal n.negative n.digits n.power

/-- The number of zeros at the end of a list of digits. -/
def trailingZeros (ds : List Char) : Nat :=
  (ds.reverse.takeWhile (· == '0')).length

/-- The largest power of ten that a fraction is formed with. -/
def maxPower : Nat := 1000000

/-- Whether the exponent fits a word of 64 bits. -/
def hasWordExponent (n : Numeral) : Bool :=
  let e := (n.exponent.map Exponent.value).getD 0
  decide (Int64.minValue.toInt ≤ e ∧ e ≤ Int64.maxValue.toInt)

/-- Whether the value is an integer, however it is spelled. A spelling whose power of ten is out of
all bounds counts as none. -/
def isInteger (n : Numeral) : Bool :=
  n.hasWordExponent &&
    (n.digits == 0 ||
      decide (n.power.natAbs ≤ maxPower ∧
        0 ≤ n.power + trailingZeros (n.whole ++ n.fraction)))

/-- Whether the value is less than zero. -/
def isNegative (n : Numeral) : Bool :=
  n.negative && n.digits != 0

/-- Whether some characters are digits, at least one. -/
def areDigits (ds : List Char) : Bool :=
  !ds.isEmpty && ds.all Char.isDigit

/-- Whether the parts of a spelling make up a number: a zero in front stands alone, and there are
digits where there have to be some. -/
def isValid (n : Numeral) : Bool :=
  areDigits n.whole && (n.whole.head? != some '0' || n.whole == ['0']) &&
    n.fraction.all Char.isDigit &&
    n.exponent.all fun e ↦
      (e.letter == 'e' || e.letter == 'E') && [none, some '+', some '-'].contains e.sign &&
        areDigits e.digits

/-- The plain spelling of an integer. -/
def ofInt (i : Int) : Numeral :=
  { negative := decide (i < 0), whole := Nat.toDigits 10 i.natAbs }

/-- The integer a spelling stands for, if it is spelled without point and exponent. -/
def toInt? (n : Numeral) : Option Int :=
  if n.fraction.isEmpty && n.exponent.isNone then
    some (if n.negative then -(natOfDigits n.whole : Int) else natOfDigits n.whole)
  else none

/-- The word of 64 bits a spelling stands for, if it is a plain integer in range. -/
def toInt64? (n : Numeral) : Option Int64 :=
  n.toInt?.bind fun i ↦
    if Int64.minValue.toInt ≤ i ∧ i ≤ Int64.maxValue.toInt then some (Int64.ofInt i) else none

end Numeral

end Json

/-- A JSON value. -/
inductive Json where
  | null
  | bool (value : Bool)
  | number (value : Json.Numeral)
  | string (value : String)
  | array (items : List Json)
  | object (members : List (String × Json))
  deriving Inhabited

namespace Json

/-- The number that stands for an integer. -/
def int (i : Int) : Json :=
  number (Numeral.ofInt i)

/-- The value of the last member with a name. -/
def member? {α : Type} (name : String) : List (String × α) → Option α
  | [] => none
  | (n, value) :: rest =>
    match member? name rest with
    | some later => some later
    | none => if n = name then some value else none

/-- Whether there is a member with a name. -/
def hasMember {α : Type} (name : String) (members : List (String × α)) : Bool :=
  members.any fun m ↦ m.1 == name

end Json

end Questionnaire
