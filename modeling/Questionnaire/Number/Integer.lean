import Questionnaire.Number.Reading

/-!
# Reading integers

An integer is spelled in a base, with a sign or without. A literal tells its base by how it starts:
`0x`, `0o`, `0b`, or a zero for base eight; its digits may be parted by underscores. Only integers
that fit a word of 64 bits are read; where the digits go beyond that, or where there is something
else than digits, whichever comes first is the fault.
-/

namespace Questionnaire

/-- Why a text is no integer. -/
inductive IntegerFault where
  | malformed
  | outOfRange
  deriving DecidableEq, Inhabited

namespace Integer

/-- The value of a digit in any base up to 36. -/
def digitValue? (c : Char) : Option Nat :=
  if '0' ≤ c ∧ c ≤ '9' then some (c.toNat - 48)
  else if 'a' ≤ c ∧ c ≤ 'z' then some (c.toNat - 87)
  else if 'A' ≤ c ∧ c ≤ 'Z' then some (c.toNat - 55)
  else none

/-- The number that digits stand for behind those of `n`. -/
def readDigits (base : Nat) (n : Nat) : List Char → Except IntegerFault Nat
  | [] => .ok n
  | c :: rest =>
    match digitValue? c with
    | none => .error .malformed
    | some d =>
      if base ≤ d then .error .malformed
      else if 0x10000000000000000 ≤ base * n + d then .error .outOfRange
      else readDigits base (base * n + d) rest

/-- The number that some characters stand for in a base; there has to be a digit. -/
def readNatural (base : Nat) (cs : List Char) : Except IntegerFault Nat :=
  if cs.isEmpty then .error .malformed else readDigits base 0 cs

/-- A sign in front of some characters, if there is one, and what follows. -/
def takeSign? : List Char → Option Bool × List Char
  | '-' :: rest => (some true, rest)
  | '+' :: rest => (some false, rest)
  | cs => (none, cs)

/-- The base that the first characters of a literal tell, whether they are a mark of two characters,
and what follows. -/
def takeBase : List Char → Nat × Bool × List Char
  | '0' :: c :: d :: rest =>
    if c == 'x' || c == 'X' then (16, true, d :: rest)
    else if c == 'o' || c == 'O' then (8, true, d :: rest)
    else if c == 'b' || c == 'B' then (2, true, d :: rest)
    else (8, false, c :: d :: rest)
  | '0' :: c :: [] => (8, false, [c])
  | cs => (10, false, cs)

/-- The signed integer of 64 bits with a magnitude. -/
def signed (negative : Bool) (n : Nat) : Except IntegerFault Int64 :=
  if negative then
    if n ≤ 0x8000000000000000 then .ok (Int64.ofInt (-(n : Int))) else .error .outOfRange
  else if n < 0x8000000000000000 then .ok (Int64.ofNat n)
  else .error .outOfRange

/-- The integer that a text spells in base ten. -/
def ofDecimal (cs : List Char) : Except IntegerFault Int64 := do
  let (sign, ds) := takeSign? cs
  let n ← readNatural 10 ds
  signed (sign == some true) n

/-- Whether the underscores of a literal without its sign stand between two digits, or between the
mark of its base and a digit. -/
def separatorsFitIn (cs : List Char) : Bool :=
  let (base, marked, ds) := takeBase cs
  let isDigit := fun c ↦
    Char.isDigit c || (base == 16 && ((digitValue? c).any fun d ↦ decide (d < 16)))
  if marked then Binary64.separatorsFit isDigit true ds
  else Binary64.separatorsFit Char.isDigit false cs

/-- The integer that a literal spells. -/
def ofLiteral (cs : List Char) : Except IntegerFault Int64 := do
  let (sign, rest) := takeSign? cs
  if rest.isEmpty then .error .malformed
  else
    let (base, _, ds) := takeBase rest
    let n ← readDigits base 0 (ds.filter (· != '_'))
    if rest.contains '_' && !separatorsFitIn rest then .error .malformed
    else signed (sign == some true) n

end Integer

end Questionnaire
