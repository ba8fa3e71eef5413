import Questionnaire.Number.Binary64

/-!
# Reading decimals

A decimal is spelled as an optional sign, digits with at most one point among or around them, and an
optional exponent. It is read as the nearest binary64 number.
-/

namespace Questionnaire

namespace Binary64

/-- Whether every underscore stands between two digits; `after` tells whether a digit stands before
some characters. -/
def separatorsFit (isDigit : Char → Bool) (after : Bool) : List Char → Bool
  | [] => true
  | c :: rest =>
    if c == '_' then
      after && (match rest with
        | d :: _ => isDigit d
        | [] => false) && separatorsFit isDigit false rest
    else separatorsFit isDigit (isDigit c) rest

/-- A sign in front of some characters: whether it is a minus, and the characters after it. -/
def takeSign : List Char → Bool × List Char
  | '-' :: rest => (true, rest)
  | '+' :: rest => (false, rest)
  | cs => (false, cs)

/-- The value of an exponent, none when the characters are no exponent; no characters are the
exponent zero. -/
def readExponent : List Char → Option Int
  | [] => some 0
  | c :: rest =>
    if c == 'e' || c == 'E' then
      let (negative, ds) := takeSign rest
      if ds.isEmpty || !ds.all Char.isDigit then none
      else some (if negative then -(natOfDigits ds : Int) else natOfDigits ds)
    else none

/-- The point and the digits after it in front of some characters: those digits, and the characters
after them. -/
def takeFraction : List Char → List Char × List Char
  | '.' :: rest => (rest.takeWhile Char.isDigit, rest.dropWhile Char.isDigit)
  | cs => ([], cs)

/-- The number nearest to the decimal that some characters spell, if they spell one. -/
def readDecimal (cs : List Char) : Option Binary64 :=
  let (negative, cs) := takeSign cs
  let whole := cs.takeWhile Char.isDigit
  let (fraction, rest) := takeFraction (cs.dropWhile Char.isDigit)
  if whole.isEmpty && fraction.isEmpty then none
  else (readExponent rest).map fun e ↦
    ofDecimal negative (natOfDigits (whole ++ fraction)) (e - fraction.length)

end Binary64

end Questionnaire
