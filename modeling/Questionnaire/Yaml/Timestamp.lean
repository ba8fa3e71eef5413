import Questionnaire.Number.Reading

/-!
# Timestamps

A timestamp is a date, alone or with a time of day. The date and the time are parted by a letter, in
which case an offset from universal time has to follow, or by spaces, in which case none may.
Months, days, hours, minutes and seconds have one or two digits; of a fraction of a second nine
digits count.

A timestamp is written with two digits everywhere and without zeros at the end of the fraction.
-/

namespace Questionnaire.Yaml

/-- A point in time as it is written. -/
structure Timestamp where
  year : Nat
  month : Nat
  day : Nat
  hour : Nat := 0
  minute : Nat := 0
  second : Nat := 0
  nanosecond : Nat := 0
  /-- The minutes by which the time is ahead of universal time. -/
  offset : Int := 0
  deriving DecidableEq, Inhabited

namespace Timestamp

/-! ### The calendar -/

/-- Whether a year has a leap day. -/
def isLeap (year : Nat) : Bool :=
  year % 4 == 0 && (year % 100 != 0 || year % 400 == 0)

/-- The number of days of a month. -/
def daysIn (year month : Nat) : Nat :=
  match month with
  | 2 => if isLeap year then 29 else 28
  | 4 => 30
  | 6 => 30
  | 9 => 30
  | 11 => 30
  | _ => 31

/-! ### Reading -/

/-- A number of one or two digits that is at most `limit`, and what follows. -/
def takeNumber (limit : Nat) (cs : List Char) : Option (Nat × List Char) :=
  let ds := (cs.take 2).takeWhile Char.isDigit
  let n := natOfDigits ds
  if ds.isEmpty || decide (limit < n) then none else some (n, cs.drop ds.length)

/-- What follows a character. -/
def after? (c : Char) : List Char → Option (List Char)
  | d :: rest => if d == c then some rest else none
  | [] => none

/-- A year, a month and a day, and what follows. -/
def takeDate (cs : List Char) : Option (Timestamp × List Char) := do
  let digits := cs.takeWhile Char.isDigit
  if digits.length ≠ 4 then none
  else
    let rest ← after? '-' (cs.drop 4)
    let (month, rest) ← takeNumber 12 rest
    let rest ← after? '-' rest
    let (day, rest) ← takeNumber 99 rest
    pure ({ year := natOfDigits digits, month, day }, rest)

/-- The nanoseconds that the digits of a fraction stand for. -/
def nanosecondsOf (ds : List Char) : Nat :=
  let ds := ds.take 9
  natOfDigits ds * Nat.pow 10 (9 - ds.length)

/-- The fraction of a second behind a point or a comma, and what follows; zero when no digit is
there. -/
def takeFraction : List Char → Nat × List Char
  | c :: rest =>
    let ds := rest.takeWhile Char.isDigit
    if (c == '.' || c == ',') && !ds.isEmpty then (nanosecondsOf ds, rest.drop ds.length)
    else (0, c :: rest)
  | [] => (0, [])

/-- A date with the time of day that some characters start with, and what follows. -/
def takeTime (t : Timestamp) (cs : List Char) : Option (Timestamp × List Char) := do
  let (hour, rest) ← takeNumber 23 cs
  let rest ← after? ':' rest
  let (minute, rest) ← takeNumber 59 rest
  let rest ← after? ':' rest
  let (second, rest) ← takeNumber 59 rest
  let (nanosecond, rest) := takeFraction rest
  pure ({ t with hour, minute, second, nanosecond }, rest)

/-- A number of exactly two digits that is at most `limit`. -/
def pair? (limit : Nat) (a b : Char) : Option Nat :=
  if Char.isDigit a && Char.isDigit b then
    let n := natOfDigits [a, b]
    if n ≤ limit then some n else none
  else none

/-- The offset that takes up some characters, in minutes. -/
def offset? (cs : List Char) : Option Int :=
  match cs with
  | ['Z'] => some 0
  | [sign, h, i, ':', m, n] => do
    let hours ← pair? 24 h i
    let minutes ← pair? 60 m n
    let total : Int := hours * 60 + minutes
    if sign == '+' then some total else if sign == '-' then some (-total) else none
  | _ => none

/-- The time and the offset behind the letter of a date. -/
def withOffset? (t : Timestamp) (cs : List Char) : Option Timestamp := do
  let (t, rest) ← takeTime t cs
  let offset ← offset? rest
  pure { t with offset }

/-- The time behind the spaces of a date. -/
def withoutOffset? (t : Timestamp) (cs : List Char) : Option Timestamp := do
  let (t, rest) ← takeTime t cs
  if rest.isEmpty then some t else none

/-- Whether month and day are in the calendar. -/
def isDate (t : Timestamp) : Bool :=
  decide (1 ≤ t.month ∧ t.month ≤ 12 ∧ 1 ≤ t.day ∧ t.day ≤ daysIn t.year t.month)

/-- The timestamp that some characters spell, if they spell one. -/
def parse? (cs : List Char) : Option Timestamp := do
  let (date, rest) ← takeDate cs
  let t ←
    match rest with
    | [] => some date
    | 'T' :: rest => date.withOffset? rest
    | 't' :: rest => date.withOffset? rest
    | ' ' :: rest => date.withoutOffset? (rest.dropWhile (· == ' '))
    | _ => none
  if t.isDate then some t else none

/-! ### Writing -/

/-- A number in at least `width` digits. -/
def padded (width n : Nat) : List Char :=
  let ds := Nat.toDigits 10 n
  List.replicate (width - ds.length) '0' ++ ds

/-- A fraction of a second, without zeros at its end. -/
def fractionChars (nanosecond : Nat) : List Char :=
  if nanosecond = 0 then []
  else '.' :: ((padded 9 nanosecond).reverse.dropWhile (· == '0')).reverse

/-- An offset. -/
def offsetChars (offset : Int) : List Char :=
  if offset = 0 then ['Z']
  else
    (if offset < 0 then '-' else '+') ::
      (padded 2 (offset.natAbs / 60) ++ ':' :: padded 2 (offset.natAbs % 60))

/-- The text of a timestamp. -/
def text (t : Timestamp) : String :=
  String.ofList (padded 4 t.year ++ '-' :: padded 2 t.month ++ '-' :: padded 2 t.day ++
    'T' :: padded 2 t.hour ++ ':' :: padded 2 t.minute ++ ':' :: padded 2 t.second ++
    fractionChars t.nanosecond ++ offsetChars t.offset)

/-- Whether the offset is less than a day, so that the text is a valid one. -/
def isWritable (t : Timestamp) : Bool :=
  decide (t.offset.natAbs < 24 * 60)

end Timestamp

end Questionnaire.Yaml
