import Questionnaire.Number.Integer
import Questionnaire.Text.Utf8
import Questionnaire.Yaml.Timestamp

/-!
# What scalars mean

A plain scalar without a tag is what it looks like: null, a truth value, an integer, a decimal, a
timestamp, or else a text. A tag of one of these types has to fit what the scalar looks like;
integers also pass for decimals. The tag for text makes everything a text, the tag for bytes asks
for base64, and a tag that is not known means a text.
-/

namespace Questionnaire.Yaml

/-- The meaning of a scalar. -/
inductive Scalar where
  | null
  | bool (value : Bool)
  | int (value : Int)
  | float (value : Binary64)
  | text (value : String)
  | bytes (value : List UInt8)
  | timestamp (value : Timestamp)
  deriving DecidableEq, Inhabited

namespace Scalar

/-- The tag of a meaning. -/
def tag : Scalar → String
  | null => "!!null"
  | bool _ => "!!bool"
  | int _ => "!!int"
  | float _ => "!!float"
  | text _ => "!!str"
  | bytes _ => "!!binary"
  | timestamp _ => "!!timestamp"

/-! ### Words -/

/-- The meanings of words. -/
def words : List (String × Scalar) :=
  [("true", bool true), ("True", bool true), ("TRUE", bool true),
    ("false", bool false), ("False", bool false), ("FALSE", bool false),
    ("", null), ("~", null), ("null", null), ("Null", null), ("NULL", null),
    (".nan", float .nan), (".NaN", float .nan), (".NAN", float .nan),
    (".inf", float (.infinite false)), (".Inf", float (.infinite false)),
    (".INF", float (.infinite false)), ("+.inf", float (.infinite false)),
    ("+.Inf", float (.infinite false)), ("+.INF", float (.infinite false)),
    ("-.inf", float (.infinite true)), ("-.Inf", float (.infinite true)),
    ("-.INF", float (.infinite true))]

/-! ### Integers -/

/-- An integer that fits 64 bits: with a sign those of signed words, without one those of unsigned
words too. -/
def inRange? (sign : Option Bool) (n : Nat) : Option Int :=
  match sign with
  | some true => if n ≤ 0x8000000000000000 then some (-(n : Int)) else none
  | some false => if n < 0x8000000000000000 then some n else none
  | none => if n < 0x10000000000000000 then some n else none

/-- The integer that digits of a base with a sign stand for. -/
def intInBase? (base : Nat) (cs : List Char) : Option Int :=
  let (sign, ds) := Integer.takeSign? cs
  (Integer.readNatural base ds).toOption.bind (inRange? sign)

/-- The integer that some characters spell, in the base they tell. -/
def intOfChars? (cs : List Char) : Option Int :=
  let (sign, rest) := Integer.takeSign? cs
  let (base, _, ds) := Integer.takeBase rest
  (Integer.readNatural base ds).toOption.bind (inRange? sign)

/-- The integer spelled with the mark of a base and, behind it, a sign. -/
def signedInBase? (cs : List Char) : Option Int :=
  match cs with
  | '0' :: 'b' :: rest => intInBase? 2 rest
  | '0' :: 'o' :: rest => intInBase? 8 rest
  | '-' :: '0' :: 'b' :: rest => intInBase? 2 ('-' :: rest)
  | '-' :: '0' :: 'o' :: rest => intInBase? 8 ('-' :: rest)
  | _ => none

/-! ### Decimals -/

/-- The decimal that some characters spell, if it is within range. -/
def floatOfChars? (cs : List Char) : Option Binary64 :=
  (Binary64.readDecimal cs).bind fun x ↦ if x.isFinite then some x else none

/-- Some characters without underscores. -/
def withoutUnderscores (cs : List Char) : List Char :=
  cs.filter (· != '_')

/-! ### Plain scalars -/

/-- What digits and signs can mean. -/
def numberOrTime (stamps : Bool) (s : String) : Scalar :=
  let cs := s.toList
  let plain := withoutUnderscores cs
  match if stamps then Timestamp.parse? cs else none with
  | some t => timestamp t
  | none =>
    match intOfChars? plain with
    | some n => int n
    | none =>
      match floatOfChars? plain with
      | some x => float x
      | none =>
        match signedInBase? plain with
        | some n => int n
        | none => text s

/-- What a plain scalar looks like; `stamps` tells whether it may be a timestamp. -/
def ofPlain (stamps : Bool) (s : String) : Scalar :=
  match words.lookup s with
  | some meaning => meaning
  | none =>
    match s.toList with
    | [] => text s
    | c :: rest =>
      if c == '+' || c == '-' || Char.isDigit c then numberOrTime stamps s
      else if c == '.' && Binary64.separatorsFit Char.isDigit false rest then
        match floatOfChars? (withoutUnderscores (c :: rest)) with
        | some x => float x
        | none => text s
      else text s

/-! ### Base64 -/

/-- The six bits of a base64 digit. -/
def sextet? (c : Char) : Option Nat :=
  if 'A' ≤ c ∧ c ≤ 'Z' then some (c.toNat - 65)
  else if 'a' ≤ c ∧ c ≤ 'z' then some (c.toNat - 71)
  else if '0' ≤ c ∧ c ≤ '9' then some (c.toNat + 4)
  else if c = '+' then some 62
  else if c = '/' then some 63
  else none

/-- The bytes of base64 digits in groups of four, the last of which may be filled up. -/
def base64Bytes? : List Char → Option (List UInt8)
  | [] => some []
  | [a, b, '=', '='] => do
    let x ← sextet? a
    let y ← sextet? b
    pure [((x * 64 + y) / 16).toUInt8]
  | [a, b, c, '='] => do
    let x ← sextet? a
    let y ← sextet? b
    let z ← sextet? c
    let n := (x * 64 + y) * 64 + z
    pure [(n / 1024).toUInt8, (n / 4 % 256).toUInt8]
  | a :: b :: c :: d :: rest => do
    let x ← sextet? a
    let y ← sextet? b
    let z ← sextet? c
    let w ← sextet? d
    let n := ((x * 64 + y) * 64 + z) * 64 + w
    let bytes ← base64Bytes? rest
    pure ((n / 65536).toUInt8 :: (n / 256 % 256).toUInt8 :: (n % 256).toUInt8 :: bytes)
  | _ => none

/-- The bytes that a text in base64 stands for; line ends in it do not count. -/
def bytesOfText? (s : String) : Option (List UInt8) :=
  base64Bytes? (s.toList.filter fun c ↦ c != '\n' && c != '\r')

/-! ### Tags -/

/-- The binary64 number nearest to an integer. -/
def floatOfInt (n : Int) : Binary64 :=
  Binary64.ofRatio (decide (n < 0)) n.natAbs 1

/-- A meaning, if it fits a tag. An integer that fits a signed word passes for a decimal. -/
def fit? (tag : String) (meaning : Scalar) : Option Scalar :=
  if meaning.tag == tag then some meaning
  else match meaning with
    | int n =>
      if tag == "!!float" && decide (n < 0x8000000000000000) then some (float (floatOfInt n))
      else none
    | _ => none

/-- The meaning of a scalar with a tag; none when they do not fit. -/
def ofTagged? (tag : String) (s : String) : Option Scalar :=
  match tag with
  | "!!null" => fit? tag (ofPlain false s)
  | "!!bool" => fit? tag (ofPlain false s)
  | "!!int" => fit? tag (ofPlain false s)
  | "!!float" => fit? tag (ofPlain false s)
  | "!!timestamp" => fit? tag (ofPlain true s)
  | "!!binary" => (bytesOfText? s).map bytes
  | _ => some (text s)

end Scalar

end Questionnaire.Yaml
