import Questionnaire.Schema.Evaluate
import Questionnaire.Schema.Validator

/-!
# A validator

`Validator.standard` evaluates the schema of forms, and says of each error where it is and what is
wrong there. Texts of the document are shown between single quotes.
-/

namespace Questionnaire.Schema

/-! ### Quoting -/

/-- A text between single quotes. A backslash at its very end is shown once. -/
def quote (s : String) : String :=
  let shown := Text.quoteChars '\'' s.toList
  String.ofList ('\'' ::
    ((if s.toList.getLast? = some '\\' then shown.dropLast else shown) ++ ['\'']))

/-- Texts between single quotes, with commas between them. -/
def quoteAll (l : List String) : String :=
  ", ".intercalate (l.map quote)

/-! ### Numbers -/

/-- Digits with a comma before every group of three from the right. -/
def groupDigits : List Char → List Char
  | [] => []
  | c :: rest =>
    if rest.length % 3 = 0 ∧ rest ≠ [] then c :: ',' :: groupDigits rest
    else c :: groupDigits rest

/-- The raised form of a decimal digit. -/
def superscript (c : Char) : Char :=
  match c with
  | '0' => '⁰'
  | '1' => '¹'
  | '2' => '²'
  | '3' => '³'
  | '4' => '⁴'
  | '5' => '⁵'
  | '6' => '⁶'
  | '7' => '⁷'
  | '8' => '⁸'
  | '9' => '⁹'
  | c => c

/-- A power of ten, its exponent raised and of at least two digits. -/
def powerOfTen (exponent : Nat) : List Char :=
  let ds := Nat.toDigits 10 exponent
  '1' :: '0' :: (List.replicate (2 - ds.length) '0' ++ ds).map superscript

/-- The first digit past which a number is shown with a power of ten. -/
def maxGrouped : Int := 6

/-- A decimal of at least one: digits in groups, or a power of ten from a million on. -/
def magnitudeChars (d : DecimalDigits) : List Char :=
  if maxGrouped < d.point then
    d.leading ++ '\u202F' :: '×' :: '\u202F' :: powerOfTen (d.point - 1).toNat
  else groupDigits d.whole

/-- The number nearest to a numeral, in the fewest digits that read back. -/
def numberText (n : Json.Numeral) : String :=
  match n.toBinary64 with
  | .finite negative scale fraction =>
    Binary64.signText negative ++ String.ofList (magnitudeChars (Binary64.shortest scale fraction))
  | .infinite negative => Binary64.signText negative ++ "∞"
  | .nan => "NaN"

/-! ### Errors -/

/-- What is said of a broken keyword. -/
def ErrorKind.text : ErrorKind → String
  | schema | reference | allOf => "validation failed"
  | type got want => s!"got {got.text}, want {want.text}"
  | enum want => "value must be one of " ++ quoteAll want
  | const want => "value must be " ++ quote want
  | minimum got want => "minimum: got " ++ numberText got ++ ", want " ++ toString want
  | minLength got want => s!"minLength: got {got}, want {want}"
  | pattern got want => quote got ++ " does not match pattern " ++ quote want.text
  | required [name] => "missing property " ++ quote name
  | required names => "missing properties " ++ quoteAll names
  | additionalProperties names => "additional properties " ++ quoteAll names ++ " not allowed"

/-- A name or an index in a pointer, with the characters that have a meaning there escaped. -/
def escapeSegment (s : String) : String :=
  String.ofList (s.toList.flatMap fun c ↦
    match c with
    | '~' => ['~', '0']
    | '/' => ['~', '1']
    | c => [c])

/-- What is said of an error, with its place. -/
def ValidationError.message : ValidationError → String
  | mk location kind _ =>
    "at " ++ quote (pointerTo (location.map escapeSegment)) ++ ": " ++ kind.text

/-- The validator of form documents. -/
def Validator.standard : Validator where
  validate j :=
    match look j (.inPlace formSchema) [] with
    | [] => .valid
    | causes => .invalid (.mk [] .schema causes)
  text := ValidationError.message
  complaint _ := "invalid JSON"

end Questionnaire.Schema
