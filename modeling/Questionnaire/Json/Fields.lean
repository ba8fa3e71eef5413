import Questionnaire.Json.Basic

/-!
# Reading records from JSON

A record is read from an object member by member, each over what the record held before, so that a
member that is repeated is read over its earlier value. Names of members match whatever their case.
A null leaves a plain value as it was. A value of another kind than the record has there is a
mismatch; the first one in the document is reported.
-/

namespace Questionnaire.Json

/-- A value of a kind that does not fit its place. -/
structure Mismatch where
  /-- The value, as it is named in messages. -/
  found : String
  /-- The type of the values that fit. -/
  wanted : String
  /-- The innermost record that the place is in. -/
  record : String := ""
  /-- The names of the fields that lead to the place, from the outermost record on. -/
  path : List String := []
  deriving DecidableEq, Inhabited

namespace Mismatch

/-- The mismatch as one with another type. -/
def wanting (wanted : String) (m : Mismatch) : Mismatch :=
  { m with wanted }

/-- The mismatch as one in a field of a record. -/
def inField (record name : String) (m : Mismatch) : Mismatch :=
  { m with record := if m.path.isEmpty then record else m.record, path := name :: m.path }

/-- What is said of a mismatch. -/
def message (m : Mismatch) : String :=
  let place :=
    if m.path.isEmpty then "value"
    else "struct field " ++ m.record ++ "." ++ ".".intercalate m.path
  s!"json: cannot unmarshal {m.found} into Go {place} of type {m.wanted}"

end Mismatch

/-- The mismatch that a value is where another kind is wanted. -/
def mismatch (wanted : String) : Json → Mismatch
  | null => ⟨"null", wanted, "", []⟩
  | bool _ => ⟨"bool", wanted, "", []⟩
  | number _ => ⟨"number", wanted, "", []⟩
  | string _ => ⟨"string", wanted, "", []⟩
  | array _ => ⟨"array", wanted, "", []⟩
  | object _ => ⟨"object", wanted, "", []⟩

/-- The mismatch that a number is where its value does not fit, with its spelling. -/
def numberMismatch (wanted : String) (n : Numeral) : Mismatch :=
  ⟨"number " ++ n.text, wanted, "", []⟩

/-! ### Names of members -/

/-- A character without its case. Besides the ASCII letters, the long s and the Kelvin sign are
cases of ASCII letters. -/
def foldChar (c : Char) : Char :=
  if c == '\u017F' then 's' else if c == '\u212A' then 'k' else c.toLower

/-- A name without its case. -/
def foldName (s : String) : String :=
  String.ofList (s.toList.map foldChar)

/-- The field whose name is the member's, whatever the case of either. -/
def field? {α : Type} (fields : List (String × α)) (name : String) : Option α :=
  (fields.find? fun f ↦ foldName f.1 == foldName name).map Prod.snd

/-- The name that a table has for a member. -/
def fieldName {α : Type} (fields : List (String × α)) (name : String) : String :=
  ((fields.find? fun f ↦ foldName f.1 == foldName name).map Prod.fst).getD name

/-- A member of a record with some fields; a mismatch in it is one in its field. -/
def readIn {D F : Type} (record : String) (fields : List (String × F))
    (read : D → String × Json → Except Mismatch D) (d : D) (member : String × Json) :
    Except Mismatch D :=
  (read d member).mapError (Mismatch.inField record (fieldName fields member.1))

/-! ### Plain values -/

/-- A text, over an earlier one. -/
def readText (old : String) : Json → Except Mismatch String
  | null => .ok old
  | string s => .ok s
  | j => .error (j.mismatch "string")

/-- A truth value, over an earlier one. -/
def readBool (old : Bool) : Json → Except Mismatch Bool
  | null => .ok old
  | bool b => .ok b
  | j => .error (j.mismatch "bool")

/-- An integer of 64 bits, over an earlier one. It has to be spelled without point and exponent. -/
def readInt64 (old : Int64) : Json → Except Mismatch Int64
  | null => .ok old
  | number n =>
    match n.toInt64? with
    | some i => .ok i
    | none => .error (numberMismatch "int" n)
  | j => .error (j.mismatch "int")

/-- A binary64 number, over an earlier one. It has to be finite. -/
def readBinary64 (old : Binary64) : Json → Except Mismatch Binary64
  | null => .ok old
  | number n =>
    if n.toBinary64.isFinite then .ok n.toBinary64 else .error (numberMismatch "float64" n)
  | j => .error (j.mismatch "float64")

/-! ### Lists -/

/-- A list that is read from an array over an earlier list: item by item over the earlier items.
What a longer earlier list held behind the new end is kept in `spare`, for a still later one to be
read over. -/
structure Overlaid (α : Type) where
  items : List α := []
  spare : List α := []
  deriving DecidableEq, Inhabited

/-- The items of an array, each over the one in its place, or over `fresh` when there is none. -/
def readItemsOver {α : Type} (fresh : α) (read : α → Json → Except Mismatch α) :
    List α → List Json → Except Mismatch (List α)
  | _, [] => .ok []
  | old, j :: rest => do
    let item ← read (old.headD fresh) j
    let items ← readItemsOver fresh read old.tail rest
    pure (item :: items)

/-- What is left of earlier items once as many as an array has are read over them; an empty array
starts afresh. -/
def spareAfter {α : Type} (old : List α) (count : Nat) : List α :=
  if count = 0 then [] else old.drop count

/-- A list, over an earlier one; null is the list without items. -/
def readList {α : Type} (wanted : String) (fresh : α) (read : α → Json → Except Mismatch α)
    (old : Overlaid α) : Json → Except Mismatch (Overlaid α)
  | null => .ok {}
  | array js => do
    let earlier := old.items ++ old.spare
    let items ← readItemsOver fresh read earlier js
    pure { items, spare := spareAfter earlier js.length }
  | j => .error (j.mismatch wanted)

end Questionnaire.Json
