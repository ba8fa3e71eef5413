import Questionnaire.Json.Basic
import Questionnaire.Number.Layout
import Questionnaire.Text.Quoted

/-!
# Writing JSON

JSON is written compactly, without blanks, or indented by two spaces, one item or member to a line.
In strings the characters that markup gives a meaning (`<`, `>`, `&`) and the two Unicode line ends
are written as codes, like the control characters without a letter of their own.

A binary64 number is written in the fewest digits that read back: positionally from one millionth up
to, but not including, ten to the 21st, and with an exponent outside.
-/

namespace Questionnaire.Json

/-! ### Numbers -/

/-- The spelling of a decimal. -/
def Numeral.ofDecimalDigits (negative : Bool) (d : DecimalDigits) : Numeral :=
  if d.digits.isEmpty ∨ (-5 ≤ d.point ∧ d.point ≤ 21) then
    { negative, whole := d.whole, fraction := d.fraction }
  else
    let e := d.point - 1
    { negative
      whole := d.digits.take 1
      fraction := d.digits.drop 1
      exponent := some ⟨'e', some (if e < 0 then '-' else '+'), Nat.toDigits 10 e.natAbs⟩ }

/-- The spelling of a finite binary64 number. -/
def Numeral.ofBinary64? : Binary64 → Option Numeral
  | .finite negative scale fraction =>
    some (.ofDecimalDigits negative (Binary64.shortest scale fraction))
  | _ => none

/-! ### Strings -/

/-- A code of four hexadecimal digits. -/
def unicodeEscape (c : Char) : List Char :=
  '\\' :: 'u' :: Text.hexDigits 4 c.toNat

/-- How one character is written in a string. -/
def writeChar (c : Char) : List Char :=
  match c with
  | '"' => ['\\', '"']
  | '\\' => ['\\', '\\']
  | '\x08' => ['\\', 'b']
  | '\x0C' => ['\\', 'f']
  | '\n' => ['\\', 'n']
  | '\r' => ['\\', 'r']
  | '\t' => ['\\', 't']
  | c =>
    if c.toNat < 0x20 || c == '<' || c == '>' || c == '&' || c == '\u2028' ||
        c == '\u2029' then
      unicodeEscape c
    else [c]

/-- A string between its quotes. -/
def writeString (s : String) : List Char :=
  '"' :: (s.toList.flatMap writeChar ++ ['"'])

/-! ### Values -/

mutual

/-- A value without blanks. -/
def compactChars : Json → List Char
  | null => "null".toList
  | bool true => "true".toList
  | bool false => "false".toList
  | number n => n.chars
  | string s => writeString s
  | array items => '[' :: (compactItems items ++ [']'])
  | object members => '\x7b' :: (compactMembers members ++ ['\x7d'])

/-- Items with commas between them. -/
def compactItems : List Json → List Char
  | [] => []
  | [item] => compactChars item
  | item :: rest => compactChars item ++ ',' :: compactItems rest

/-- A member with a colon between its name and its value. -/
def compactMember : String × Json → List Char
  | (name, value) => writeString name ++ ':' :: compactChars value

/-- Members with commas between them. -/
def compactMembers : List (String × Json) → List Char
  | [] => []
  | [member] => compactMember member
  | member :: rest => compactMember member ++ ',' :: compactMembers rest

end

/-- A new line, indented to a depth. -/
def newLine (depth : Nat) : List Char :=
  '\n' :: List.replicate (2 * depth) ' '

mutual

/-- A value that starts at a depth of nesting, one item or member to a line. -/
def indentedChars (depth : Nat) : Json → List Char
  | array (item :: rest) =>
    '[' :: (newLine (depth + 1) ++ indentedItems (depth + 1) (item :: rest) ++
      newLine depth ++ [']'])
  | object (member :: rest) =>
    '\x7b' :: (newLine (depth + 1) ++ indentedMembers (depth + 1) (member :: rest) ++
      newLine depth ++ ['\x7d'])
  | array [] => ['[', ']']
  | object [] => ['\x7b', '\x7d']
  | null => "null".toList
  | bool true => "true".toList
  | bool false => "false".toList
  | number n => n.chars
  | string s => writeString s

/-- Items with a comma and a new line between them. -/
def indentedItems (depth : Nat) : List Json → List Char
  | [] => []
  | [item] => indentedChars depth item
  | item :: rest => indentedChars depth item ++ ',' :: (newLine depth ++ indentedItems depth rest)

/-- A member with a colon and a space between its name and its value. -/
def indentedMember (depth : Nat) : String × Json → List Char
  | (name, value) => writeString name ++ ':' :: ' ' :: indentedChars depth value

/-- Members with a comma and a new line between them. -/
def indentedMembers (depth : Nat) : List (String × Json) → List Char
  | [] => []
  | [member] => indentedMember depth member
  | member :: rest =>
    indentedMember depth member ++ ',' :: (newLine depth ++ indentedMembers depth rest)

end

/-! ### Members in order -/

/-- The members that count: of those with the same name the last. -/
def lastMembers {α : Type} : List (String × α) → List (String × α)
  | [] => []
  | m :: rest => if hasMember m.1 rest then lastMembers rest else m :: lastMembers rest

/-- A member put in front of the first one whose name is not less than its own. -/
def insertMember {α : Type} (m : String × α) : List (String × α) → List (String × α)
  | [] => [m]
  | k :: rest => if k.1 < m.1 then k :: insertMember m rest else m :: k :: rest

/-- Members in the order of their names. -/
def sortMembers {α : Type} (members : List (String × α)) : List (String × α) :=
  members.foldr insertMember []

mutual

/-- A value with the members of every object in the order of their names, each name once. -/
def ordered : Json → Json
  | array items => array (orderedItems items)
  | object members => object (sortMembers (lastMembers (orderedMembers members)))
  | j => j

/-- Items with the members of every object in order. -/
def orderedItems : List Json → List Json
  | [] => []
  | j :: rest => ordered j :: orderedItems rest

/-- A member with the members of every object in order. -/
def orderedMember : String × Json → String × Json
  | (name, j) => (name, ordered j)

/-- Members with the members of every object in order. -/
def orderedMembers : List (String × Json) → List (String × Json)
  | [] => []
  | m :: rest => orderedMember m :: orderedMembers rest

end

mutual

/-- Whether all numbers of a value are spelled as numbers. -/
def isWritable : Json → Bool
  | number n => n.isValid
  | array items => areWritable items
  | object members => haveWritable members
  | _ => true

/-- Whether all numbers of some items are spelled as numbers. -/
def areWritable : List Json → Bool
  | [] => true
  | j :: rest => isWritable j && areWritable rest

/-- Whether all numbers of a member are spelled as numbers. -/
def hasWritable : String × Json → Bool
  | (_, j) => isWritable j

/-- Whether all numbers of some members are spelled as numbers. -/
def haveWritable : List (String × Json) → Bool
  | [] => true
  | m :: rest => hasWritable m && haveWritable rest

end

/-- A value written without blanks, its members in order, if it can be written. -/
def write? (j : Json) : Option (List Char) :=
  if j.isWritable then some (compactChars j.ordered) else none

/-- The text of a value without blanks. -/
def compact (j : Json) : String :=
  String.ofList (compactChars j)

/-- The text of a value, one item or member to a line. -/
def indented (j : Json) : String :=
  String.ofList (indentedChars 0 j)

end Questionnaire.Json
