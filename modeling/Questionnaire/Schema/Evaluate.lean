import Questionnaire.Json.Write
import Questionnaire.Schema.Documents
import Questionnaire.Schema.ValidationError

/-!
# Evaluating schemas

`Schema.look` goes through a value by a schema and gives everything that is wrong, keyword by
keyword. A value that is of the wrong type, or not among those listed, is looked at no further. Of
members with the same name only the last counts.

What is asked in place, by `allOf` and `ifThen`, is asked of the same value, and the schemas of
members and items go to its parts. So the schemas are gone through for one value at a time
(`Schema.causes`), with the ways to look at its parts at hand (`View`).
-/

namespace Questionnaire.Schema

/-! ### Single keywords -/

/-- What is wrong with a value by a keyword that ends the evaluation when it is broken. -/
def Keyword.halt? (j : Json) : Keyword → Option ErrorKind
  | .type wanted => if wanted.admits j then none else some (.type (.ofJson j) wanted)
  | .enum words =>
    match j with
    | .string s => if s ∈ words then none else some (.enum words)
    | _ => some (.enum words)
  | .const word =>
    match j with
    | .string s => if s = word then none else some (.const word)
    | _ => some (.const word)
  | _ => none

/-- Whether a keyword is about the member with a name. -/
def Keyword.covers (name : String) : Keyword → Bool
  | .properties schemas => Json.hasMember name schemas
  | .patternProperties p => p.admits name
  | _ => false

/-- The error of an object that lacks members. -/
def missing? (names : List String) (members : List (String × Json)) : Option ErrorKind :=
  match names.filter fun n ↦ !Json.hasMember n members with
  | [] => none
  | lacking => some (.required lacking)

/-- The error of an object that has members that none of some keywords is about. Each of their names
is given once. -/
def additional? (keywords : List Keyword) (members : List (String × Json)) : Option ErrorKind :=
  match ((Json.lastMembers members).map Prod.fst).filter fun n ↦
    !keywords.any (Keyword.covers n) with
  | [] => none
  | names => some (.additionalProperties names)

/-- What is wrong with a value itself by a keyword that stands among others. -/
def Keyword.own? (keywords : List Keyword) : Keyword → Json → Option ErrorKind
  | .minimumZero, .number n => if n.isNegative then some (.minimum n 0) else none
  | .minLength least, .string s =>
    if s.length < least then some (.minLength s.length least) else none
  | .pattern p, .string s => if p.admits s then none else some (.pattern s p)
  | .required names, .object members => missing? names members
  | .noAdditionalProperties, .object members => additional? keywords members
  | _, _ => none

/-! ### Values -/

/-- A way to look at a value: by a schema, from where it is. -/
abbrev Look := Subschema → List String → List ValidationError

/-- A value with the ways to look at its parts. -/
structure View where
  value : Json
  members : List (String × Look) := []
  items : List Look := []

mutual

/-- What is wrong with a value by a schema. -/
def causes (v : View) (location : List String) : Schema → List ValidationError
  | .mk keywords =>
    match keywords.findSome? (Keyword.halt? v.value) with
    | some kind => [.leaf location kind]
    | none => causesEach v location keywords keywords

/-- What is wrong with a value by keywords that stand among others. -/
def causesEach (v : View) (location : List String) (all : List Keyword) :
    List Keyword → List ValidationError
  | [] => []
  | k :: rest => causesOf v location all k ++ causesEach v location all rest

/-- What is wrong with a value by a keyword that stands among others. -/
def causesOf (v : View) (location : List String) (all : List Keyword) :
    Keyword → List ValidationError
  | .properties schemas =>
    schemas.flatMap fun (name, schema) ↦
      match Json.member? name v.members with
      | some look => look schema (location ++ [name])
      | none => []
  | .items schema =>
    v.items.zipIdx.flatMap fun (look, i) ↦ look schema (location ++ [toString i])
  | .allOf schemas => ValidationError.gather location .allOf (causesAll v location schemas)
  | .ifThen test consequence =>
    if (causes v location test).isEmpty then causes v location consequence else []
  | k => ((k.own? all v.value).map (.leaf location)).toList

/-- What is wrong with a value by any of some schemas. -/
def causesAll (v : View) (location : List String) : List Schema → List ValidationError
  | [] => []
  | s :: rest => causes v location s ++ causesAll v location rest

end

/-- What is wrong with a value by the schema of a member or of an item. -/
def Subschema.causes (v : View) (location : List String) : Subschema → List ValidationError
  | .inPlace schema => schema.causes v location
  | .ref target => ValidationError.gather location .reference (target.schema.causes v location)

mutual

/-- What is wrong with a value. -/
def look : Json → Look
  | .array items => fun s location ↦
    s.causes { value := .array items, items := lookItems items } location
  | .object members => fun s location ↦
    s.causes { value := .object members, members := lookMembers members } location
  | j => fun s location ↦ s.causes { value := j } location

/-- The ways to look at some items. -/
def lookItems : List Json → List Look
  | [] => []
  | j :: rest => look j :: lookItems rest

/-- The way to look at a member. -/
def lookMember : String × Json → String × Look
  | (name, j) => (name, look j)

/-- The ways to look at some members. -/
def lookMembers : List (String × Json) → List (String × Look)
  | [] => []
  | m :: rest => lookMember m :: lookMembers rest

end

end Questionnaire.Schema
