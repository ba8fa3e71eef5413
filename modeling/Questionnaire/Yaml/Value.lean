import Questionnaire.Yaml.Node
import Questionnaire.Yaml.Scalar.Meaning

/-!
# From nodes to values

A value is what a node stands for once aliases are followed and merges are carried out. The keys of
a mapping are texts, or the mapping is a general one, whose keys are scalars of any kind.

A mapping may not have the same key twice, and a collection may not be a key. The key `<<` merges
other mappings into a mapping: what it has itself stays, and of several mappings the earlier one
wins.

Every visit of a node is counted. A document in which nearly all visits come from following aliases
is refused, so that a short text cannot stand for an enormous value.
-/

namespace Questionnaire.Yaml

/-- A value. -/
inductive Value where
  | scalar (value : Scalar)
  | sequence (items : List Value)
  /-- A mapping whose keys are texts. -/
  | mapping (entries : List (String × Value))
  /-- A mapping with keys of other kinds. -/
  | general (entries : List (Scalar × Value))
  deriving Inhabited

/-! ### Tags and keys -/

/-- The tag of a scalar: the one it has, that of a text when it is quoted, that of a merge, or the
tag of what it looks like. -/
def scalarTagOf (tag : Option String) (plain : Bool) (text : String) : String :=
  match tag with
  | some t => t
  | none =>
    if !plain then "!!str"
    else if text == "<<" then "!!merge"
    else (Scalar.ofPlain true text).tag

/-- The meaning of a scalar node. -/
def scalarMeaning? (tag : Option String) (plain : Bool) (text : String) : Option Scalar :=
  Scalar.ofTagged? (scalarTagOf tag plain text) text

namespace Node

/-- Whether a node is the key of a merge. -/
def isMerge : Node → Bool
  | scalar tag plain text => text == "<<" && scalarTagOf tag plain text == "!!merge"
  | _ => false

/-- Whether a node, as a key, leaves a mapping one whose keys are texts. -/
def isTextKey : Node → Bool
  | scalar tag plain text =>
    let t := scalarTagOf tag plain text
    t == "!!str" || t == "!!merge"
  | reference _ (some (scalar tag plain text)) => scalarTagOf tag plain text == "!!str" ||
      scalarTagOf tag plain text == "!!merge"
  | _ => false

/-- Whether two keys are taken for the same. -/
def sameKey : Node → Node → Bool
  | scalar _ _ s, scalar _ _ t => s == t
  | reference s _, reference t _ => s == t
  | sequence _, sequence _ => true
  | mapping _, mapping _ => true
  | _, _ => false

/-- Whether a key occurs twice. -/
def hasRepeatedKey : List (Node × Node) → Bool
  | [] => false
  | (k, _) :: rest => rest.any (fun e ↦ k.sameKey e.1) || hasRepeatedKey rest

end Node

/-! ### Counting visits -/

/-- The visits of nodes so far, and those of them that followed an alias. -/
structure Visits where
  all : Nat := 0
  aliased : Nat := 0
  deriving DecidableEq, Inhabited

namespace Visits

/-- The number of visits up to which ninety-nine in a hundred may follow aliases. -/
def low : Nat := 400000

/-- The number of visits from which on ten in a hundred may. -/
def high : Nat := 4000000

/-- Whether too many of the visits follow aliases. Between the two limits the share that may do so
falls in a straight line. -/
def isExcessive (v : Visits) : Bool :=
  decide (100 < v.aliased) && decide (1000 < v.all) &&
    if v.all ≤ low then decide (99 * v.all < 100 * v.aliased)
    else if high ≤ v.all then decide (10 * v.all < 100 * v.aliased)
    else decide ((99 * (high - low) - 89 * (v.all - low)) * v.all <
      100 * (high - low) * v.aliased)

/-- The visits with one more, which follows an alias when `aliased` is set. -/
def next (v : Visits) (aliased : Bool) : Visits :=
  { all := v.all + 1, aliased := if aliased then v.aliased + 1 else v.aliased }

end Visits

/-- A computation that counts visits and may fail. -/
abbrev Visiting := StateT Visits Option

/-- Counts a visit. -/
def visit (aliased : Bool) : Visiting Unit := do
  let v := (← get).next aliased
  if v.isExcessive then failure
  set v

/-! ### Keys -/

/-- The key that a scalar is in a mapping whose keys are texts; null is none. -/
def textKey? (text : String) : Scalar → Option Scalar
  | .null => none
  | .bytes b => some (.text (String.ofList (Text.Utf8.decodeLossy b)))
  | _ => some (.text text)

/-- The key that a node is, as a text if all keys are to be texts. -/
def keyOf (asText aliased : Bool) : Node → Visiting (Option Scalar)
  | .scalar tag plain text => do
    visit aliased
    match scalarMeaning? tag plain text with
    | none => failure
    | some s => pure (if asText then textKey? text s else some s)
  | .reference _ (some target) => do
    visit aliased
    keyOf asText true target
  | _ => failure

/-! ### Mappings being filled -/

/-- A mapping while it is filled. -/
structure Draft where
  /-- Whether all keys are to be texts. -/
  textKeys : Bool
  entries : List (Scalar × Value) := []
  /-- Once a merge has begun, the keys that are merged no more. -/
  taken : Option (List Scalar) := none
  deriving Inhabited

namespace Draft

/-- A list of entries with one put in the place of another with the same key, or behind all. -/
def putEntry (key : Scalar) (v : Value) : List (Scalar × Value) → List (Scalar × Value)
  | [] => [(key, v)]
  | e :: rest => if e.1 = key then (key, v) :: rest else e :: putEntry key v rest

/-- A draft with one more entry. -/
def put (d : Draft) (key : Scalar) (v : Value) : Draft :=
  { d with entries := putEntry key v d.entries, taken := d.taken.map (key :: ·) }

/-- Whether an entry with a key is left out because a merge has met the key before. -/
def leavesOut (d : Draft) (key : Scalar) : Bool :=
  match d.taken with
  | some taken => taken.contains key
  | none => false

/-- A key of a draft as a text. -/
def keyText : Scalar → String
  | .text s => s
  | _ => ""

/-- The mapping that a draft has become. -/
def value (d : Draft) : Value :=
  if d.textKeys then .mapping (d.entries.map fun (k, v) ↦ (keyText k, v)) else .general d.entries

/-- A draft ready for a merge into the mapping with the given entries, whose own keys are taken. -/
def readyToMerge (d : Draft) (aliased : Bool) (entries : List (Node × Node)) : Visiting Draft := do
  if !entries.any fun e ↦ e.1.isMerge then pure d
  else match d.taken with
    | some _ => pure d
    | none =>
      let keys ← entries.mapM fun e ↦ keyOf false aliased e.1
      pure { d with taken := some (keys.filterMap fun k ↦ k) }

end Draft

/-! ### Values -/

mutual

/-- The value of a node; `aliased` tells whether it was reached through an alias. -/
def valueOf (aliased : Bool) : Node → Visiting Value
  | .scalar tag plain text => do
    visit aliased
    match scalarMeaning? tag plain text with
    | none => failure
    | some s => pure (.scalar s)
  | .sequence items => do
    visit aliased
    let values ← valuesOf aliased items
    pure (.sequence values)
  | .mapping entries => do
    visit aliased
    if Node.hasRepeatedKey entries then failure
    let d ← fillOwn aliased { textKeys := entries.all fun e ↦ e.1.isTextKey } entries
    let d ← d.readyToMerge aliased entries
    let d ← fillMerged aliased d entries
    pure d.value
  | .reference _ none => failure
  | .reference _ (some target) => do
    visit aliased
    valueOf true target

/-- The values of nodes. -/
def valuesOf (aliased : Bool) : List Node → Visiting (List Value)
  | [] => pure []
  | n :: rest => do
    let v ← valueOf aliased n
    let values ← valuesOf aliased rest
    pure (v :: values)

/-- A draft with an entry of a mapping, unless it is a merge or its key is taken. -/
def fillEntry (aliased : Bool) (d : Draft) : Node × Node → Visiting Draft
  | (k, n) => do
    if k.isMerge then pure d
    else match ← keyOf d.textKeys aliased k with
      | none => pure d
      | some key =>
        if d.leavesOut key then pure d
        else
          let v ← valueOf aliased n
          pure (d.put key v)

/-- A draft with the entries of a mapping that are not merges. -/
def fillOwn (aliased : Bool) (d : Draft) : List (Node × Node) → Visiting Draft
  | [] => pure d
  | e :: rest => do
    let d ← fillEntry aliased d e
    fillOwn aliased d rest

/-- A draft with what an entry merges into it, if it is a merge. -/
def mergeEntry (aliased : Bool) (d : Draft) : Node × Node → Visiting Draft
  | (k, n) => if k.isMerge then mergeNode aliased true d n else pure d

/-- A draft with what the entries of a mapping merge into it. -/
def fillMerged (aliased : Bool) (d : Draft) : List (Node × Node) → Visiting Draft
  | [] => pure d
  | e :: rest => do
    let d ← mergeEntry aliased d e
    fillMerged aliased d rest

/-- A draft with a mapping merged into it, or several in a sequence when `several` is set. -/
def mergeNode (aliased several : Bool) (d : Draft) : Node → Visiting Draft
  | .mapping entries => do
    visit aliased
    if Node.hasRepeatedKey entries then failure
    let d ← fillOwn aliased d entries
    let d ← d.readyToMerge aliased entries
    fillMerged aliased d entries
  | .reference _ (some target) => do
    visit aliased
    mergeNode true false d target
  | .sequence items => if several then mergeNodes aliased d items else failure
  | _ => failure

/-- A draft with several mappings merged into it. -/
def mergeNodes (aliased : Bool) (d : Draft) : List Node → Visiting Draft
  | [] => pure d
  | n :: rest => do
    let d ← mergeNode aliased false d n
    mergeNodes aliased d rest

end

/-- The value of a stream; a stream without a document is null. The document itself counts as a
visit. -/
def Stream.value? : Stream → Option Value
  | .empty => some (.scalar .null)
  | .document root => ((visit false *> valueOf false root).run {}).map Prod.fst

end Questionnaire.Yaml
