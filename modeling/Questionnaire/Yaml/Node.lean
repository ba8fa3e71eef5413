import Questionnaire.Yaml.TokenStream

/-!
# From tokens to nodes

A document is one node: a scalar, a sequence, a mapping, or an alias. An alias holds the node that
its anchor stands before, or nothing when it lies inside that node itself.

Only the first document of a stream is read. The grammar is that of the tokens: every construct is
known by its first token, so a reader looks one token ahead. Readers call each other within a number
of steps that no list of tokens can use up.
-/

namespace Questionnaire.Yaml

/-- A node of a document. A scalar has its tag in short form, if it has one. An alias is a
reference. -/
inductive Node where
  | scalar (tag : Option String) (plain : Bool) (text : String)
  | sequence (items : List Node)
  | mapping (entries : List (Node × Node))
  | reference (name : String) (target : Option Node)
  deriving Inhabited

namespace Node

/-- The node where none is written. -/
def empty : Node :=
  scalar none true ""

end Node

/-! ### Tags -/

/-- What the handle of the tags of YAML's own types stands for. -/
def coreTags : String := "tag:yaml.org,2002:"

/-- The handles that every document has. -/
def defaultHandles : List (String × String) :=
  [("!", "!"), ("!!", coreTags)]

/-- A tag with the handle of YAML's own types in place of what it stands for. -/
def shortTag (tag : String) : String :=
  if tag.startsWith coreTags then "!!" ++ (tag.drop coreTags.length).toString else tag

/-- The tag that a handle and a suffix stand for; none when the handle is not known. -/
def fullTag? (handles : List (String × String)) (handle suffix : String) : Option String :=
  if handle.isEmpty then some suffix
  else match handles.lookup handle with
    | some meaning => if (meaning ++ suffix).isEmpty then none else some (meaning ++ suffix)
    | none => none

/-! ### Readers -/

/-- An anchor with its number and, once it has been read, its node. -/
structure Anchored where
  name : String
  number : Nat
  node : Option Node := none
  deriving Inhabited

/-- The tokens that are left and the anchors met so far, the last one first. -/
structure ReaderState where
  tokens : List Token
  anchors : List Anchored := []
  deriving Inhabited

/-- A reader of tokens. -/
abbrev Reader := StateT ReaderState Option

namespace Reader

/-- The next token. -/
def peek : Reader Token := do
  match (← get).tokens with
  | [] => failure
  | t :: _ => pure t

/-- Passes over the next token. -/
def skip : Reader Unit :=
  modify fun s ↦ { s with tokens := s.tokens.tail }

/-- Notes an anchor, if there is one, and gives its number. -/
def openAnchor (name : Option String) : Reader Nat := do
  let anchors := (← get).anchors
  match name with
  | none => pure 0
  | some name =>
    let number := anchors.length + 1
    modify fun s ↦ { s with anchors := { name, number } :: anchors }
    pure number

/-- Notes the node of an anchor by its number; zero is the number of no anchor. -/
def closeAnchor (number : Nat) (node : Node) : Reader Node := do
  if number ≠ 0 then
    modify fun s ↦
      { s with
        anchors := s.anchors.map fun a ↦
          if a.number = number then { a with node := some node } else a }
  pure node

/-- The alias for a name, which has to be that of an anchor. -/
def aliasNode (name : String) : Reader Node := do
  match (← get).anchors.find? fun a ↦ a.name == name with
  | none => failure
  | some a => pure (.reference name a.node)

/-- The tag of a node, from its token. -/
def resolveTag (handles : List (String × String)) (handle suffix : String) : Reader String :=
  match fullTag? handles handle suffix with
  | some tag => pure tag
  | none => failure

/-- The anchor and the tag before a node, in either order. -/
def properties (handles : List (String × String)) : Reader (Option String × Option String) := do
  match ← peek with
  | .anchor name =>
    skip
    match ← peek with
    | .tag handle suffix =>
      skip
      let tag ← resolveTag handles handle suffix
      pure (some name, some tag)
    | _ => pure (some name, none)
  | .tag handle suffix =>
    skip
    let name ← do
      match ← peek with
      | .anchor name => skip; pure (some name)
      | _ => pure none
    let tag ← resolveTag handles handle suffix
    pure (name, some tag)
  | _ => pure (none, none)

/-- The tag that a scalar keeps: the mark alone says nothing. -/
def scalarTag (tag : Option String) : Option String :=
  match tag with
  | none => none
  | some "!" => none
  | some tag => some (shortTag tag)

/-- Whether no node stands before a token in a block mapping. -/
def endsBlockPart : Token → Bool
  | .key | .value | .blockEnd => true
  | _ => false

mutual

/-- A node. Block collections are admitted when `block` is set, and a sequence that is not indented
when `indentless` is. -/
def node (handles : List (String × String)) : Nat → Bool → Bool → Reader Node
  | 0, _, _ => failure
  | steps + 1, block, indentless => do
    match ← peek with
    | .reference name =>
      skip
      aliasNode name
    | _ =>
      let (anchor, tag) ← properties handles
      let number ← openAnchor anchor
      let node ← do
        match ← peek with
        | .scalar plain text =>
          skip
          pure (.scalar (scalarTag tag) plain text)
        | .flowSequenceStart =>
          skip
          let items ← flowItems handles steps true
          pure (.sequence items)
        | .flowMappingStart =>
          skip
          let entries ← flowEntries handles steps true
          pure (.mapping entries)
        | t =>
          if indentless && t == .blockEntry then
            let items ← indentlessItems handles steps
            pure (.sequence items)
          else if block && t == .blockSequenceStart then
            skip
            let items ← blockItems handles steps
            pure (.sequence items)
          else if block && t == .blockMappingStart then
            skip
            let entries ← blockEntries handles steps
            pure (.mapping entries)
          else if anchor.isSome || tag.isSome then
            pure (.scalar (scalarTag tag) true "")
          else failure
      closeAnchor number node

/-- The items of a block sequence. -/
def blockItems (handles : List (String × String)) : Nat → Reader (List Node)
  | 0 => failure
  | steps + 1 => do
    match ← peek with
    | .blockEntry =>
      skip
      let item ← do
        match ← peek with
        | .blockEntry | .blockEnd => pure Node.empty
        | _ => node handles steps true false
      let items ← blockItems handles steps
      pure (item :: items)
    | .blockEnd =>
      skip
      pure []
    | _ => failure

/-- The items of a sequence that is indented no further than the mapping around it. -/
def indentlessItems (handles : List (String × String)) : Nat → Reader (List Node)
  | 0 => failure
  | steps + 1 => do
    match ← peek with
    | .blockEntry =>
      skip
      let t ← peek
      let item ←
        if t == .blockEntry || endsBlockPart t then pure Node.empty
        else node handles steps true false
      let items ← indentlessItems handles steps
      pure (item :: items)
    | _ => pure []

/-- The entries of a block mapping. -/
def blockEntries (handles : List (String × String)) : Nat → Reader (List (Node × Node))
  | 0 => failure
  | steps + 1 => do
    match ← peek with
    | .key =>
      skip
      let key ←
        if endsBlockPart (← peek) then pure Node.empty else node handles steps true true
      let value ← do
        match ← peek with
        | .value =>
          skip
          if endsBlockPart (← peek) then pure Node.empty else node handles steps true true
        | _ => pure Node.empty
      let entries ← blockEntries handles steps
      pure ((key, value) :: entries)
    | .blockEnd =>
      skip
      pure []
    | _ => failure

/-- The items of a flow sequence; before all but the first stands a comma. An item with a key is a
mapping of one entry. -/
def flowItems (handles : List (String × String)) : Nat → Bool → Reader (List Node)
  | 0, _ => failure
  | steps + 1, first => do
    if (← peek) == .flowSequenceEnd then
      skip
      pure []
    else
      if !first then
        if (← peek) == .flowEntry then skip else failure
      match ← peek with
      | .flowSequenceEnd =>
        skip
        pure []
      | .key =>
        skip
        let entry ← pairInSequence handles steps
        let items ← flowItems handles steps false
        pure (.mapping [entry] :: items)
      | _ =>
        let item ← node handles steps false false
        let items ← flowItems handles steps false
        pure (item :: items)

/-- The single entry of a mapping that is an item of a flow sequence. Where the key is missing the
next token is passed over. -/
def pairInSequence (handles : List (String × String)) : Nat → Reader (Node × Node)
  | 0 => failure
  | steps + 1 => do
    let key ← do
      match ← peek with
      | .value | .flowEntry | .flowSequenceEnd =>
        skip
        pure Node.empty
      | _ => node handles steps false false
    let value ← do
      match ← peek with
      | .value =>
        skip
        match ← peek with
        | .flowEntry | .flowSequenceEnd => pure Node.empty
        | _ => node handles steps false false
      | _ => pure Node.empty
    pure (key, value)

/-- The entries of a flow mapping; before all but the first stands a comma. A node without a key's
mark is a key without a value. -/
def flowEntries (handles : List (String × String)) : Nat → Bool → Reader (List (Node × Node))
  | 0, _ => failure
  | steps + 1, first => do
    if (← peek) == .flowMappingEnd then
      skip
      pure []
    else
      if !first then
        if (← peek) == .flowEntry then skip else failure
      match ← peek with
      | .flowMappingEnd =>
        skip
        pure []
      | .key =>
        skip
        let key ← do
          match ← peek with
          | .value | .flowEntry | .flowMappingEnd => pure Node.empty
          | _ => node handles steps false false
        let value ← do
          match ← peek with
          | .value =>
            skip
            match ← peek with
            | .flowEntry | .flowMappingEnd => pure Node.empty
            | _ => node handles steps false false
          | _ => pure Node.empty
        let entries ← flowEntries handles steps false
        pure ((key, value) :: entries)
      | _ =>
        let key ← node handles steps false false
        let entries ← flowEntries handles steps false
        pure ((key, Node.empty) :: entries)

end

/-! ### Documents -/

/-- The directives before a document: at most one version, which has to be 1.1, and the meanings of
handles, each given once. -/
def directives (version : Bool) (handles : List (String × String)) :
    Nat → Reader (List (String × String))
  | 0 => failure
  | steps + 1 => do
    match ← peek with
    | .version major minor =>
      if version || major ≠ 1 || minor ≠ 1 then failure
      else
        skip
        directives true handles steps
    | .handle name meaning =>
      if (handles.lookup name).isSome then failure
      else
        skip
        directives version (handles ++ [(name, meaning)]) steps
    | _ => pure (handles ++ defaultHandles)

/-- The first document; none when the stream has no document. -/
def document (steps : Nat) : Reader (Option Node) := do
  skip
  match ← peek with
  | .streamEnd => pure none
  | .version .. | .handle .. | .documentStart =>
    let handles ← directives false [] steps
    if (← peek) != .documentStart then failure
    skip
    match ← peek with
    | .version .. | .handle .. | .documentStart | .documentEnd | .streamEnd =>
      pure (some Node.empty)
    | _ => some <$> node handles steps true false
  | _ => some <$> node defaultHandles steps true false

end Reader

/-- What a stream holds: no document at all, or a first one. -/
inductive Stream where
  | empty
  | document (root : Node)
  deriving Inhabited

/-- The first document of a stream; none when the text is wrong up to its end. The token behind the
document is still needed to know that it is over. -/
def readStream (stream : TokenStream) : Option Stream :=
  let steps := 3 * stream.tokens.length + 10
  match (Reader.document steps).run { tokens := stream.tokens } with
  | none => none
  | some (root, state) =>
    let last := stream.tokens.length - state.tokens.length
    if state.tokens.isEmpty || stream.failsBefore last then none
    else some (match root with
      | none => .empty
      | some root => .document root)

end Questionnaire.Yaml
