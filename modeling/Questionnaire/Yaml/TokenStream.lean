import Questionnaire.Yaml.Scalar.Block
import Questionnaire.Yaml.Scalar.Quoted
import Questionnaire.Yaml.Tag

/-!
# From text to tokens

The scanner goes through a text token by token. It keeps the indentation of the block collections
that are open, and for every level of flow collections the token that may turn out to be a key: that
is known only when a colon follows it, on the same line and not too far away. The token for the key,
and the one for the start of a mapping, are then put in front of it.

A scan ends with the token for the end of the stream, or where the text is wrong. Which of these
counts is for the reader of the tokens to say: a document may be over before.
-/

namespace Questionnaire.Yaml

/-- A token that may turn out to be a key. -/
structure KeyCandidate where
  /-- Whether it has to be one. -/
  required : Bool
  /-- The number of tokens before it. -/
  number : Nat
  mark : Mark
  deriving DecidableEq, Inhabited

/-- How far a colon may be from the start of its key. -/
def keyReach : Nat := 1024

/-- Whether a colon at a place can still make a candidate a key. -/
def KeyCandidate.isOpen (k : KeyCandidate) (m : Mark) : Bool :=
  k.mark.line == m.line && decide (m.index ≤ k.mark.index + keyReach)

/-- The deepest nesting of collections. -/
def maxNesting : Nat := 10000

/-- The state of a scan. -/
structure Scanner where
  cursor : Cursor
  /-- The tokens so far, the last one first. -/
  tokens : List Token := [.streamStart]
  /-- The number of tokens so far. -/
  count : Nat := 1
  /-- The indentation of the innermost open block collection, -1 when there is none. -/
  indent : Int := -1
  /-- The indentations around it. -/
  outer : List Int := []
  /-- The candidate of the block, or of the innermost open flow collection. -/
  candidate : Option KeyCandidate := none
  /-- The candidates around it, as many as flow collections are open. -/
  enclosing : List (Option KeyCandidate) := []
  /-- Whether a key may start at the next token. -/
  keyAllowed : Bool := true
  deriving Inhabited

namespace Scanner

/-- Whether a flow collection is open. -/
def inFlow (s : Scanner) : Bool :=
  !s.enclosing.isEmpty

/-- The state with one more token. -/
def push (s : Scanner) (t : Token) : Scanner :=
  { s with tokens := t :: s.tokens, count := s.count + 1 }

/-- The state with a token put where `number` tokens are before it. -/
def insert (s : Scanner) (number : Nat) (t : Token) : Scanner :=
  let later := s.count - number
  { s with
    tokens := s.tokens.take later ++ t :: s.tokens.drop later
    count := s.count + 1 }

/-! ### Indentation -/

/-- Closes the block collections that are indented by more than `column`. -/
def closeBlocks (column : Int) (indent : Int) : List Int → Scanner → Scanner
  | outer, s =>
    if indent ≤ column then { s with indent, outer }
    else match outer with
      | [] => { s.push .blockEnd with indent := -1, outer := [] }
      | i :: outer => closeBlocks column i outer (s.push .blockEnd)

/-- Closes the block collections that end before a token in `column`. -/
def unroll (s : Scanner) (column : Int) : Scanner :=
  if s.inFlow then s else closeBlocks column s.indent s.outer s

/-- Opens a block collection at `column`, unless one is open there; `put` adds its token. -/
def roll (s : Scanner) (column : Int) (put : Scanner → Scanner) : Option Scanner :=
  if s.inFlow || decide (column ≤ s.indent) then some s
  else if maxNesting ≤ s.outer.length then none
  else some (put { s with indent := column, outer := s.indent :: s.outer })

/-! ### Keys -/

/-- Gives up the candidate; none when it had to be a key. -/
def dropCandidate (s : Scanner) : Option Scanner :=
  match s.candidate with
  | some k => if k.required then none else some { s with candidate := none }
  | none => some s

/-- Makes the next token the candidate, if a key may start there. In a block it has to be one when
it stands where the keys of the open mapping stand. -/
def offerCandidate (s : Scanner) : Option Scanner :=
  if s.keyAllowed then
    s.dropCandidate.map fun s ↦
      { s with
        candidate := some
          { required := !s.inFlow && s.indent == (s.cursor.mark.column : Int)
            number := s.count
            mark := s.cursor.mark } }
  else some s

/-- The candidates that a colon at the present place could still make keys, by their numbers. -/
def openCandidates (s : Scanner) : List Nat :=
  ((s.candidate :: s.enclosing).filterMap fun k ↦ k).filterMap fun k ↦
    if k.isOpen s.cursor.mark then some k.number else none

/-! ### Single tokens -/

/-- Reads a token of `width` characters. -/
def take (s : Scanner) (width : Nat) (t : Token) : Scanner :=
  { s with cursor := s.cursor.drop width }.push t

/-- The end of the stream. -/
def fetchEnd (s : Scanner) : Option Scanner :=
  (s.unroll (-1)).dropCandidate.map fun s ↦ { s with keyAllowed := false }.push .streamEnd

/-- A directive. -/
def fetchDirective (s : Scanner) : Option Scanner := do
  let s ← (s.unroll (-1)).dropCandidate
  let (token, cursor) ← scanDirective (s.cursor.drop 1)
  pure ({ s with cursor, keyAllowed := false }.push token)

/-- A line that starts or ends a document. -/
def fetchDocumentLine (s : Scanner) (t : Token) : Option Scanner :=
  (s.unroll (-1)).dropCandidate.map fun s ↦ { s with keyAllowed := false }.take 3 t

/-- The start of a flow collection. -/
def fetchFlowStart (s : Scanner) (t : Token) : Option Scanner := do
  let s ← s.offerCandidate
  if maxNesting ≤ s.enclosing.length then none
  else
    pure ({ s with
      candidate := none
      enclosing := s.candidate :: s.enclosing
      keyAllowed := true }.take 1 t)

/-- The end of a flow collection. -/
def fetchFlowEnd (s : Scanner) (t : Token) : Option Scanner :=
  s.dropCandidate.map fun s ↦
    match s.enclosing with
    | [] => { s with keyAllowed := false }.take 1 t
    | k :: enclosing => { s with candidate := k, enclosing, keyAllowed := false }.take 1 t

/-- A comma between the items of a flow collection. -/
def fetchFlowEntry (s : Scanner) : Option Scanner :=
  s.dropCandidate.map fun s ↦ { s with keyAllowed := true }.take 1 .flowEntry

/-- A dash before an item of a block sequence. -/
def fetchBlockEntry (s : Scanner) : Option Scanner := do
  let s ←
    if s.inFlow then some s
    else if !s.keyAllowed then none
    else s.roll s.cursor.mark.column fun s ↦ s.push .blockSequenceStart
  let s ← s.dropCandidate
  pure ({ s with keyAllowed := true }.take 1 .blockEntry)

/-- A question mark before a key. -/
def fetchKey (s : Scanner) : Option Scanner := do
  let s ←
    if s.inFlow then some s
    else if !s.keyAllowed then none
    else s.roll s.cursor.mark.column fun s ↦ s.push .blockMappingStart
  let s ← s.dropCandidate
  pure ({ s with keyAllowed := !s.inFlow }.take 1 .key)

/-- A colon behind a candidate that thereby is a key. -/
def fetchValueOf (s : Scanner) (k : KeyCandidate) : Option Scanner := do
  let s := s.insert k.number .key
  let s ← s.roll k.mark.column fun s ↦ s.insert k.number .blockMappingStart
  pure ({ s with candidate := none, keyAllowed := false }.take 1 .value)

/-- A colon that follows no candidate. -/
def fetchLoneValue (s : Scanner) : Option Scanner := do
  let s ←
    if s.inFlow then some s
    else if !s.keyAllowed then none
    else s.roll s.cursor.mark.column fun s ↦ s.push .blockMappingStart
  pure ({ s with keyAllowed := !s.inFlow }.take 1 .value)

/-- A colon before a value. -/
def fetchValue (s : Scanner) : Option Scanner :=
  match s.candidate with
  | some k =>
    if k.isOpen s.cursor.mark then s.fetchValueOf k
    else if k.required then none
    else { s with candidate := none }.fetchLoneValue
  | none => s.fetchLoneValue

/-- An anchor or an alias. -/
def fetchAnchor (s : Scanner) (make : String → Token) : Option Scanner := do
  let s ← s.offerCandidate
  let (name, cursor) ← scanAnchor (s.cursor.drop 1)
  pure ({ s with cursor, keyAllowed := false }.push (make name))

/-- A tag. -/
def fetchTag (s : Scanner) : Option Scanner := do
  let s ← s.offerCandidate
  let (token, cursor) ← scanTag s.cursor
  pure ({ s with cursor, keyAllowed := false }.push token)

/-- A state after a scalar. -/
def afterScalar (s : Scanner) (plain keyAllowed : Bool) (r : ScannedScalar) : Scanner :=
  { s with cursor := r.cursor, keyAllowed }.push (.scalar plain (String.ofList r.text))

/-- A block scalar, and whether it ends on a later line. -/
def fetchBlockScalar (s : Scanner) (literal : Bool) : Option (Scanner × Bool) := do
  let s ← s.dropCandidate
  let r ← scanBlock literal s.indent (s.cursor.drop 1)
  pure (s.afterScalar false true r, r.newLine)

/-- A quoted scalar, and whether it ends on a later line. -/
def fetchQuoted (s : Scanner) (single : Bool) : Option (Scanner × Bool) := do
  let s ← s.offerCandidate
  let r ← scanQuoted single [] .none (s.cursor.mark.next) (s.cursor.rest.drop 1)
  pure (s.afterScalar false false r, r.newLine)

/-- A plain scalar, and whether the place after it is on a later line. -/
def fetchPlain (s : Scanner) : Option (Scanner × Bool) := do
  let s ← s.offerCandidate
  let r ← scanPlain s.inFlow (s.indent + 1) [] none s.cursor.mark s.cursor.rest
  pure (s.afterScalar true r.newLine r, r.newLine)

/-! ### The next token -/

/-- Whether a character is an indicator, with which no plain scalar starts by itself. -/
def isIndicator (c : Char) : Bool :=
  c == '-' || c == '?' || c == ':' || c == ',' || c == '[' || c == ']' || c == '\x7b' ||
    c == '\x7d' || c == '#' || c == '&' || c == '*' || c == '!' || c == '|' || c == '>' ||
    c == '\'' || c == '"' || c == '%' || c == '@' || c == '\x60'

/-- Whether a plain scalar starts with a character before some others. -/
def startsPlain (flow : Bool) (c : Char) (rest : List Char) : Bool :=
  !(isBlank c || isBreak c || isIndicator c) ||
    (c == '-' && (match rest with
      | [] => true
      | d :: _ => !isBlank d)) ||
    (!flow && (c == '?' || c == ':') && !endsWord rest)

/-- The token that a character starts, and whether the place after it is on a later line. -/
def fetchBy (s : Scanner) (c : Char) (rest : List Char) : Option (Scanner × Bool) :=
  if c == '[' then (s.fetchFlowStart .flowSequenceStart).map (·, false)
  else if c == '\x7b' then (s.fetchFlowStart .flowMappingStart).map (·, false)
  else if c == ']' then (s.fetchFlowEnd .flowSequenceEnd).map (·, false)
  else if c == '\x7d' then (s.fetchFlowEnd .flowMappingEnd).map (·, false)
  else if c == ',' then s.fetchFlowEntry.map (·, false)
  else if c == '-' && endsWord rest then s.fetchBlockEntry.map (·, true)
  else if c == '?' && (s.inFlow || endsWord rest) then s.fetchKey.map (·, false)
  else if c == ':' && (s.inFlow || endsWord rest) then s.fetchValue.map (·, false)
  else if c == '*' then (s.fetchAnchor .reference).map (·, false)
  else if c == '&' then (s.fetchAnchor .anchor).map (·, false)
  else if c == '!' then s.fetchTag.map (·, false)
  else if c == '|' && !s.inFlow then s.fetchBlockScalar true
  else if c == '>' && !s.inFlow then s.fetchBlockScalar false
  else if c == '\'' then s.fetchQuoted true
  else if c == '"' then s.fetchQuoted false
  else if startsPlain s.inFlow c rest then s.fetchPlain
  else none

/-- The state after one more token and a comment on its line; none where the text is wrong. A dash
has no comment of its own. -/
def fetch (s : Scanner) : Option Scanner :=
  let (cursor, keyAllowed) :=
    skipFilling s.inFlow .space s.keyAllowed s.cursor.mark s.cursor.rest
  let s := { s with cursor, keyAllowed }.unroll cursor.mark.column
  let firstColumn := cursor.mark.column == 0
  match cursor.rest with
  | [] => s.fetchEnd
  | c :: rest =>
    if firstColumn && c == '%' then s.fetchDirective
    else if firstColumn && isTripled '-' (c :: rest) then s.fetchDocumentLine .documentStart
    else if firstColumn && isTripled '.' (c :: rest) then s.fetchDocumentLine .documentEnd
    else (s.fetchBy c rest).map fun (s, newLine) ↦
      if newLine then s else { s with cursor := s.cursor.skipLineComment }

end Scanner

/-- The tokens of a text, as far as they can be told. -/
structure TokenStream where
  tokens : List Token
  /-- Where the text is wrong behind the tokens: the numbers of those that may yet be keys. -/
  failure : Option (List Nat) := none
  deriving DecidableEq, Inhabited

namespace TokenStream

/-- The tokens from a state on. Every token but the last takes up a character of the text, so one
step more than there are characters is enough. -/
def scanFrom : Nat → Scanner → TokenStream
  | 0, s => { tokens := s.tokens.reverse, failure := some s.openCandidates }
  | steps + 1, s =>
    match s.fetch with
    | none => { tokens := s.tokens.reverse, failure := some s.openCandidates }
    | some s =>
      match s.tokens with
      | .streamEnd :: _ => { tokens := s.tokens.reverse }
      | _ => scanFrom steps s

/-- The tokens of a text. -/
def scan (text : List Char) : TokenStream :=
  scanFrom (text.length + 1) { cursor := { rest := text } }

/-- How many tokens are looked at ahead of the one that is needed. -/
def lookahead : Nat := 2

/-- Whether what is wrong with the text is met while the tokens up to number `last` are needed. -/
def failsBefore (t : TokenStream) (last : Nat) : Bool :=
  match t.failure with
  | none => false
  | some candidates =>
    decide (t.tokens.length ≤ last + lookahead) || candidates.any fun n ↦ decide (n ≤ last)

end TokenStream

end Questionnaire.Yaml
