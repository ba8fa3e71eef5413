import Questionnaire.Text.Blank
import Questionnaire.Text.Quoted
import Questionnaire.Text.Utf8

/-!
# Environment files

An environment file gives values to variables, one after the other: a name, an equals sign or a
colon, and a value. The word `export` may stand before a name. A value goes to the end of its line
or to a comment, or it stands between quotes and may then go over several lines. Outside single
quotes a dollar sign and a name stand for the value that the file has given to that variable before.

Names are read byte by byte, each byte taken for a character of its own.
-/

namespace Questionnaire.Command

/-- Why a file is no environment file. -/
inductive EnvFileError where
  | unexpectedByte (byte : UInt8) (near : List UInt8)
  | emptyStatement
  | unterminated (value : List UInt8)
  deriving DecidableEq

/-- What is said of a file that is no environment file. -/
def EnvFileError.message : EnvFileError → String
  | unexpectedByte b near =>
    "unexpected character " ++ Text.quoted (String.ofList [Char.ofNat b.toNat]) ++
      " in variable name near " ++ Text.quotedBytes near
  | emptyStatement => "zero length string"
  | unterminated v => "unterminated quoted value " ++ String.ofList (Text.Utf8.decodeLossy v)

/-! ### Bytes and characters -/

/-- Whether a character is white space within a line. -/
def isLineSpace (c : Char) : Bool :=
  c == ' ' || c == '\t' || c == '\x0B' || c == '\x0C' || c == '\r' || c == '\u0085' ||
    c == '\u00A0'

/-- Whether a byte, taken for a character, is a letter or a number beyond ASCII. -/
def isUpperWordByte (n : Nat) : Bool :=
  n == 0xAA || n == 0xB2 || n == 0xB3 || n == 0xB5 || n == 0xB9 || n == 0xBA ||
    (0xBC ≤ n && n ≤ 0xBE) || (0xC0 ≤ n && n ≤ 0xFF && n != 0xD7 && n != 0xF7)

/-- Whether a byte may stand in a name or around one. -/
def isNameByte (b : UInt8) : Bool :=
  let c := Char.ofNat b.toNat
  isLineSpace c || c == '_' || c == '.' || c.isAlphanum || isUpperWordByte b.toNat

/-- Some bytes from the first character on that does not have a property. `skip` is the number of
bytes in front that belong to a character that has it. -/
def dropChars (p : Char → Bool) (skip : Nat) : List UInt8 → List UInt8
  | [] => []
  | b :: rest =>
    match skip with
    | skip + 1 => dropChars p skip rest
    | 0 =>
      match Text.Utf8.first? (b :: rest) with
      | some (c, n) => if p c then dropChars p (n - 1) rest else b :: rest
      | none => b :: rest

/-- Some bytes without the white space in front, up to the end of the line. -/
def dropLineSpace (bytes : List UInt8) : List UInt8 :=
  dropChars isLineSpace 0 bytes

/-- The bytes with every carriage return before a line feed left out. -/
def withoutReturns : List UInt8 → List UInt8
  | [] => []
  | b :: rest =>
    match b == 13, rest with
    | true, 10 :: _ => withoutReturns rest
    | _, _ => b :: withoutReturns rest

/-! ### Statements -/

/-- The bytes from the next statement on, past white space and lines that are comments. -/
def statementStart (comment : Bool) (skip : Nat) : List UInt8 → Option (List UInt8)
  | [] => none
  | b :: rest =>
    match skip with
    | skip + 1 => statementStart comment skip rest
    | 0 =>
      if comment then statementStart (b != 10) 0 rest
      else match Text.Utf8.first? (b :: rest) with
        | some (c, n) =>
          if Text.isBlank c then statementStart false (n - 1) rest
          else if c == '#' then statementStart true 0 rest
          else some (b :: rest)
        | none => some (b :: rest)

/-- The bytes of a statement without the word `export` before its name. -/
def dropExport (bytes : List UInt8) : List UInt8 :=
  let word := Text.Utf8.encode "export"
  if word.isPrefixOf bytes then
    let rest := bytes.drop word.length
    let trimmed := dropLineSpace rest
    if trimmed.length < rest.length then trimmed else bytes
  else bytes

/-- The name that a statement starts with, and its bytes from the value on. Without an equals sign
or a colon the name is empty and all is value. -/
def takeName (bytes : List UInt8) : Except EnvFileError (String × List UInt8) :=
  let bytes := dropExport (dropLineSpace bytes)
  let name := bytes.takeWhile isNameByte
  match bytes.drop name.length with
  | [] => if bytes.isEmpty then .error .emptyStatement else .ok ("", dropLineSpace bytes)
  | b :: rest =>
    if b == 61 || b == 58 then
      let cs := Text.Utf8.decodeLossy name
      .ok (String.ofList (cs.reverse.dropWhile Text.isBlank).reverse, dropLineSpace rest)
    else .error (.unexpectedByte b bytes)

/-! ### Values -/

/-- The variables that have a value, the last one first. -/
abbrev Variables := List (String × String)

/-- Whether a character may stand in the name of a variable that a value refers to. -/
def isVariableChar (c : Char) : Bool :=
  ('A' ≤ c && c ≤ 'Z') || ('0' ≤ c && c ≤ '9') || c == '_'

/-- How many of some characters are a bracket of a kind, one at most. -/
def bracketCount (bracket : Char) : List Char → Nat
  | c :: _ => if c == bracket then 1 else 0
  | [] => 0

/-- A value with the variables it refers to put in; a backslash before a dollar sign keeps it as it
is and is left out. `skip` is the number of characters in front that belong to a reference. -/
def expandVariables (vars : Variables) (skip : Nat) : List Char → List Char
  | [] => []
  | c :: rest =>
    match skip with
    | skip + 1 => expandVariables vars skip rest
    | 0 =>
      if c == '\\' && rest.head? == some '$' then
        match rest with
        | d :: rest => d :: expandVariables vars 0 rest
        | [] => []
      else if c == '$' then
        let opened := bracketCount '(' rest
        let opened := opened + bracketCount '\x7b' (rest.drop opened)
        let name := (rest.drop opened).takeWhile isVariableChar
        if name.isEmpty then c :: expandVariables vars 0 rest
        else
          let length := opened + name.length
          let length := length + bracketCount '\x7d' (rest.drop length)
          ((vars.lookup (String.ofList name)).getD "").toList ++ expandVariables vars length rest
      else c :: expandVariables vars 0 rest

/-- A text with the escapes for line ends replaced by them, and other escapes kept. -/
def expandLineEnds : List Char → List Char
  | '\\' :: 'n' :: rest => '\n' :: expandLineEnds rest
  | '\\' :: 'r' :: rest => '\r' :: expandLineEnds rest
  | '\\' :: c :: rest => '\\' :: c :: expandLineEnds rest
  | c :: rest => c :: expandLineEnds rest
  | [] => []

/-- A text without the backslashes before characters other than the dollar sign. -/
def dropBackslashes : List Char → List Char
  | '\\' :: '$' :: rest => '\\' :: '$' :: dropBackslashes rest
  | '\\' :: c :: rest => c :: dropBackslashes rest
  | c :: rest => c :: dropBackslashes rest
  | [] => []

/-- What comes before the last comment of a line, if it has one; the line and the result are given
last character first. A number sign behind white space starts a comment. -/
def dropComment : List Char → Option (List Char)
  | [] => none
  | c :: rest =>
    if c == '#' && rest.head?.any isLineSpace then some rest else dropComment rest

/-- The line of a value up to its last comment. -/
def beforeComment (cs : List Char) : List Char :=
  match dropComment cs.reverse with
  | some back => back.reverse
  | none => cs

/-- A value without quotes. -/
def plainValue (vars : Variables) (line : List UInt8) : String :=
  let cs := Text.trimBoth isLineSpace (beforeComment (Text.Utf8.decodeLossy line))
  String.ofList (expandVariables vars 0 cs)

/-- What stands before the quote that ends a value, and what follows it. A quote behind a backslash
does not end it. The bytes read so far are given last one first. -/
def splitAtQuote (quote : UInt8) (previous : UInt8) (done : List UInt8) :
    List UInt8 → Option (List UInt8 × List UInt8)
  | [] => none
  | b :: rest =>
    if b == quote && previous != 92 then some (done.reverse, rest)
    else splitAtQuote quote b (b :: done) rest

/-- A value between quotes; between double quotes escapes and variables are replaced. -/
def quotedValue (vars : Variables) (quote : UInt8) (content : List UInt8) : String :=
  let content := (content.reverse.dropWhile (· == quote)).reverse
  let cs := Text.Utf8.decodeLossy content
  String.ofList <|
    if quote == 34 then expandVariables vars 0 (dropBackslashes (expandLineEnds cs)) else cs

/-- Whether a byte ends a line. -/
def isLineEnd (b : UInt8) : Bool :=
  b == 10 || b == 13

/-- The value in front of some bytes, and what follows. -/
def takeValue (vars : Variables) (bytes : List UInt8) : Except EnvFileError (String × List UInt8) :=
  let plain :=
    let line := bytes.takeWhile fun b ↦ !isLineEnd b
    Except.ok (plainValue vars line, bytes.drop line.length)
  match bytes with
  | [] => plain
  | b :: rest =>
    if b == 34 || b == 39 then
      match splitAtQuote b b [] rest with
      | some (content, rest) => .ok (quotedValue vars b content, rest)
      | none => .error (.unterminated (bytes.takeWhile (· != 10)))
    else plain

/-- The variables of the statements in some bytes. Every statement takes up a byte, so there are no
more steps than bytes. -/
def readStatements (vars : Variables) : Nat → List UInt8 → Except EnvFileError Variables
  | 0, _ => .ok vars
  | steps + 1, bytes =>
    match statementStart false 0 bytes with
    | none => .ok vars
    | some bytes => do
      let (name, bytes) ← takeName bytes
      let (value, bytes) ← takeValue vars bytes
      readStatements ((name, value) :: vars) steps bytes

/-- The variables of an environment file. -/
def parseEnvFile (bytes : List UInt8) : Except EnvFileError Variables :=
  let bytes := withoutReturns bytes
  readStatements [] (bytes.length + 1) bytes

end Questionnaire.Command
