import Questionnaire.Form.DocPath
import Questionnaire.Form.Document
import Questionnaire.Json.Read

/-!
# Decoding forms

`FormDoc.decode` turns a form document into a form: each statement and each expression by its kind.
It fails at the first place in document order that breaks a rule, and says where that is: a
statement before what it holds, a guard before its block, a left operand before a right one.
-/

namespace Questionnaire

/-! ### Faults -/

/-- A rule of the document format that is broken at some place. -/
inductive DecodeFault where
  | missingId
  | unknownType (word : String)
  | unknownStatementKind (word : String)
  | missingExpression
  | unknownExprKind (word : String)
  | missingName
  | unknownUnaryOp (symbol : String)
  | unknownBinaryOp (symbol : String)
  | missingValue
  | invalidLiteral (type : ValueType) (mismatch : Json.Mismatch)
  deriving DecidableEq

/-- What is said of a broken rule. -/
def DecodeFault.message : DecodeFault → String
  | missingId => "missing question id"
  | unknownType s => ValueType.unknownMessage s
  | unknownStatementKind s => "unknown statement kind " ++ Text.quoted s
  | missingExpression => "missing expression"
  | unknownExprKind s => "unknown expression kind " ++ Text.quoted s
  | missingName => "missing reference name"
  | unknownUnaryOp s => UnaryOp.unknownMessage s
  | unknownBinaryOp s => BinaryOp.unknownMessage s
  | missingValue => "missing literal value"
  | invalidLiteral t m => s!"invalid {t.name} literal: {m.message}"

/-- A broken rule and its place. -/
structure DecodeError where
  path : DocPath
  fault : DecodeFault
  deriving DecidableEq

/-- What is said of a broken rule, after its place. -/
def DecodeError.message (e : DecodeError) : String :=
  e.path.text ++ ": " ++ e.fault.message

/-- Why a text is no form. -/
inductive FormError where
  /-- The text is not JSON. -/
  | syntaxError
  /-- The text is a JSON value, but no object. -/
  | notObject (mismatch : Json.Mismatch)
  /-- A member is of the wrong kind. -/
  | wrongKind (mismatch : Json.Mismatch)
  /-- A rule of the document format is broken. -/
  | broken (error : DecodeError)
  deriving DecidableEq

/-- What is said of a text that is no form. -/
def FormError.message : FormError → String
  | syntaxError => "failed to parse form JSON"
  | notObject m => "failed to parse form JSON: " ++ m.message
  | wrongKind m => "failed to parse form JSON: " ++ m.message
  | broken e => e.message

/-! ### Expressions -/

namespace ExprDoc

/-- The literal of a type that is made from what was read, or else the fault. -/
def makeLiteral {α : Type} (t : ValueType) (wanted : String) (make : α → Literal) :
    Except Json.Mismatch α → Except DecodeFault Literal
  | .ok a => .ok (make a)
  | .error m => .error (.invalidLiteral t (m.wanting wanted))

@[simp]
theorem makeLiteral_ok {α : Type} (t : ValueType) (wanted : String) (make : α → Literal) (a : α) :
    makeLiteral t wanted make (.ok a) = .ok (make a) :=
  rfl

@[simp]
theorem makeLiteral_error {α : Type} (t : ValueType) (wanted : String) (make : α → Literal)
    (m : Json.Mismatch) :
    makeLiteral t wanted make (.error m) = .error (.invalidLiteral t (m.wanting wanted)) :=
  rfl

/-- The literal of a type that a JSON value stands for. Null stands for the zero of the type. -/
def literalOf (t : ValueType) (j : Json) : Except DecodeFault Literal :=
  match t with
  | .boolean => makeLiteral t "bool" .boolean (Json.readBool false j)
  | .integer => makeLiteral t "int64" .integer (Json.readInt64 0 j)
  | .decimal => makeLiteral t "float64" .decimal (Json.readBinary64 (.zero false) j)
  | _ => makeLiteral t "string" .string (Json.readText "" j)

/-- The literal that the plain members of an expression describe. -/
def decodeLiteral (path : DocPath) (h : ExprHead) : Except DecodeError Literal :=
  match h.value with
  | none => .error ⟨path.member "value", .missingValue⟩
  | some j =>
    match ValueType.ofKeyword? h.type with
    | none => .error ⟨path.member "type", .unknownType h.type⟩
    | some t =>
      match literalOf t j with
      | .ok v => .ok v
      | .error fault => .error ⟨path.member "value", fault⟩

/-- The expression that a document describes at a place. -/
def decode (path : DocPath) : ExprDoc → Except DecodeError Expr
  | absent => .error ⟨path, .missingExpression⟩
  | node h x l r =>
    let pos : Position := ⟨h.line, h.column⟩
    match h.kind with
    | "literal" => (decodeLiteral path h).map (.literal pos)
    | "reference" =>
      if h.name.isEmpty then .error ⟨path.member "name", .missingName⟩
      else .ok (.reference pos h.name)
    | "unary" =>
      match UnaryOp.ofSymbol? h.operator with
      | none => .error ⟨path.member "operator", .unknownUnaryOp h.operator⟩
      | some op => (x.decode (path.member "operand")).map (.unary pos op)
    | "binary" =>
      match BinaryOp.ofSymbol? h.operator with
      | none => .error ⟨path.member "operator", .unknownBinaryOp h.operator⟩
      | some op => do
        let left ← l.decode (path.member "left")
        let right ← r.decode (path.member "right")
        pure (.binary pos op left right)
    | kind => .error ⟨path.member "kind", .unknownExprKind kind⟩

end ExprDoc

/-! ### Statements -/

namespace StatementDoc

/-- What the plain members of a question or calculated question declare. -/
def decodeQuestion (path : DocPath) (h : StatementHead) : Except DecodeError Question :=
  if h.id.isEmpty then .error ⟨path, .missingId⟩
  else match ValueType.ofKeyword? h.type with
    | none => .error ⟨path.member "type", .unknownType h.type⟩
    | some type => .ok { pos := ⟨h.line, h.column⟩, id := h.id, type, label := h.label }

mutual

/-- The statement that a document describes at a place. -/
def decode (path : DocPath) : StatementDoc → Except DecodeError Statement
  | mk h expression guard body _ =>
    match h.kind with
    | "question" => (decodeQuestion path h).map .question
    | "calculated" => do
      let q ← decodeQuestion path h
      let value ← expression.decode (path.member "expression")
      pure (.calculated q value)
    | "condition" => do
      let guard ← guard.decode (path.member "guard")
      let body ← decodeAll (path.member "body") 0 body
      pure (.condition ⟨h.line, h.column⟩ guard body)
    | kind => .error ⟨path.member "kind", .unknownStatementKind kind⟩

/-- The statements that a document lists at a place, numbered from `index` on. -/
def decodeAll (path : DocPath) (index : Nat) :
    List StatementDoc → Except DecodeError (List Statement)
  | [] => .ok []
  | d :: rest => do
    let s ← decode (path.item index) d
    let statements ← decodeAll path (index + 1) rest
    pure (s :: statements)

end

end StatementDoc

/-! ### Forms -/

namespace FormDoc

/-- The document that a JSON value describes. Null describes an empty one. -/
def ofJson : Json → Except FormError FormDoc
  | .null => .ok {}
  | .object members =>
    match readMembers {} members with
    | .ok d => .ok d
    | .error m => .error (.wrongKind m)
  | j => .error (.notObject (j.mismatch "ast.formDoc"))

/-- The form that a document describes. -/
def decode (d : FormDoc) : Except DecodeError Form :=
  (StatementDoc.decodeAll (DocPath.member {} "statements") 0 d.statements.items).map
    fun statements ↦ { name := d.name, file := d.file, statements }

end FormDoc

/-- The form that a text describes. -/
def Form.decode (text : List Char) : Except FormError Form :=
  match Json.parseChars text with
  | none => .error .syntaxError
  | some j =>
    match FormDoc.ofJson j with
    | .error e => .error e
    | .ok d =>
      match d.decode with
      | .ok f => .ok f
      | .error e => .error (.broken e)

end Questionnaire
