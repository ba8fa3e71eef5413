import Questionnaire.Form.Statement
import Questionnaire.Json.Fields

/-!
# Form documents

A form document is what a JSON object says about a form before its kinds, types and operators are
looked at: records of texts, numbers and further records. Every statement has room for what any kind
of statement needs, and so has every expression. Members with other names are passed over.
-/

namespace Questionnaire

/-- The plain members of an expression in a document. The value of a literal is kept as it is. -/
structure ExprHead where
  kind : String := ""
  line : Int64 := 0
  column : Int64 := 0
  type : String := ""
  value : Option Json := none
  name : String := ""
  operator : String := ""
  deriving Inhabited

/-- An expression in a document, or the lack of one. -/
inductive ExprDoc where
  | absent
  | node (head : ExprHead) (operand left right : ExprDoc)
  deriving Inhabited

/-- The plain members of a statement in a document. -/
structure StatementHead where
  kind : String := ""
  line : Int64 := 0
  column : Int64 := 0
  id : String := ""
  type : String := ""
  label : String := ""
  deriving Inhabited

/-- A statement in a document. Behind its body stand the statements that a longer earlier body left
over; they are no part of the document's form. -/
inductive StatementDoc where
  | mk (head : StatementHead) (expression guard : ExprDoc) (body spare : List StatementDoc)
  deriving Inhabited

/-- A form document. -/
structure FormDoc where
  name : String := ""
  file : String := ""
  statements : Json.Overlaid StatementDoc := {}
  deriving Inhabited

/-! ### Expressions -/

/-- The members that an expression can have. -/
inductive ExprField where
  | kind | line | column | type | value | name | operator | operand | left | right
  deriving DecidableEq

/-- The members of expressions by name. -/
def ExprField.byName : List (String × ExprField) :=
  [("kind", kind), ("line", line), ("column", column), ("type", type), ("value", value),
    ("name", name), ("operator", operator), ("operand", operand), ("left", left), ("right", right)]

namespace ExprHead

/-- A plain member, over what was there before. -/
def read (h : ExprHead) (field : ExprField) (j : Json) : Except Json.Mismatch ExprHead :=
  match field with
  | .kind => (Json.readText h.kind j).map fun kind ↦ { h with kind }
  | .line => (Json.readInt64 h.line j).map fun line ↦ { h with line }
  | .column => (Json.readInt64 h.column j).map fun column ↦ { h with column }
  | .type => (Json.readText h.type j).map fun type ↦ { h with type }
  | .value => .ok { h with value := some j }
  | .name => (Json.readText h.name j).map fun name ↦ { h with name }
  | .operator => (Json.readText h.operator j).map fun operator ↦ { h with operator }
  | .operand | .left | .right => .ok h

end ExprHead

namespace ExprDoc

/-- An expression without members. -/
def empty : ExprDoc :=
  node {} absent absent absent

/-- What an object is read over: the earlier expression, or one without members. -/
def orEmpty : ExprDoc → ExprDoc
  | absent => empty
  | d => d

mutual

/-- An expression, over an earlier one; null takes the earlier one away. -/
def read (old : ExprDoc) : Json → Except Json.Mismatch ExprDoc
  | .null => .ok absent
  | .object members => readMembers old.orEmpty members
  | .bool b => .error ((Json.bool b).mismatch "ast.exprDoc")
  | .number n => .error ((Json.number n).mismatch "ast.exprDoc")
  | .string s => .error ((Json.string s).mismatch "ast.exprDoc")
  | .array items => .error ((Json.array items).mismatch "ast.exprDoc")

/-- Members of an expression, in order. -/
def readMembers (d : ExprDoc) : List (String × Json) → Except Json.Mismatch ExprDoc
  | [] => .ok d
  | member :: rest => do
    let d ← (readMember d member).mapError
      (.inField "exprDoc" (Json.fieldName ExprField.byName member.1))
    readMembers d rest

/-- A member of an expression. -/
def readMember (d : ExprDoc) : String × Json → Except Json.Mismatch ExprDoc
  | (name, value) =>
    match d, Json.field? ExprField.byName name with
    | absent, _ | _, none => .ok d
    | node h x l r, some .operand => (read x value).map fun x ↦ node h x l r
    | node h x l r, some .left => (read l value).map fun l ↦ node h x l r
    | node h x l r, some .right => (read r value).map fun r ↦ node h x l r
    | node h x l r, some field => (h.read field value).map fun h ↦ node h x l r

end

end ExprDoc

/-! ### Statements -/

/-- The members that a statement can have. -/
inductive StatementField where
  | kind | line | column | id | type | label | expression | guard | body
  deriving DecidableEq

/-- The members of statements by name. -/
def StatementField.byName : List (String × StatementField) :=
  [("kind", kind), ("line", line), ("column", column), ("id", id), ("type", type),
    ("label", label), ("expression", expression), ("guard", guard), ("body", body)]

namespace StatementHead

/-- A plain member, over what was there before. -/
def read (h : StatementHead) (field : StatementField) (j : Json) :
    Except Json.Mismatch StatementHead :=
  match field with
  | .kind => (Json.readText h.kind j).map fun kind ↦ { h with kind }
  | .line => (Json.readInt64 h.line j).map fun line ↦ { h with line }
  | .column => (Json.readInt64 h.column j).map fun column ↦ { h with column }
  | .id => (Json.readText h.id j).map fun id ↦ { h with id }
  | .type => (Json.readText h.type j).map fun type ↦ { h with type }
  | .label => (Json.readText h.label j).map fun label ↦ { h with label }
  | .expression | .guard | .body => .ok h

end StatementHead

namespace StatementDoc

/-- A statement without members. -/
def empty : StatementDoc :=
  mk {} .absent .absent [] []

mutual

/-- A statement, over an earlier one. -/
def read (old : StatementDoc) : Json → Except Json.Mismatch StatementDoc
  | .null => .ok old
  | .object members => readMembers old members
  | .bool b => .error ((Json.bool b).mismatch "ast.statementDoc")
  | .number n => .error ((Json.number n).mismatch "ast.statementDoc")
  | .string s => .error ((Json.string s).mismatch "ast.statementDoc")
  | .array items => .error ((Json.array items).mismatch "ast.statementDoc")

/-- Members of a statement, in order. -/
def readMembers (d : StatementDoc) : List (String × Json) → Except Json.Mismatch StatementDoc
  | [] => .ok d
  | member :: rest => do
    let d ← (readMember d member).mapError
      (.inField "statementDoc" (Json.fieldName StatementField.byName member.1))
    readMembers d rest

/-- A member of a statement. -/
def readMember (d : StatementDoc) : String × Json → Except Json.Mismatch StatementDoc
  | (name, value) =>
    match d, Json.field? StatementField.byName name with
    | d, none => .ok d
    | mk h e g body spare, some .expression =>
      (e.read value).map fun e ↦ mk h e g body spare
    | mk h e g body spare, some .guard =>
      (g.read value).map fun g ↦ mk h e g body spare
    | mk h e g body spare, some .body =>
      (readList (body ++ spare) value).map fun s ↦ mk h e g s.items s.spare
    | mk h e g body spare, some field =>
      (h.read field value).map fun h ↦ mk h e g body spare

/-- A list of statements, over earlier ones. -/
def readList (earlier : List StatementDoc) :
    Json → Except Json.Mismatch (Json.Overlaid StatementDoc)
  | .null => .ok {}
  | .array items =>
    (readItems earlier items).map fun read ↦
      { items := read, spare := Json.spareAfter earlier items.length }
  | .bool b => .error ((Json.bool b).mismatch "[]ast.statementDoc")
  | .number n => .error ((Json.number n).mismatch "[]ast.statementDoc")
  | .string s => .error ((Json.string s).mismatch "[]ast.statementDoc")
  | .object members => .error ((Json.object members).mismatch "[]ast.statementDoc")

/-- The statements of an array, each over the earlier one in its place. -/
def readItems (earlier : List StatementDoc) : List Json → Except Json.Mismatch (List StatementDoc)
  | [] => .ok []
  | j :: rest => do
    let s ← read (earlier.headD empty) j
    let statements ← readItems earlier.tail rest
    pure (s :: statements)

end

end StatementDoc

/-! ### Forms -/

/-- The members that a form can have. -/
inductive FormField where
  | name | file | statements
  deriving DecidableEq

/-- The members of forms by name. -/
def FormField.byName : List (String × FormField) :=
  [("name", name), ("file", file), ("statements", statements)]

namespace FormDoc

/-- A member of a form. -/
def readMember (d : FormDoc) (member : String × Json) : Except Json.Mismatch FormDoc :=
  match Json.field? FormField.byName member.1 with
  | none => .ok d
  | some .name => (Json.readText d.name member.2).map fun name ↦ { d with name }
  | some .file => (Json.readText d.file member.2).map fun file ↦ { d with file }
  | some .statements =>
    (StatementDoc.readList (d.statements.items ++ d.statements.spare) member.2).map
      fun statements ↦ { d with statements }

/-- Members of a form, in order. -/
def readMembers (d : FormDoc) (members : List (String × Json)) : Except Json.Mismatch FormDoc :=
  members.foldlM (Json.readIn "formDoc" FormField.byName readMember) d

end FormDoc

end Questionnaire
