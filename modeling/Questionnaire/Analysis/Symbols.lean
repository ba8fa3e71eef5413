import Questionnaire.Finding
import Questionnaire.Form.Statement

/-!
# Symbols

The symbol table of a form binds every declared question id to its first declaration. Each later
declaration of the same id is reported, with a pointer back to the first.
-/

namespace Questionnaire

/-- A declared question id. -/
structure Symbol where
  name : String
  type : ValueType
  /-- The place among the declared ids, in document order. -/
  index : Nat
  pos : Position
  deriving DecidableEq, Inhabited

/-- The declared ids of a form, in document order, and where each of them is found by its name. -/
structure SymbolTable where
  symbols : List Symbol := []
  byName : List (String × Nat) := []
  /-- Every symbol is found at its own place. -/
  indexed : byName = (symbols.map Symbol.name).zipIdx := by decide
  deriving DecidableEq

namespace SymbolTable

instance : Inhabited SymbolTable :=
  ⟨{}⟩

/-- The place of a name among the declared ids. -/
def index? (t : SymbolTable) (name : String) : Option Nat :=
  t.byName.lookup name

/-- The symbol bound to a name. -/
def lookup (t : SymbolTable) (name : String) : Option Symbol :=
  (t.index? name).bind fun i ↦ t.symbols[i]?

/-- The declared type of a name. -/
def typeOf (t : SymbolTable) (name : String) : ValueType :=
  match t.lookup name with
  | some s => s.type
  | none => .undefined

/-- The number of declared ids. -/
def size (t : SymbolTable) : Nat :=
  t.symbols.length

/-- A table with one more symbol behind the others, for a declaration. -/
def append (t : SymbolTable) (q : Question) : SymbolTable where
  symbols := t.symbols ++ [⟨q.id, q.type, t.size, q.pos⟩]
  byName := t.byName ++ [(q.id, t.size)]
  indexed := by
    rw [t.indexed, List.map_append, List.zipIdx_append, List.length_map, Nat.zero_add]
    rfl

/-- A table with one more declaration, and what is to be said of it: the first declaration of an id
is bound, and a later one is reported. -/
def declare (file : String) (t : SymbolTable) (q : Question) : SymbolTable × List Finding :=
  match t.lookup q.id with
  | some first =>
    (t, [.duplicateDeclaration (.ofPosition file q.pos) q.id (.ofPosition file first.pos)])
  | none => (t.append q, [])

/-- A table with more declarations, and the findings on them in order. -/
def declareAll (file : String) (t : SymbolTable) : List Question → SymbolTable × List Finding
  | [] => (t, [])
  | q :: rest =>
    let (t, here) := t.declare file q
    let (t, later) := t.declareAll file rest
    (t, here ++ later)

end SymbolTable

/-- The symbol table of a form, and a finding for each repeated declaration. -/
def Form.resolveSymbols (f : Form) : SymbolTable × List Finding :=
  SymbolTable.declareAll f.file {} f.questions

end Questionnaire
