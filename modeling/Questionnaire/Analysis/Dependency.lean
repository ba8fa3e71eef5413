import Questionnaire.Analysis.Symbols

/-!
# Dependencies

A calculated question depends on the questions that its expression refers to, and a question or
calculated question directly in the block of a condition depends on those that the guard refers to.
`Form.dependents` lists, in document order, the questions that depend on something in this way, each
with what it depends on.

The dependency graph has a node for every declared id, at the place of its symbol, and behind them
one for every other id that is met, in the order they are met. The edges of a node are its
dependencies in the order they are first met, without repetition.
-/

namespace Questionnaire

/-- A question and the ids that it depends on. -/
structure Dependent where
  source : String
  /-- The position of the question that depends. -/
  pos : Position
  targets : List String
  deriving DecidableEq, Inhabited

namespace Statement

/-- A question with what an expression refers to. -/
def dependentOn (e : Expr) (q : Question) : Dependent :=
  ⟨q.id, q.pos, e.references.map Prod.snd⟩

mutual

/-- The questions that depend on something, in a statement and those below it: those of a block that
depend on its guard come before those of the block's own statements. -/
def dependents : Statement → List Dependent
  | question _ => []
  | calculated q value => [dependentOn value q]
  | condition _ guard body =>
    (body.filterMap question?).map (dependentOn guard) ++ dependentsAll body

/-- The questions that depend on something, in a list of statements. -/
def dependentsAll : List Statement → List Dependent
  | [] => []
  | s :: rest => dependents s ++ dependentsAll rest

end

end Statement

/-- The questions of a form that depend on something, in document order. -/
def Form.dependents (f : Form) : List Dependent :=
  Statement.dependentsAll f.statements

/-- A dependency graph. The nodes are numbered, and each has a name, the position of its declaration
if it has one, and the places of the nodes it has edges to. -/
structure DependencyGraph where
  file : String := ""
  names : List String := []
  positions : List Position := []
  /-- Where each node is found by its name. -/
  index : List (String × Nat) := []
  adjacent : List (List Nat) := []
  length_positions : positions.length = names.length := by decide
  length_adjacent : adjacent.length = names.length := by decide
  /-- Every node is found at its own place. -/
  indexed : index = names.zipIdx := by decide
  deriving DecidableEq

namespace DependencyGraph

instance : Inhabited DependencyGraph :=
  ⟨{}⟩

/-- The number of nodes. -/
def size (g : DependencyGraph) : Nat :=
  g.names.length

/-- The place of a name. -/
def index? (g : DependencyGraph) (name : String) : Option Nat :=
  g.index.lookup name

/-- The name at a place. -/
def nameAt (g : DependencyGraph) (i : Nat) : String :=
  g.names[i]?.getD ""

/-- The declaration position at a place. -/
def posAt (g : DependencyGraph) (i : Nat) : Position :=
  g.positions[i]?.getD {}

/-- The places that the node at a place has edges to. -/
def edgesAt (g : DependencyGraph) (i : Nat) : List Nat :=
  g.adjacent[i]?.getD []

/-- A graph with one more node behind the others, without edges. -/
def append (g : DependencyGraph) (name : String) (pos : Position) : DependencyGraph where
  file := g.file
  names := g.names ++ [name]
  positions := g.positions ++ [pos]
  index := g.index ++ [(name, g.size)]
  adjacent := g.adjacent ++ [[]]
  length_positions := by simp [g.length_positions]
  length_adjacent := by simp [g.length_adjacent]
  indexed := by
    rw [g.indexed, List.zipIdx_append, Nat.zero_add]
    rfl

/-- A graph that has a node with the given name, and the place of that node. -/
def withNode (g : DependencyGraph) (name : String) (pos : Position) : DependencyGraph × Nat :=
  match g.index? name with
  | some i => (g, i)
  | none => (g.append name pos, g.size)

/-- Edges with one more, behind those that are there, unless it is one of them. -/
def addEdge (j : Nat) (edges : List Nat) : List Nat :=
  if edges.contains j then edges else edges ++ [j]

/-- A graph with an edge between two places. -/
def withEdge (g : DependencyGraph) (i j : Nat) : DependencyGraph :=
  { g with
    adjacent := g.adjacent.modify i (addEdge j)
    length_adjacent := by rw [List.length_modify, g.length_adjacent] }

/-- A graph with an edge from a place to the node with the given name. -/
def withTarget (i : Nat) (g : DependencyGraph) (name : String) : DependencyGraph :=
  let (g, j) := g.withNode name {}
  g.withEdge i j

/-- A graph with the node of a question and its edges. -/
def withDependent (g : DependencyGraph) (d : Dependent) : DependencyGraph :=
  let (g, i) := g.withNode d.source d.pos
  d.targets.foldl (withTarget i) g

/-- The graph of some symbols, without edges. -/
def ofSymbols (file : String) (symbols : List Symbol) : DependencyGraph :=
  symbols.foldl (fun g s ↦ (g.withNode s.name s.pos).1) { file }

/-- The names that a name depends on, in the order of its edges, if the name has a node. -/
def dependsOn? (g : DependencyGraph) (name : String) : Option (List String) :=
  (g.index? name).map fun i ↦ (g.edgesAt i).map g.nameAt

end DependencyGraph

/-- The dependency graph of a form with its symbol table. -/
def Form.dependencyGraph (f : Form) (t : SymbolTable) : DependencyGraph :=
  f.dependents.foldl DependencyGraph.withDependent (.ofSymbols f.file t.symbols)

end Questionnaire
