import Questionnaire.Analysis.Dependency

/-!
# Cycles of dependencies

The search goes through a dependency graph depth first, from every node that no earlier search has
finished. It keeps the path from the node it started at, the last node first, and the nodes it has
finished. An edge back to a node of the path closes a cycle: the segment of the path from that node
on. The search from that starting node then ends, and all nodes of its path count as finished, so
that no cycle is reported twice.

Each step down puts another node on the path, so a search goes no deeper than the graph has nodes;
that bound is the number of steps `visit` is given.
-/

namespace Questionnaire

namespace DependencyGraph

/-- What a search below a node comes to, with the nodes finished by then. -/
inductive Outcome where
  /-- No cycle was met. -/
  | clear (finished : List Nat)
  /-- The last node of the path has an edge back to the node `target` of the path. -/
  | cycle (finished path : List Nat) (target : Nat)
  deriving DecidableEq

/-- Marks a node as finished when no cycle was met below it. -/
def Outcome.finish (v : Nat) : Outcome → Outcome
  | clear finished => clear (v :: finished)
  | c => c

/-- Follows an edge from the last node of a path: back to the path it closes a cycle, to a finished
node it leads nowhere, and to any other the search goes on `below`. Once a cycle is met no further
edge is followed. -/
def follow (path : List Nat) (below : List Nat → Nat → Outcome) : Outcome → Nat → Outcome
  | .cycle finished path target, _ => .cycle finished path target
  | .clear finished, w =>
    if path.contains w then .cycle finished path w
    else if finished.contains w then .clear finished
    else below finished w

/-- The search below a node, where `path` leads to it and `finished` are the nodes done before. -/
def visit (g : DependencyGraph) : Nat → List Nat → List Nat → Nat → Outcome
  | 0, _, finished, _ => .clear finished
  | steps + 1, path, finished, v =>
    ((g.edgesAt v).foldl (follow (v :: path) (visit g steps (v :: path)))
      (Outcome.clear finished)).finish v

/-- The nodes of the cycle that an edge from the last node of a path back to `target` closes, with
`target` at both ends. -/
def cycleNodes (path : List Nat) (target : Nat) : List Nat :=
  target :: ((path.takeWhile (· != target)).reverse ++ [target])

/-- The finding for a cycle, at the declaration of its first node. -/
def cycleFinding (g : DependencyGraph) (path : List Nat) (target : Nat) : Finding :=
  .cyclicDependency (.ofPosition g.file (g.posAt target))
    ((cycleNodes path target).map g.nameAt)

/-- The search from one starting node: the nodes finished and the cycles found so far, and after
it. -/
def searchFrom (g : DependencyGraph) (state : List Nat × List Finding) (v : Nat) :
    List Nat × List Finding :=
  if state.1.contains v then state
  else match g.visit (g.size + 1) [] state.1 v with
    | .clear finished => (finished, state.2)
    | .cycle finished path target =>
      (path ++ finished, state.2 ++ [g.cycleFinding path target])

/-- The cycles of a graph, as the search finds them from each node in turn. -/
def cycles (g : DependencyGraph) : List Finding :=
  ((List.range g.size).foldl g.searchFrom ([], [])).2

end DependencyGraph

end Questionnaire
