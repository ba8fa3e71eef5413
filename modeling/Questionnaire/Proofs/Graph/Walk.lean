import Mathlib.Data.List.Chain
import Questionnaire.Analysis.Cycle

/-!
# Walks and cycles of a dependency graph

The graph-theoretic side of the cycle search, with no search in it: the edge relation on places,
what can be reached from a node, and cycles as lists of places.

A cycle is a **walk**, not a simple path: it may pass through a node more than once. So a graph is
acyclic exactly when no node reaches itself along at least one edge (`acyclic_iff`), and `Acyclic`
can be moved along any map that keeps edges.
-/

namespace Questionnaire

namespace DependencyGraph

variable {g : DependencyGraph}

/-- There is an edge from the node at `v` to the node at `w`. -/
def Edge (g : DependencyGraph) (v w : Nat) : Prop :=
  w ∈ g.edgesAt v

instance : DecidableRel g.Edge :=
  fun v w ↦ inferInstanceAs (Decidable (w ∈ g.edgesAt v))

/-- All edges lead to nodes. -/
def EdgesInRange (g : DependencyGraph) : Prop :=
  ∀ edges ∈ g.adjacent, ∀ w ∈ edges, w < g.size

instance : Decidable g.EdgesInRange :=
  inferInstanceAs (Decidable (∀ edges ∈ g.adjacent, ∀ w ∈ edges, w < g.size))

/-- The node at `w` can be reached from the node at `v` along any number of edges. -/
def Reaches (g : DependencyGraph) : Nat → Nat → Prop :=
  Relation.ReflTransGen g.Edge

/-- The walk from `v` through `between` and back to `v` follows edges; without nodes between, it is
a self loop. -/
def IsCycle (g : DependencyGraph) (v : Nat) (between : List Nat) : Prop :=
  (v :: (between ++ [v])).IsChain g.Edge

instance (v : Nat) (between : List Nat) : Decidable (g.IsCycle v between) :=
  inferInstanceAs (Decidable ((v :: (between ++ [v])).IsChain g.Edge))

/-- There is no cycle. -/
def Acyclic (g : DependencyGraph) : Prop :=
  ∀ v between, ¬ g.IsCycle v between

/-! ### Nodes and edges -/

theorem names_getElem? {i : Nat} (h : i < g.size) : g.names[i]? = some (g.nameAt i) := by
  rw [nameAt, List.getElem?_eq_getElem h]
  rfl

theorem positions_getElem? {i : Nat} (h : i < g.size) : g.positions[i]? = some (g.posAt i) := by
  rw [size, ← g.length_positions] at h
  rw [posAt, List.getElem?_eq_getElem h]
  rfl

theorem edge_iff {v w : Nat} : g.Edge v w ↔ ∃ edges, g.adjacent[v]? = some edges ∧ w ∈ edges := by
  unfold Edge edgesAt
  cases g.adjacent[v]? <;> simp

theorem Edge.source_lt {v w : Nat} (h : g.Edge v w) : v < g.size := by
  obtain ⟨edges, hedges, -⟩ := edge_iff.1 h
  rw [size, ← g.length_adjacent]
  exact (List.getElem?_eq_some_iff.1 hedges).1

theorem EdgesInRange.target_lt (hg : g.EdgesInRange) {v w : Nat} (h : g.Edge v w) : w < g.size := by
  obtain ⟨edges, hedges, hw⟩ := edge_iff.1 h
  exact hg edges (List.mem_of_getElem? hedges) w hw

theorem edgesInRange_iff : g.EdgesInRange ↔ ∀ v w, g.Edge v w → w < g.size := by
  refine ⟨fun hg v w ↦ hg.target_lt, fun h edges hedges w hw ↦ ?_⟩
  obtain ⟨v, hv⟩ := List.mem_iff_getElem?.1 hedges
  exact h v w (edge_iff.2 ⟨edges, hv, hw⟩)

/-! ### Cycles -/

/-- A walk with nodes between is the same as being reachable along at least one edge. -/
theorem exists_walk_iff {v w : Nat} :
    (∃ between, (v :: (between ++ [w])).IsChain g.Edge) ↔ Relation.TransGen g.Edge v w := by
  constructor
  · rintro ⟨between, hwalk⟩
    induction between generalizing v with
    | nil => exact .single (List.isChain_pair.1 hwalk)
    | cons u between ih =>
      obtain ⟨hvu, hrest⟩ := List.isChain_cons_cons.1 hwalk
      exact .head hvu (ih hrest)
  · intro h
    induction h using Relation.TransGen.head_induction_on with
    | single hvw => exact ⟨[], List.isChain_pair.2 hvw⟩
    | head hvu _ ih =>
      obtain ⟨between, hwalk⟩ := ih
      exact ⟨_ :: between, .cons_cons hvu hwalk⟩

theorem IsCycle.transGen {v : Nat} {between : List Nat} (h : g.IsCycle v between) :
    Relation.TransGen g.Edge v v :=
  exists_walk_iff.1 ⟨between, h⟩

/-- A graph is acyclic exactly when no node reaches itself along at least one edge. -/
theorem acyclic_iff : g.Acyclic ↔ ∀ v, ¬ Relation.TransGen g.Edge v v := by
  constructor
  · intro h v hv
    obtain ⟨between, hcycle⟩ := exists_walk_iff.2 hv
    exact h v between hcycle
  · intro h v between hcycle
    exact h v hcycle.transGen

/-- Everything on a walk can be reached from its first node. -/
theorem reaches_of_mem_walk {v x : Nat} {l : List Nat} (h : (v :: l).IsChain g.Edge)
    (hx : x ∈ v :: l) : g.Reaches v x := by
  induction l generalizing v with
  | nil =>
    rw [List.mem_singleton.1 hx]
    exact .refl
  | cons w l ih =>
    obtain ⟨hvw, hrest⟩ := List.isChain_cons_cons.1 h
    rcases List.mem_cons.1 hx with rfl | hx'
    · exact .refl
    · exact .head hvw (ih hrest hx')

theorem IsCycle.reaches {v x : Nat} {between : List Nat} (h : g.IsCycle v between)
    (hx : x ∈ v :: between) : g.Reaches v x :=
  reaches_of_mem_walk h (List.mem_append_left [v] hx)

end DependencyGraph

end Questionnaire
