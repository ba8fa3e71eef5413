import Questionnaire.Proofs.Graph.Completeness

/-!
# What the findings of the search say

A finding is cut out of the path of a search that was given up. Since the nodes of a path are
distinct, so are those of the segment behind the target of the closing edge: what is reported is a
**simple** cycle, which passes through none of its nodes twice.

`cycles_report_simple` is about the finding itself, field by field: the ids it lists are those of
the nodes of such a cycle, with the first repeated at the end, and it stands at the position
recorded for the first.
-/

namespace Questionnaire

namespace DependencyGraph

variable {g : DependencyGraph}

/-- A cycle through nodes of the graph that passes through none of them twice. -/
structure IsSimpleCycle (g : DependencyGraph) (v : Nat) (between : List Nat) : Prop where
  isCycle : g.IsCycle v between
  nodup : (v :: between).Nodup
  inRange : ∀ x ∈ v :: between, x < g.size

/-- What a path holds from its last node back to `target` is the segment behind `target`, and
`target` in front of it. -/
theorem exists_reverse_append_eq {path : List Nat} {target : Nat} (h : target ∈ path) :
    ∃ rest, (target :: segment path target).reverse ++ rest = path := by
  obtain ⟨rest, hpath⟩ := takeWhile_ne_append h
  refine ⟨rest, ?_⟩
  rw [segment, List.reverse_cons, List.reverse_reverse, ← List.append_cons]
  exact hpath.symm

/-- **What is closed is a simple cycle.** -/
theorem Closes.isSimpleCycle {path : List Nat} {target : Nat} (h : g.Closes path target) :
    g.IsSimpleCycle target (segment path target) := by
  obtain ⟨rest, hpath⟩ := exists_reverse_append_eq h.target_mem
  refine ⟨h.isCycle, ?_, fun x hx ↦ h.isPath.inRange x ?_⟩
  · have hnodup := h.isPath.nodup
    rw [← hpath] at hnodup
    exact List.nodup_reverse.1 hnodup.of_append_left
  · rw [← hpath]
    exact List.mem_append_left rest (List.mem_reverse.2 hx)

/-- **Every cycle that is reported is real and simple.** The ids of a finding are those of a simple
cycle of the graph, from its first node around to the first node again. The finding has the name of
that node, and stands in the file of the graph at the position recorded for the node. -/
theorem cycles_report_simple (hg : g.EdgesInRange) {f : Finding} (hf : f ∈ g.cycles) :
    ∃ v between, g.IsSimpleCycle v between ∧
      f.cycle = (v :: (between ++ [v])).map g.nameAt ∧
      ∃ p, g.names[v]? = some f.name ∧ g.positions[v]? = some p ∧
        f.location = { file := g.file, line := p.line, column := p.column } := by
  obtain ⟨path, target, hcloses, rfl⟩ := (searched_cycles hg).closes f hf
  have hsimple := hcloses.isSimpleCycle
  have htarget := hsimple.inRange target List.mem_cons_self
  exact ⟨target, segment path target, hsimple, rfl, g.posAt target, names_getElem? htarget,
    positions_getElem? htarget, rfl⟩

/-- The search from `a` comes to a cycle that `a` is not on, and the search from `d` to one of its
own. -/
def tailedLoop : DependencyGraph where
  file := "loop.json"
  names := ["a", "b", "c", "d"]
  positions := [{}, ⟨2, 3⟩, {}, ⟨4, 3⟩]
  index := [("a", 0), ("b", 1), ("c", 2), ("d", 3)]
  adjacent := [[1], [2], [1, 3], [0, 3]]

/-- What stands on the path in front of the cycle is not reported with it. -/
theorem cycles_report_tailedLoop :
    tailedLoop.EdgesInRange ∧ ∃ f ∈ tailedLoop.cycles, f.cycle = ["b", "c", "b"] ∧
      ∃ v between, tailedLoop.IsSimpleCycle v between ∧
        f.cycle = (v :: (between ++ [v])).map tailedLoop.nameAt ∧
        ∃ p, tailedLoop.names[v]? = some f.name ∧ tailedLoop.positions[v]? = some p ∧
          f.location = { file := "loop.json", line := p.line, column := p.column } := by
  have hrange : tailedLoop.EdgesInRange := by decide
  have hmem : tailedLoop.cycleFinding [2, 1, 0] 1 ∈ tailedLoop.cycles := by decide
  exact ⟨hrange, _, hmem, by decide, cycles_report_simple hrange hmem⟩

end DependencyGraph

end Questionnaire
