import Mathlib.Data.List.Rotate
import Questionnaire.Proofs.Graph.Links
import Questionnaire.Proofs.Graph.Reported

/-!
# No cycle is reported twice

When a search is given up, all nodes of its path count as finished, and a later search goes through
nodes that are not finished only. So the paths of two searches that were given up share no node, and
neither do the cycles that are cut out of them.

`Apart` is what holds between two searches: the paths of all findings lie in the finished nodes, and
no two findings have an id in common. `Apart.searchFrom` is the step. Since different nodes have
different names, each finding has a name of its own among those of the graph, which bounds their
number.
-/

namespace Questionnaire

namespace DependencyGraph

variable {g : DependencyGraph}

/-! ### The ids of a finding -/

theorem cycleNodes_subset {path : List Nat} {target : Nat} (h : target ∈ path) :
    cycleNodes path target ⊆ path := by
  obtain ⟨rest, hpath⟩ := exists_reverse_append_eq h
  have hsegment : target :: segment path target ⊆ path := by
    intro x hx
    rw [← hpath]
    exact List.mem_append_left rest (List.mem_reverse.2 hx)
  rw [cycleNodes_eq, ← List.cons_append]
  exact List.append_subset.2 ⟨hsegment, List.cons_subset.2 ⟨h, List.nil_subset _⟩⟩

/-- The ids of a finding without the last one, which repeats the first. -/
theorem dropLast_cycle_cycleFinding (g : DependencyGraph) (path : List Nat) (target : Nat) :
    (g.cycleFinding path target).cycle.dropLast = (target :: segment path target).map g.nameAt := by
  have hcycle : (g.cycleFinding path target).cycle =
      (target :: segment path target).map g.nameAt ++ [g.nameAt target] := by
    rw [← List.map_singleton, ← List.map_append]
    rfl
  rw [hcycle, List.dropLast_concat]

/-- Paths that share no node give findings that share no id. -/
theorem Built.disjoint_cycleFinding (h : g.Built) {path path' : List Nat} {target target' : Nat}
    (hcloses : g.Closes path target) (hcloses' : g.Closes path' target')
    (hpaths : ∀ v ∈ path, v ∉ path') :
    (g.cycleFinding path target).cycle.Disjoint (g.cycleFinding path' target').cycle := by
  intro name hname hname'
  obtain ⟨v, hv, hvname⟩ := List.mem_map.1 hname
  obtain ⟨w, hw, hwname⟩ := List.mem_map.1 hname'
  have hv := cycleNodes_subset hcloses.target_mem hv
  have hw := cycleNodes_subset hcloses'.target_mem hw
  have hvw : v = w :=
    h.nameAt_inj (hcloses.isPath.inRange v hv) (hcloses'.isPath.inRange w hw)
      (hvname.trans hwname.symm)
  exact hpaths v hv (hvw ▸ hw)

/-! ### The search from all nodes -/

/-- What the findings take up between two searches: the paths they come from are finished, and no
two of them have an id in common. -/
structure Apart (g : DependencyGraph) (state : List Nat × List Finding) : Prop where
  taken : ∀ f ∈ state.2, ∃ path target, g.Closes path target ∧ path ⊆ state.1 ∧
    f = g.cycleFinding path target
  disjoint : state.2.Pairwise fun f f' ↦ f.cycle.Disjoint f'.cycle

/-- More nodes are finished, and nothing is found. -/
theorem Apart.mono {finished later : List Nat} {findings : List Finding}
    (h : g.Apart (finished, findings)) (hsub : finished ⊆ later) : g.Apart (later, findings) where
  taken := by
    intro f hf
    obtain ⟨path, target, hcloses, hpath, heq⟩ := h.taken f hf
    exact ⟨path, target, hcloses, fun v hv ↦ hsub (hpath hv), heq⟩
  disjoint := h.disjoint

/-- **One search.** A path that is given up is fresh: it holds no node that was finished before it,
so none of a path that was given up before. -/
theorem Apart.searchFrom (hg : g.Built) {state : List Nat × List Finding} {v : Nat}
    (h : g.Apart state) (hv : v < g.size) : g.Apart (g.searchFrom state v) := by
  rcases searchFrom_cases hg.edges_inRange state hv with ⟨-, heq⟩ | ⟨later, hgrows, -, heq⟩ |
    ⟨later, path, target, -, ⟨hgrows, hfresh, hcloses⟩, heq⟩
  · rw [heq]
    exact h
  · rw [heq]
    exact h.mono hgrows.subset
  · rw [heq]
    have hlater : g.Apart (path ++ later, state.2) :=
      h.mono fun x hx ↦ List.mem_append_right path (hgrows.subset hx)
    refine ⟨List.forall_mem_append.2 ⟨hlater.taken, ?_⟩,
      List.pairwise_append.2 ⟨h.disjoint, List.pairwise_singleton _ _, fun f hf f' hf' ↦ ?_⟩⟩
    · rw [List.forall_mem_singleton]
      exact ⟨path, target, hcloses, List.subset_append_left path later, rfl⟩
    · obtain ⟨path', target', hcloses', hpath', rfl⟩ := h.taken f hf
      rw [List.mem_singleton.1 hf']
      exact hg.disjoint_cycleFinding hcloses' hcloses fun x hx hx' ↦
        hfresh x hx' (hgrows.subset (hpath' hx))

/-- **All searches.** -/
theorem apart_cycles (hg : g.Built) :
    g.Apart ((List.range g.size).foldl g.searchFrom ([], [])) := by
  refine List.foldlRecOn _ _ ⟨by simp, List.Pairwise.nil⟩ fun state h v hv ↦ ?_
  exact h.searchFrom hg (List.mem_range.1 hv)

/-! ### The findings -/

/-- The first id of a finding is one of its ids, also without the last. -/
theorem name_mem_dropLast_cycle (hg : g.Built) {f : Finding} (hf : f ∈ g.cycles) :
    f.name ∈ f.cycle.dropLast := by
  obtain ⟨path, target, -, -, rfl⟩ := (apart_cycles hg).taken f hf
  rw [dropLast_cycle_cycleFinding]
  exact List.mem_cons_self

/-- Each finding has a name of its own among those of the graph. -/
theorem length_cycles_le (hg : g.Built) : g.cycles.length ≤ g.size := by
  have hnodup : (g.cycles.map Finding.name).Nodup := by
    refine List.pairwise_map.2 ((apart_cycles hg).disjoint.imp_of_mem fun hf hf' hdisjoint heq ↦ ?_)
    have hname := List.mem_of_mem_dropLast (name_mem_dropLast_cycle hg hf)
    have hname' := List.mem_of_mem_dropLast (name_mem_dropLast_cycle hg hf')
    exact hdisjoint hname (heq ▸ hname')
  have hsub : g.cycles.map Finding.name ⊆ g.names := by
    intro name hname
    obtain ⟨f, hf, rfl⟩ := List.mem_map.1 hname
    obtain ⟨path, target, hcloses, -, rfl⟩ := (apart_cycles hg).taken f hf
    exact List.mem_of_getElem? (names_getElem? (hcloses.isPath.inRange target hcloses.target_mem))
  have hle := (hnodup.subperm hsub).length_le
  rwa [List.length_map] at hle

/-- **No cycle is reported twice.** Over distinct names, two findings have no id in common. So no
two of them are the same cycle, from whichever of its nodes it is listed, and there are at most as
many findings as nodes. -/
theorem cycles_report_once (hg : g.EdgesInRange) (hnames : g.names.Nodup) :
    (∀ (i j : Nat) (f f' : Finding), g.cycles[i]? = some f → g.cycles[j]? = some f' → i ≠ j →
      ∀ name ∈ f.cycle, name ∉ f'.cycle) ∧
    (∀ (i j : Nat) (f f' : Finding), g.cycles[i]? = some f → g.cycles[j]? = some f' →
      f.cycle.dropLast.IsRotated f'.cycle.dropLast → i = j) ∧
    g.cycles.length ≤ g.size := by
  have hbuilt : g.Built := ⟨hnames, hg⟩
  have hdisjoint : ∀ (i j : Nat) (f f' : Finding), g.cycles[i]? = some f →
      g.cycles[j]? = some f' → i ≠ j → f.cycle.Disjoint f'.cycle := by
    intro i j f f' hf hf' hij
    have hpairwise := List.pairwise_iff_getElem.1 (apart_cycles hbuilt).disjoint
    obtain ⟨hi, rfl⟩ := List.getElem?_eq_some_iff.1 hf
    obtain ⟨hj, rfl⟩ := List.getElem?_eq_some_iff.1 hf'
    rcases Nat.lt_or_gt_of_ne hij with hlt | hgt
    · exact hpairwise i j hi hj hlt
    · exact fun name hname hname' ↦ hpairwise j i hj hi hgt hname' hname
  refine ⟨hdisjoint, fun i j f f' hf hf' hrotated ↦ ?_, length_cycles_le hbuilt⟩
  by_contra hij
  -- a rotation has the same ids, and there is one: the first
  have hname := name_mem_dropLast_cycle hbuilt (List.mem_of_getElem? hf)
  exact hdisjoint i j f f' hf hf' hij (List.mem_of_mem_dropLast hname)
    (List.mem_of_mem_dropLast (hrotated.mem_iff.1 hname))

/-- Two cycles with an edge from the second to the first: the search from `r` meets nodes of a cycle
that is reported already. -/
def adjoiningLoops : DependencyGraph where
  names := ["p", "q", "r", "s"]
  positions := [{}, {}, {}, {}]
  index := [("p", 0), ("q", 1), ("r", 2), ("s", 3)]
  adjacent := [[1], [0], [1, 3], [0, 2]]

/-- Both cycles are found, and they have no id in common. -/
theorem cycles_report_adjoiningLoops :
    adjoiningLoops.EdgesInRange ∧ adjoiningLoops.names.Nodup ∧
    adjoiningLoops.cycles.map Finding.cycle = [["p", "q", "p"], ["r", "s", "r"]] ∧
    (∀ f f' : Finding, adjoiningLoops.cycles[0]? = some f →
      adjoiningLoops.cycles[1]? = some f' → ∀ name ∈ f.cycle, name ∉ f'.cycle) ∧
    adjoiningLoops.cycles.length ≤ 4 := by
  have hrange : adjoiningLoops.EdgesInRange := by decide
  have hnames : adjoiningLoops.names.Nodup := by decide
  obtain ⟨hdisjoint, -, hlength⟩ := cycles_report_once hrange hnames
  exact ⟨hrange, hnames, by decide, fun f f' hf hf' ↦ hdisjoint 0 1 f f' hf hf' (by decide),
    hlength⟩

end DependencyGraph

end Questionnaire
