import Mathlib.Data.List.Nodup
import Mathlib.Data.List.Perm.Subperm
import Questionnaire.Proofs.Graph.Walk

/-!
# What the search for cycles does

The search is not a textbook one: at its first edge back to the path it gives up the whole tree, so
nodes of the path count as finished although some of their edges were never followed. What holds of
every finished node all the same is `Settled`: either a cycle that was reported can be reached from
it, or no cycle can. That is kept by both ways to finish a node:

* a node is finished in the ordinary way only after all nodes it has edges to, so what holds of
  those holds of it (`settled_of_edges`);
* a node of an abandoned path reaches the last node of the path, and with it the cycle that was
  closed there (`Closes.reported`).

What a search below a node may come to is said by `visit_visits`. It is the only lemma that opens
the search. `searchFrom_cases` reads off it what the search from one starting node does to the state
between two searches; the search from all nodes in turn is taken up from there.
-/

namespace Questionnaire

namespace DependencyGraph

variable {g : DependencyGraph}

/-! ### Paths -/

/-- A path of the search, the last node first: distinct nodes, each with an edge to the one before
it in the list. -/
structure IsPath (g : DependencyGraph) (path : List Nat) : Prop where
  chain : path.IsChain fun v w ↦ g.Edge w v
  nodup : path.Nodup
  inRange : ∀ v ∈ path, v < g.size

theorem isPath_singleton {v : Nat} (h : v < g.size) : g.IsPath [v] where
  chain := .singleton v
  nodup := List.nodup_singleton v
  inRange := by simpa using h

theorem IsPath.cons {v w : Nat} {path : List Nat} (h : g.IsPath (v :: path)) (hvw : g.Edge v w)
    (hw : w < g.size) (hfresh : w ∉ v :: path) : g.IsPath (w :: v :: path) where
  chain := .cons_cons hvw h.chain
  nodup := List.nodup_cons.2 ⟨hfresh, h.nodup⟩
  inRange := List.forall_mem_cons.2 ⟨hw, h.inRange⟩

/-- A path is no longer than the graph has nodes. This bounds the depth of the search. -/
theorem IsPath.length_le {path : List Nat} (h : g.IsPath path) : path.length ≤ g.size := by
  have hsub : path ⊆ List.range g.size := fun v hv ↦ List.mem_range.2 (h.inRange v hv)
  have hle := (h.nodup.subperm hsub).length_le
  rwa [List.length_range] at hle

/-- Every node of a path reaches its last node. -/
theorem IsPath.reaches_last {v x : Nat} {path : List Nat} (h : g.IsPath (v :: path))
    (hx : x ∈ v :: path) : g.Reaches x v := by
  have hchain := h.chain
  clear h
  induction path generalizing v with
  | nil =>
    rw [List.mem_singleton.1 hx]
    exact .refl
  | cons u path ih =>
    obtain ⟨huv, hrest⟩ := List.isChain_cons_cons.1 hchain
    rcases List.mem_cons.1 hx with rfl | hx'
    · exact .refl
    · exact .tail (ih hx' hrest) huv

/-! ### Closing a cycle -/

/-- The last node of a path has an edge back to the node `target` of the path. -/
structure Closes (g : DependencyGraph) (path : List Nat) (target : Nat) : Prop where
  isPath : g.IsPath path
  target_mem : target ∈ path
  edge : ∀ v ∈ path.head?, g.Edge v target

/-- The nodes of a closed cycle between `target` and itself: the path behind `target`. -/
def segment (path : List Nat) (target : Nat) : List Nat :=
  (path.takeWhile (· != target)).reverse

theorem cycleNodes_eq (path : List Nat) (target : Nat) :
    cycleNodes path target = target :: (segment path target ++ [target]) :=
  rfl

theorem takeWhile_ne_append {path : List Nat} {target : Nat} (h : target ∈ path) :
    ∃ rest, path = path.takeWhile (· != target) ++ target :: rest := by
  induction path with
  | nil => exact absurd h List.not_mem_nil
  | cons v path ih =>
    by_cases hv : v = target
    · exact ⟨path, by simp [hv]⟩
    · obtain ⟨rest, hrest⟩ := ih ((List.mem_cons.1 h).resolve_left (Ne.symm hv))
      refine ⟨rest, ?_⟩
      rw [List.takeWhile_cons_of_pos (by simpa using hv), List.cons_append, ← hrest]

/-- **What is reported is a cycle.** -/
theorem Closes.isCycle {path : List Nat} {target : Nat} (h : g.Closes path target) :
    g.IsCycle target (segment path target) := by
  obtain ⟨rest, hpath⟩ := takeWhile_ne_append h.target_mem
  set front := path.takeWhile (· != target) with hfront
  have hchain : (front ++ [target]).IsChain fun v w ↦ g.Edge w v := by
    have := h.isPath.chain
    rw [hpath, List.append_cons] at this
    exact this.left_of_append
  -- with the closing edge in front, this is the cycle read backwards
  have hback : (target :: (front ++ [target])).IsChain fun v w ↦ g.Edge w v := by
    refine hchain.cons fun v hv ↦ h.edge v ?_
    rw [hpath]
    cases hf : front with
    | nil => simpa [hf] using hv
    | cons u us => simpa [hf] using hv
  have hrev := List.isChain_reverse.2 hback
  rwa [List.reverse_cons, List.reverse_append, List.reverse_singleton, List.singleton_append,
    List.cons_append] at hrev

/-- A cycle that can be reached from `v` is what the finding `f` reports. -/
def ReportedFrom (g : DependencyGraph) (v : Nat) (f : Finding) : Prop :=
  ∃ w between, g.IsCycle w between ∧ f.cycle = (w :: (between ++ [w])).map g.nameAt ∧
    ∀ x ∈ w :: between, g.Reaches v x

/-- Every node of an abandoned path reaches the cycle that was closed at its end. -/
theorem Closes.reported {path : List Nat} {target v : Nat} (h : g.Closes path target)
    (hv : v ∈ path) : g.ReportedFrom v (g.cycleFinding path target) := by
  have hnames : (g.cycleFinding path target).cycle =
      (target :: (segment path target ++ [target])).map g.nameAt := by
    rw [← cycleNodes_eq]
    rfl
  refine ⟨target, segment path target, h.isCycle, hnames, fun x hx ↦ ?_⟩
  -- up the path to its last node, over the closing edge, and around the cycle
  obtain - | ⟨last, rest⟩ := path
  · exact absurd hv List.not_mem_nil
  · have hlast : g.Reaches v last := h.isPath.reaches_last hv
    exact (hlast.tail (h.edge last rfl)).trans (h.isCycle.reaches hx)

/-! ### Finishing nodes -/

/-- `later` comes from `finished` by finishing new nodes one at a time, each after all nodes it has
edges to. -/
inductive Grows (g : DependencyGraph) (finished : List Nat) : List Nat → Prop
  | refl : Grows g finished finished
  | finish {later : List Nat} {v : Nat} (grows : Grows g finished later) (inRange : v < g.size)
      (new : v ∉ later) (edges : ∀ w, g.Edge v w → w ∈ later) : Grows g finished (v :: later)

namespace Grows

variable {finished later : List Nat}

theorem subset (h : g.Grows finished later) : finished ⊆ later := by
  induction h with
  | refl => exact List.Subset.refl _
  | finish _ _ _ _ ih => exact fun v hv ↦ List.mem_cons_of_mem _ (ih hv)

theorem trans {last : List Nat} (h : g.Grows finished later) (h' : g.Grows later last) :
    g.Grows finished last := by
  induction h' with
  | refl => exact h
  | finish _ hrange hnew hedges ih => exact ih.finish hrange hnew hedges

/-- What passes from the targets of a node's edges to the node holds of all finished nodes. -/
theorem forall_mem {P : Nat → Prop} (hP : ∀ v, (∀ w, g.Edge v w → P w) → P v)
    (h : g.Grows finished later) (hfin : ∀ v ∈ finished, P v) : ∀ v ∈ later, P v := by
  induction h with
  | refl => exact hfin
  | finish _ _ _ hedges ih =>
    exact List.forall_mem_cons.2 ⟨hP _ fun w hw ↦ ih w (hedges w hw), ih⟩

end Grows

/-! ### The search below a node -/

/-- A search was given up with `path` behind it, at an edge back to `target`. -/
structure Abandoned (g : DependencyGraph) (finished later path : List Nat) (target : Nat) :
    Prop where
  grows : g.Grows finished later
  fresh : ∀ v ∈ path, v ∉ later
  closes : g.Closes path target

/-- The outcome of following edges from the last node of `path` to `ws`. -/
def Outcome.Follows (g : DependencyGraph) (path finished ws : List Nat) : Outcome → Prop
  | .clear later => g.Grows finished later ∧ (∀ x ∈ path, x ∉ later) ∧ ∀ w ∈ ws, w ∈ later
  | .cycle later path' target => path <:+ path' ∧ g.Abandoned finished later path' target

/-- The outcome of a search below `v`, to which `path` leads. -/
def Outcome.Visits (g : DependencyGraph) (path finished : List Nat) (v : Nat) : Outcome → Prop
  | .clear later => g.Grows finished later ∧ (∀ x ∈ path, x ∉ later) ∧ v ∈ later
  | .cycle later path' target => (v :: path) <:+ path' ∧ g.Abandoned finished later path' target

/-- **One edge.** If the search below any new node does what it should, so does following an edge
to it. -/
theorem follow_follows {v w : Nat} {path finished ws : List Nat}
    {below : List Nat → Nat → Outcome} {o : Outcome} (hpath : g.IsPath (v :: path))
    (hbelow : ∀ later, w ∉ v :: path → w ∉ later → (∀ x ∈ v :: path, x ∉ later) →
      (below later w).Visits g (v :: path) later w)
    (hw : g.Edge v w) (ho : o.Follows g (v :: path) finished ws) :
    (follow (v :: path) below o w).Follows g (v :: path) finished (ws ++ [w]) := by
  rcases o with later | ⟨later, path', target⟩
  · obtain ⟨hgrows, hfresh, hws⟩ := ho
    simp only [follow, List.contains_iff_mem]
    split
    · -- an edge back to the path
      rename_i hmem
      exact ⟨List.suffix_rfl, hgrows, hfresh, hpath, hmem, by simpa using hw⟩
    · rename_i hoff
      split
      · -- an edge to a finished node
        rename_i hmem
        exact ⟨hgrows, hfresh, List.forall_mem_append.2 ⟨hws, by simpa using hmem⟩⟩
      · -- an edge to a new node
        rename_i hnew
        have hvisit := hbelow later hoff hnew hfresh
        cases hb : below later w with
        | clear last =>
          rw [hb] at hvisit
          obtain ⟨hgrows', hfresh', hmem⟩ := hvisit
          refine ⟨hgrows.trans hgrows', hfresh', List.forall_mem_append.2 ⟨fun x hx ↦ ?_, ?_⟩⟩
          · exact hgrows'.subset (hws x hx)
          · simpa using hmem
        | cycle last path' target =>
          rw [hb] at hvisit
          obtain ⟨hsuf, hgrows', hfresh', hcloses⟩ := hvisit
          exact ⟨(List.suffix_cons w _).trans hsuf, hgrows.trans hgrows', hfresh', hcloses⟩
  · exact ho

/-- **All edges of a node**, by induction on those still to follow. -/
theorem foldl_follow_follows {v : Nat} {path finished : List Nat}
    {below : List Nat → Nat → Outcome} (hpath : g.IsPath (v :: path))
    (hbelow : ∀ w later, g.Edge v w → w ∉ v :: path → w ∉ later → (∀ x ∈ v :: path, x ∉ later) →
      (below later w).Visits g (v :: path) later w) :
    ∀ (ws ws' : List Nat) {o : Outcome}, (∀ w ∈ ws, g.Edge v w) →
      o.Follows g (v :: path) finished ws' →
      (ws.foldl (follow (v :: path) below) o).Follows g (v :: path) finished (ws' ++ ws) := by
  intro ws
  induction ws with
  | nil =>
    intro ws' o _ ho
    rwa [List.append_nil]
  | cons w ws ih =>
    intro ws' o hws ho
    have hw : g.Edge v w := hws w List.mem_cons_self
    rw [List.append_cons]
    exact ih _ (fun x hx ↦ hws x (List.mem_cons_of_mem w hx))
      (follow_follows hpath (fun later ↦ hbelow w later hw) hw ho)

/-- **The search below a node.** It either finishes the node, or is given up at a cycle with the
node on its path. The steps suffice because a path is no longer than the graph has nodes. -/
theorem visit_visits (hg : g.EdgesInRange) :
    ∀ {steps : Nat} {path finished : List Nat} {v : Nat}, g.IsPath (v :: path) →
      (∀ x ∈ v :: path, x ∉ finished) → g.size < steps + path.length →
      (g.visit steps path finished v).Visits g path finished v := by
  intro steps
  induction steps with
  | zero =>
    intro path finished v hpath _ hsteps
    have hle := hpath.length_le
    rw [List.length_cons] at hle
    omega
  | succ steps ih =>
    intro path finished v hpath hfresh hsteps
    have hbelow : ∀ w later, g.Edge v w → w ∉ v :: path → w ∉ later →
        (∀ x ∈ v :: path, x ∉ later) →
        (g.visit steps (v :: path) later w).Visits g (v :: path) later w := by
      intro w later hw hoff hnew hlater
      refine ih (hpath.cons hw (hg.target_lt hw) hoff) (List.forall_mem_cons.2 ⟨hnew, hlater⟩) ?_
      rw [List.length_cons]
      omega
    have hedges := foldl_follow_follows hpath hbelow (g.edgesAt v) [] (o := .clear finished)
      (fun _ hw ↦ hw) ⟨.refl, hfresh, by simp⟩
    rw [visit]
    cases ho : (g.edgesAt v).foldl (follow (v :: path) (g.visit steps (v :: path)))
        (.clear finished) with
    | clear later =>
      rw [ho] at hedges
      obtain ⟨hgrows, hlater, hmem⟩ := hedges
      obtain ⟨hv, hrest⟩ := List.forall_mem_cons.1 hlater
      refine ⟨hgrows.finish (hpath.inRange v List.mem_cons_self) hv fun w hw ↦ hmem w hw,
        fun x hx hx' ↦ ?_, List.mem_cons_self⟩
      rcases List.mem_cons.1 hx' with rfl | hx'
      · exact (List.nodup_cons.1 hpath.nodup).1 hx
      · exact hrest x hx hx'
    | cycle later path' target =>
      rw [ho] at hedges
      exact hedges

/-! ### The search from one starting node -/

/-- **What one search may come to.** The starting node was finished before; or it is finished now,
and nothing is found; or the search is given up, the nodes of its path count as finished, and the
cycle at the end of the path is found. -/
theorem searchFrom_cases (hg : g.EdgesInRange) (state : List Nat × List Finding) {v : Nat}
    (hv : v < g.size) :
    (v ∈ state.1 ∧ g.searchFrom state v = state) ∨
    (∃ later, g.Grows state.1 later ∧ v ∈ later ∧ g.searchFrom state v = (later, state.2)) ∨
    ∃ later path target, v ∈ path ∧ g.Abandoned state.1 later path target ∧
      g.searchFrom state v = (path ++ later, state.2 ++ [g.cycleFinding path target]) := by
  rw [searchFrom]
  by_cases hmem : v ∈ state.1
  · exact Or.inl ⟨hmem, if_pos (List.contains_iff_mem.2 hmem)⟩
  · rw [if_neg fun h ↦ hmem (List.contains_iff_mem.1 h)]
    have hvisit : (g.visit (g.size + 1) [] state.1 v).Visits g [] state.1 v :=
      visit_visits hg (isPath_singleton hv) (by simpa using hmem) (by simp)
    cases ho : g.visit (g.size + 1) [] state.1 v with
    | clear later =>
      rw [ho] at hvisit
      obtain ⟨hgrows, -, hlater⟩ := hvisit
      exact Or.inr (Or.inl ⟨later, hgrows, hlater, rfl⟩)
    | cycle later path target =>
      rw [ho] at hvisit
      obtain ⟨hsuf, habandoned⟩ := hvisit
      exact Or.inr (Or.inr ⟨later, path, target, hsuf.subset List.mem_cons_self, habandoned, rfl⟩)

end DependencyGraph

end Questionnaire
