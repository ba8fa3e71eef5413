import Questionnaire.Proofs.Graph.Search

/-!
# The search finds a cycle wherever there is one

The search from all nodes in turn, run on `Searched`: what every finished node is known to be, and
what every finding so far comes from. `Searched.searchFrom` is the step and `searched_foldl` the
run; after the run all nodes are finished.

Nothing is said of *which* cycles are found. A cycle may go unreported, but then another one was,
and it can be reached from every node of the first.
-/

namespace Questionnaire

namespace DependencyGraph

variable {g : DependencyGraph}

/-! ### Settled nodes -/

/-- A cycle that is among the findings can be reached from `v`, or no cycle can. -/
def Settled (g : DependencyGraph) (findings : List Finding) (v : Nat) : Prop :=
  (∃ f ∈ findings, g.ReportedFrom v f) ∨ ∀ w, g.Reaches v w → ¬ Relation.TransGen g.Edge w w

theorem ReportedFrom.of_edge {v w : Nat} {f : Finding} (hvw : g.Edge v w)
    (h : g.ReportedFrom w f) : g.ReportedFrom v f := by
  obtain ⟨u, between, hcycle, hnames, hreach⟩ := h
  exact ⟨u, between, hcycle, hnames, fun x hx ↦ .head hvw (hreach x hx)⟩

theorem Settled.append {findings : List Finding} {v : Nat} (h : g.Settled findings v)
    (more : List Finding) : g.Settled (findings ++ more) v := by
  rcases h with ⟨f, hf, hreported⟩ | hclear
  · exact Or.inl ⟨f, List.mem_append_left more hf, hreported⟩
  · exact Or.inr hclear

/-- **A node is settled once all nodes it has edges to are.** If none of those reaches a cycle, the
node is on none itself, since the cycle would pass through one of them. -/
theorem settled_of_edges {findings : List Finding} {v : Nat}
    (h : ∀ w, g.Edge v w → g.Settled findings w) : g.Settled findings v := by
  by_cases hreported : ∃ w, g.Edge v w ∧ ∃ f ∈ findings, g.ReportedFrom w f
  · obtain ⟨w, hvw, f, hf, hw⟩ := hreported
    exact Or.inl ⟨f, hf, hw.of_edge hvw⟩
  · refine Or.inr fun x hvx hx ↦ ?_
    have hclear : ∀ w, g.Edge v w → ∀ y, g.Reaches w y → ¬ Relation.TransGen g.Edge y y :=
      fun w hvw ↦ (h w hvw).resolve_left fun hw ↦ hreported ⟨w, hvw, hw⟩
    rcases hvx.cases_head with rfl | ⟨w, hvw, hwx⟩
    · obtain ⟨w, hvw, hwv⟩ := Relation.TransGen.head'_iff.1 hx
      exact hclear w hvw v hwv hx
    · exact hclear w hvw x hwx hx

/-! ### The search from all nodes -/

/-- What holds of the finished nodes and the findings between two searches. -/
structure Searched (g : DependencyGraph) (state : List Nat × List Finding) : Prop where
  settled : ∀ v ∈ state.1, g.Settled state.2 v
  closes : ∀ f ∈ state.2, ∃ path target, g.Closes path target ∧ f = g.cycleFinding path target

theorem searched_nil : g.Searched ([], []) where
  settled := by simp
  closes := by simp

/-- **One search.** It keeps what is known, and its starting node is finished after it. -/
theorem Searched.searchFrom (hg : g.EdgesInRange) {state : List Nat × List Finding} {v : Nat}
    (h : g.Searched state) (hv : v < g.size) :
    g.Searched (g.searchFrom state v) ∧ v ∈ (g.searchFrom state v).1 ∧
      state.1 ⊆ (g.searchFrom state v).1 := by
  rcases searchFrom_cases hg state hv with ⟨hmem, heq⟩ | ⟨later, hgrows, hmem, heq⟩ |
    ⟨later, path, target, hmem, ⟨hgrows, -, hcloses⟩, heq⟩
  · rw [heq]
    exact ⟨h, hmem, List.Subset.refl _⟩
  · rw [heq]
    exact ⟨⟨hgrows.forall_mem (fun _ ↦ settled_of_edges) h.settled, h.closes⟩, hmem,
      hgrows.subset⟩
  · rw [heq]
    have hfound : g.cycleFinding path target ∈ state.2 ++ [g.cycleFinding path target] := by simp
    refine ⟨⟨List.forall_mem_append.2 ⟨fun x hx ↦ ?_, fun x hx ↦ ?_⟩,
      List.forall_mem_append.2 ⟨h.closes, ?_⟩⟩, ?_, ?_⟩
    · exact Or.inl ⟨_, hfound, hcloses.reported hx⟩
    · exact (hgrows.forall_mem (fun _ ↦ settled_of_edges) h.settled x hx).append _
    · simpa using ⟨path, target, hcloses, rfl⟩
    · exact List.mem_append_left later hmem
    · exact fun x hx ↦ List.mem_append_right path (hgrows.subset hx)

/-- **All searches**, by induction on the starting nodes left. -/
theorem searched_foldl (hg : g.EdgesInRange) :
    ∀ (vs : List Nat) {state : List Nat × List Finding}, (∀ v ∈ vs, v < g.size) →
      g.Searched state →
      g.Searched (vs.foldl g.searchFrom state) ∧ vs ⊆ (vs.foldl g.searchFrom state).1 ∧
        state.1 ⊆ (vs.foldl g.searchFrom state).1 := by
  intro vs
  induction vs with
  | nil =>
    intro state _ h
    exact ⟨h, List.nil_subset _, List.Subset.refl _⟩
  | cons v vs ih =>
    intro state hvs h
    obtain ⟨hv, hrest⟩ := List.forall_mem_cons.1 hvs
    obtain ⟨hstep, hmem, hsub⟩ := h.searchFrom hg hv
    obtain ⟨hrun, hmem', hsub'⟩ := ih hrest hstep
    exact ⟨hrun, List.cons_subset.2 ⟨hsub' hmem, hmem'⟩, fun x hx ↦ hsub' (hsub hx)⟩

theorem searched_cycles (hg : g.EdgesInRange) :
    g.Searched ((List.range g.size).foldl g.searchFrom ([], [])) :=
  (searched_foldl hg _ (fun _ ↦ List.mem_range.1) searched_nil).1

/-- In the end every node is settled. -/
theorem settled_cycles (hg : g.EdgesInRange) {v : Nat} (hv : v < g.size) :
    g.Settled g.cycles v := by
  obtain ⟨hsearched, hmem, -⟩ :=
    searched_foldl hg (List.range g.size) (fun _ ↦ List.mem_range.1) searched_nil
  exact hsearched.settled v (hmem (List.mem_range.2 hv))

/-! ### Cycles and findings -/

/-- A cycle that is reported can be reached from every cycle. -/
theorem exists_reportedFrom_of_isCycle (hg : g.EdgesInRange) {v : Nat} {between : List Nat}
    (h : g.IsCycle v between) : ∃ f ∈ g.cycles, g.ReportedFrom v f := by
  have hloop := h.transGen
  obtain ⟨w, hvw, -⟩ := Relation.TransGen.head'_iff.1 hloop
  exact (settled_cycles hg hvw.source_lt).resolve_right fun hclear ↦ hclear v .refl hloop

theorem exists_isCycle_of_mem_cycles (hg : g.EdgesInRange) {f : Finding} (hf : f ∈ g.cycles) :
    ∃ v between, g.IsCycle v between := by
  obtain ⟨path, target, hcloses, -⟩ := (searched_cycles hg).closes f hf
  exact ⟨target, segment path target, hcloses.isCycle⟩

/-- **The search finds nothing exactly in acyclic graphs.** -/
theorem cycles_eq_nil_iff_acyclic (hg : g.EdgesInRange) : g.cycles = [] ↔ g.Acyclic := by
  constructor
  · intro hnil v between hcycle
    obtain ⟨f, hf, -⟩ := exists_reportedFrom_of_isCycle hg hcycle
    rw [hnil] at hf
    exact absurd hf List.not_mem_nil
  · intro hacyclic
    refine List.eq_nil_iff_forall_not_mem.2 fun f hf ↦ ?_
    obtain ⟨v, between, hcycle⟩ := exists_isCycle_of_mem_cycles hg hf
    exact hacyclic v between hcycle

/-- **Cycle detection is complete and sound.** From every cycle, a cycle that is reported can be
reached; where something is reported there is a cycle; and nothing is reported exactly when there is
none. -/
theorem cycles_detect_cycles (hg : g.EdgesInRange) :
    (∀ v between, g.IsCycle v between →
      ∃ f ∈ g.cycles, ∃ w between', g.IsCycle w between' ∧
        f.cycle = (w :: (between' ++ [w])).map g.nameAt ∧
        ∀ x ∈ w :: between', g.Reaches v x) ∧
    (g.cycles ≠ [] → ∃ v between, g.IsCycle v between) ∧
    (g.cycles = [] ↔ g.Acyclic) := by
  refine ⟨fun v between h ↦ exists_reportedFrom_of_isCycle hg h, fun hne ↦ ?_,
    cycles_eq_nil_iff_acyclic hg⟩
  obtain ⟨f, hf⟩ := List.exists_mem_of_ne_nil _ hne
  exact exists_isCycle_of_mem_cycles hg hf

/-- The search from `a` meets the self loop of `b` first and is abandoned there, so the edge from
`a` to `c` is never followed and the cycle of `a` and `c` goes unreported. -/
def abandonedLoop : DependencyGraph where
  names := ["a", "b", "c"]
  positions := [{}, {}, {}]
  index := [("a", 0), ("b", 1), ("c", 2)]
  adjacent := [[1, 2], [1], [0]]

/-- The cycle of `a` and `c` is not among the findings, but one that can be reached from it is. -/
theorem cycles_detect_abandonedLoop :
    abandonedLoop.EdgesInRange ∧ abandonedLoop.IsCycle 2 [0] ∧
    abandonedLoop.cycles.map Finding.cycle = [["b", "b"]] ∧
    ∃ f ∈ abandonedLoop.cycles, ∃ w between, abandonedLoop.IsCycle w between ∧
      f.cycle = (w :: (between ++ [w])).map abandonedLoop.nameAt ∧
      ∀ x ∈ w :: between, abandonedLoop.Reaches 2 x :=
  ⟨by decide, by decide, by decide, (cycles_detect_cycles (by decide)).1 2 [0] (by decide)⟩

end DependencyGraph

end Questionnaire
