import Questionnaire.Proofs.Declarations
import Questionnaire.Proofs.Dependencies

/-!
# The graph of a form, node by node

Names, positions and edges of a dependency graph are built up together, one dependent question after
another, and each may bring new nodes with it. What every step keeps is `Laid`: the nodes of the
declared ids come first, in the order of their symbols and with their positions, and all nodes
behind them are bare. It holds because only declared ids depend on anything
(`Form.declaresId_of_mem_dependents`), so that a step puts a new node behind the others for the
target of a dependency only, and an edge only at a node of a declared id.

With what is known of the links between names this says all there is to say of the graph:
`isGraphOf_dependencyGraph` is about every form, whether its ids are distinct or not.
-/

namespace Questionnaire

/-! ### What depends on something is declared -/

/-- A statement in the block of a condition stands right below the condition. -/
theorem Statement.At.concat {l body : List Statement} {path : List Nat} {p : Position}
    {guard : Expr} {i : Nat} {s : Statement} (h : At l path (.condition p guard body))
    (hs : body[i]? = some s) : At l (path ++ [i]) s := by
  generalize hc : Statement.condition p guard body = c at h
  induction h with
  | here h =>
    subst hc
    exact .inside h (.here hs)
  | inside h _ ih => exact .inside h (ih hc)

theorem Form.declaresId_of_mem_dependents {f : Form} {d : Dependent} (h : d ∈ f.dependents) :
    f.DeclaresId d.source := by
  obtain ⟨s, ⟨path, place⟩, hd⟩ := mem_dependents_iff.1 h
  cases s with
  | question q => exact absurd hd List.not_mem_nil
  | calculated q value =>
    rw [List.mem_singleton.1 hd]
    exact ⟨_, _, ⟨_, place, rfl⟩, rfl⟩
  | condition p guard body =>
    obtain ⟨q, hq, rfl⟩ := List.mem_map.1 hd
    obtain ⟨s, inside, asks⟩ := List.mem_filterMap.1 hq
    obtain ⟨i, hi⟩ := List.mem_iff_getElem?.1 inside
    exact ⟨_, _, ⟨_, place.concat hi, asks⟩, rfl⟩

namespace DependencyGraph

variable {g : DependencyGraph} {symbols : List Symbol}

/-! ### Places and names -/

/-- **Places and names are inverse to each other.** -/
theorem Built.index?_eq_some_iff (h : g.Built) {name : String} {i : Nat} :
    g.index? name = some i ↔ i < g.size ∧ g.nameAt i = name := by
  refine ⟨index?_eq_some, ?_⟩
  rintro ⟨hi, hname⟩
  cases hindex : g.index? name with
  | none =>
    have hmem : name ∈ g.names := hname ▸ List.mem_of_getElem? (names_getElem? hi)
    exact absurd hmem (index?_eq_none hindex)
  | some j =>
    obtain ⟨hj, hname'⟩ := index?_eq_some hindex
    rw [h.nameAt_inj hj hi (hname'.trans hname.symm)]

/-- The names that a name depends on are those it is linked to. -/
theorem Built.mem_dependsOn?_iff (h : g.Built) {u v : String} :
    v ∈ (g.dependsOn? u).getD [] ↔ g.Links u v := by
  constructor
  · intro hv
    cases hindex : g.index? u with
    | none => simp [dependsOn?, hindex] at hv
    | some i =>
      rw [dependsOn?, hindex, Option.map_some, Option.getD_some] at hv
      obtain ⟨j, hj, rfl⟩ := List.mem_map.1 hv
      exact ⟨i, j, hj, (index?_eq_some hindex).2, rfl⟩
  · rintro ⟨i, j, hij, hu, rfl⟩
    rw [dependsOn?, h.index?_eq_some_iff.2 ⟨hij.source_lt, hu⟩, Option.map_some, Option.getD_some]
    exact List.mem_map_of_mem hij

/-! ### The nodes of the declared ids come first -/

/-- The nodes of a graph, against a list of symbols. -/
structure Laid (g : DependencyGraph) (symbols : List Symbol) : Prop where
  /-- The nodes of the symbols come first, with their names and positions. -/
  names_front : symbols.map Symbol.name <+: g.names
  positions_front : symbols.map Symbol.pos <+: g.positions
  /-- The nodes behind them have neither a position nor edges. -/
  bare : ∀ i, symbols.length ≤ i → g.posAt i = {} ∧ g.edgesAt i = []
  edges_nodup : ∀ i, (g.edgesAt i).Nodup

theorem laid_ofSymbols {symbols : List Symbol} (h : (symbols.map Symbol.name).Nodup)
    (file : String) : (ofSymbols file symbols).Laid symbols where
  names_front := (names_ofSymbols h file).symm ▸ List.prefix_rfl
  positions_front := (positions_ofSymbols h file).symm ▸ List.prefix_rfl
  bare i hi := by
    rw [posAt, positions_ofSymbols h, List.getElem?_eq_none (by rwa [List.length_map])]
    exact ⟨rfl, edgesAt_ofSymbols h file i⟩
  edges_nodup i := by
    rw [edgesAt_ofSymbols h]
    exact List.nodup_nil

/-- A new node without a position leaves the positions as they are. -/
theorem posAt_append (name : String) (i : Nat) : (g.append name {}).posAt i = g.posAt i := by
  rw [posAt, posAt, append]
  rcases Nat.lt_or_ge i g.positions.length with hi | hi
  · rw [List.getElem?_append_left hi]
  · rw [List.getElem?_append_right hi, List.getElem?_eq_none hi]
    cases i - g.positions.length <;> simp

namespace Laid

theorem length_le (h : g.Laid symbols) : symbols.length ≤ g.size := by
  have hle := h.names_front.length_le
  rwa [List.length_map] at hle

/-- The node of a symbol. -/
theorem of_getElem? (h : g.Laid symbols) {i : Nat} {s : Symbol} (hs : symbols[i]? = some s) :
    i < g.size ∧ g.nameAt i = s.name ∧ g.posAt i = s.pos := by
  obtain ⟨hi, -⟩ := List.getElem?_eq_some_iff.1 hs
  obtain ⟨names, hnames⟩ := h.names_front
  obtain ⟨positions, hpositions⟩ := h.positions_front
  refine ⟨Nat.lt_of_lt_of_le hi h.length_le, ?_, ?_⟩
  · rw [nameAt, ← hnames, List.getElem?_append_left (by rwa [List.length_map]), List.getElem?_map,
      hs]
    rfl
  · rw [posAt, ← hpositions, List.getElem?_append_left (by rwa [List.length_map]),
      List.getElem?_map, hs]
    rfl

/-- **A bare node** may be put behind the others. -/
theorem append (h : g.Laid symbols) (name : String) : (g.append name {}).Laid symbols where
  names_front := h.names_front.trans (List.prefix_append _ _)
  positions_front := h.positions_front.trans (List.prefix_append _ _)
  bare i hi := by
    rw [posAt_append, edgesAt_append]
    exact h.bare i hi
  edges_nodup i := by
    rw [edgesAt_append]
    exact h.edges_nodup i

/-- **An edge** may be added at the node of a symbol; one that is there is not repeated. -/
theorem withEdge (h : g.Laid symbols) {i : Nat} (hi : i < symbols.length) (j : Nat) :
    (g.withEdge i j).Laid symbols where
  names_front := h.names_front
  positions_front := h.positions_front
  bare k hk := by
    rw [edgesAt_withEdge g (Nat.lt_of_lt_of_le hi h.length_le), if_neg (by omega)]
    exact h.bare k hk
  edges_nodup k := by
    rw [edgesAt_withEdge g (Nat.lt_of_lt_of_le hi h.length_le)]
    split
    · exact nodup_addEdge (h.edges_nodup k) j
    · exact h.edges_nodup k

/-- **One dependency** of a declared id: its target may be a new node, and its edge starts at the
node of a symbol. -/
theorem withTarget (h : g.Laid symbols) {i : Nat} (hi : i < symbols.length) (name : String) :
    (withTarget i g name).Laid symbols := by
  rw [DependencyGraph.withTarget]
  rcases g.withNode_cases name {} with ⟨j, -, -, heq⟩ | ⟨-, heq⟩
  · simp only [heq]
    exact h.withEdge hi j
  · simp only [heq]
    exact (h.append name).withEdge hi g.size

/-- **The dependencies of a declared id.** -/
theorem withDependent (h : g.Laid symbols) (hg : g.Built) {d : Dependent}
    (hd : d.source ∈ symbols.map Symbol.name) : (g.withDependent d).Laid symbols := by
  obtain ⟨s, hs, hname⟩ := List.mem_map.1 hd
  obtain ⟨k, hk⟩ := List.mem_iff_getElem?.1 hs
  obtain ⟨hk_lt, -⟩ := List.getElem?_eq_some_iff.1 hk
  obtain ⟨hk_size, hk_name, -⟩ := h.of_getElem? hk
  have hsource : g.withNode d.source d.pos = (g, k) := by
    rcases g.withNode_cases d.source d.pos with ⟨i, hi, hi_name, heq⟩ | ⟨hnew, -⟩
    · rw [heq, hg.nameAt_inj hi hk_size (hi_name.trans (hname.symm.trans hk_name.symm))]
    · have hmem := List.mem_of_getElem? (names_getElem? hk_size)
      rw [hk_name, hname] at hmem
      exact absurd hmem hnew
  rw [DependencyGraph.withDependent, hsource]
  exact List.foldlRecOn (motive := fun g : DependencyGraph ↦ g.Laid symbols) _ _ h
    fun _ hg name _ ↦ hg.withTarget hk_lt name

end Laid

/-! ### The graph of a form -/

/-- What the dependency graph of a form is to be. -/
structure IsGraphOf (g : DependencyGraph) (f : Form) : Prop where
  names_nodup : g.names.Nodup
  /-- Places and names are inverse to each other. -/
  index?_iff : ∀ name i, g.index? name = some i ↔ i < g.size ∧ g.nameAt i = name
  edges_inRange : g.EdgesInRange
  /-- A declared id has its node at the place of its symbol, with the position of its first
  declaration. -/
  declared : ∀ id, f.DeclaresId id → ∃ i first, f.resolveSymbols.1.index? id = some i ∧
    i < f.resolveSymbols.1.size ∧ g.index? id = some i ∧
    (f.questions.find? fun q ↦ q.id == id) = some first ∧ g.posAt i = first.pos
  /-- Every other node comes behind those, without a position and without edges. -/
  undeclared : ∀ i, i < g.size → ¬ f.DeclaresId (g.nameAt i) →
    f.resolveSymbols.1.size ≤ i ∧ g.posAt i = {} ∧ g.edgesAt i = []
  /-- An id depends on what the rules say. -/
  dependsOn_iff : ∀ u v, v ∈ (g.dependsOn? u).getD [] ↔ f.DependsOn u v
  dependsOn_nodup : ∀ u, ((g.dependsOn? u).getD []).Nodup

end DependencyGraph

namespace Form

open DependencyGraph

theorem laid_dependencyGraph (f : Form) :
    (f.dependencyGraph f.resolveSymbols.1).Laid f.resolveSymbols.1.symbols := by
  have hrun : (f.dependencyGraph f.resolveSymbols.1).Built ∧
      (f.dependencyGraph f.resolveSymbols.1).Laid f.resolveSymbols.1.symbols := by
    refine List.foldlRecOn
      (motive := fun g : DependencyGraph ↦ g.Built ∧ g.Laid f.resolveSymbols.1.symbols) _ _
      ⟨built_ofSymbols f.nodup_resolveSymbols f.file,
        laid_ofSymbols f.nodup_resolveSymbols f.file⟩ ?_
    rintro g ⟨hg, h⟩ d hd
    refine ⟨(hg.withDependent d).1, h.withDependent hg ?_⟩
    -- a source that is not in the table would not be declared
    by_contra hnot
    exact lookup_resolveSymbols_eq_none_iff.1 (SymbolTable.lookup_eq_none_iff.2 hnot)
      (declaresId_of_mem_dependents hd)
  exact hrun.2

/-- **The dependency graph is the form's dependency relation**, with nodes that are laid out by the
symbol table. -/
theorem isGraphOf_dependencyGraph (f : Form) :
    (f.dependencyGraph f.resolveSymbols.1).IsGraphOf f := by
  have hbuilt : (f.dependencyGraph f.resolveSymbols.1).Built :=
    built_dependencyGraph f.nodup_resolveSymbols
  have hlaid := f.laid_dependencyGraph
  refine ⟨hbuilt.names_nodup, fun name i ↦ hbuilt.index?_eq_some_iff, hbuilt.edges_inRange,
    fun id hid ↦ ?_, fun i _ hnot ↦ ?_, fun u v ↦ ?_, fun u ↦ ?_⟩
  · obtain ⟨s, first, hs, hfirst, hpos⟩ := hid.exists_lookup
    have hplace := f.numbered_resolveSymbols.getElem?_of_lookup hs
    obtain ⟨hsize, hname, hnode⟩ := hlaid.of_getElem? hplace
    refine ⟨s.index, first, ?_, (List.getElem?_eq_some_iff.1 hplace).1, ?_, hfirst,
      hnode.trans hpos⟩
    · rw [f.numbered_resolveSymbols.index?_eq, hs]
      rfl
    · exact hbuilt.index?_eq_some_iff.2 ⟨hsize, hname.trans (SymbolTable.name_of_lookup hs)⟩
  · have hbehind : f.resolveSymbols.1.size ≤ i := by
      by_contra hlt
      have hs := List.getElem?_eq_getElem (Nat.lt_of_not_le hlt)
      obtain ⟨-, hname, -⟩ := hlaid.of_getElem? hs
      refine SymbolTable.lookup_eq_none_iff.1 (lookup_resolveSymbols_eq_none_iff.2 hnot) ?_
      rw [hname]
      exact List.mem_map_of_mem (List.mem_of_getElem? hs)
    exact ⟨hbehind, hlaid.bare i hbehind⟩
  · rw [hbuilt.mem_dependsOn?_iff, links_dependencyGraph f.nodup_resolveSymbols,
      depends_iff_dependsOn]
  · cases hindex : (f.dependencyGraph f.resolveSymbols.1).index? u with
    | none =>
      rw [dependsOn?, hindex]
      exact List.nodup_nil
    | some i =>
      rw [dependsOn?, hindex, Option.map_some, Option.getD_some]
      refine (hlaid.edges_nodup i).map_on fun j hj k hk ↦ ?_
      exact hbuilt.nameAt_inj (hbuilt.edges_inRange.target_lt hj)
        (hbuilt.edges_inRange.target_lt hk)

end Form

end Questionnaire
