import Mathlib.Data.List.Nodup
import Questionnaire.Proofs.Graph.Walk
import Questionnaire.Proofs.Lists

/-!
# The graph of a list of dependencies

A dependency graph is built from named nodes by adding one dependent question after another, each
with its edges. `Built` is what every step keeps: no name has two nodes, and every edge leads to a
node. Under it a graph on places is a relation on names, `Links`, and adding a question adds to that
relation exactly the pairs of the question and what it depends on (`Built.withDependent`).

So the graph of a form links `u` to `v` exactly when the question `u` of the form depends on `v`
(`links_dependencyGraph`), and it is acyclic exactly when that relation on names is
(`Built.acyclic_iff_links`). Node numbering and the order of edges drop out here.
-/

namespace Questionnaire

namespace DependencyGraph

variable {g : DependencyGraph}

/-- Some node named `u` has an edge to one named `v`. -/
def Links (g : DependencyGraph) (u v : String) : Prop :=
  ∃ i j, g.Edge i j ∧ g.nameAt i = u ∧ g.nameAt j = v

/-- What holds of a graph while it is built. -/
structure Built (g : DependencyGraph) : Prop where
  names_nodup : g.names.Nodup
  edges_inRange : g.EdgesInRange

/-! ### Nodes by name -/

/-- Different places have different names. -/
theorem Built.nameAt_inj (h : g.Built) {i j : Nat} (hi : i < g.size) (hj : j < g.size)
    (hij : g.nameAt i = g.nameAt j) : i = j := by
  refine (List.getElem?_inj hi h.names_nodup).1 ?_
  rw [names_getElem? hi, names_getElem? hj, hij]

/-- The place of a name is the first one with that name. -/
theorem index?_eq_idxOf? (g : DependencyGraph) (name : String) :
    g.index? name = g.names.idxOf? name := by
  rw [index?, g.indexed, lookup_zipIdx]
  exact Option.map_id'

theorem index?_eq_some {name : String} {i : Nat} (h : g.index? name = some i) :
    i < g.size ∧ g.nameAt i = name := by
  rw [index?_eq_idxOf?, List.idxOf?, List.findIdx?_eq_some_iff_getElem] at h
  obtain ⟨hi, hname, -⟩ := h
  refine ⟨hi, ?_⟩
  rw [nameAt, List.getElem?_eq_getElem hi]
  simpa using hname

theorem index?_eq_none {name : String} (h : g.index? name = none) : name ∉ g.names := by
  rwa [index?_eq_idxOf?, List.idxOf?_eq_none_iff] at h

/-! ### Acyclic names -/

theorem Built.transGen_edge_of_links (h : g.Built) {u v : String}
    (huv : Relation.TransGen g.Links u v) :
    ∀ i, i < g.size → g.nameAt i = u →
      ∃ j, j < g.size ∧ g.nameAt j = v ∧ Relation.TransGen g.Edge i j := by
  have hstep : ∀ {u v : String}, g.Links u v → ∀ i, i < g.size → g.nameAt i = u →
      ∃ j, j < g.size ∧ g.nameAt j = v ∧ g.Edge i j := by
    rintro u v ⟨i, j, hij, rfl, rfl⟩ k hk hname
    obtain rfl := h.nameAt_inj hk hij.source_lt hname
    exact ⟨j, h.edges_inRange.target_lt hij, rfl, hij⟩
  intro i hi hname
  induction huv with
  | single huv =>
    obtain ⟨j, hj, hv, hij⟩ := hstep huv i hi hname
    exact ⟨j, hj, hv, .single hij⟩
  | tail _ hvw ih =>
    obtain ⟨j, hj, hv, hij⟩ := ih
    obtain ⟨k, hk, hw, hjk⟩ := hstep hvw j hj hv
    exact ⟨k, hk, hw, hij.tail hjk⟩

/-- **Acyclicity is a matter of names.** -/
theorem Built.acyclic_iff_links (h : g.Built) :
    g.Acyclic ↔ ∀ u, ¬ Relation.TransGen g.Links u u := by
  rw [acyclic_iff]
  constructor
  · intro hacyclic u hu
    obtain ⟨v, ⟨i, j, hij, hiu, -⟩, -⟩ := Relation.TransGen.head'_iff.1 hu
    obtain ⟨k, hk, hku, hik⟩ := h.transGen_edge_of_links hu i hij.source_lt hiu
    obtain rfl := h.nameAt_inj hij.source_lt hk (hiu.trans hku.symm)
    exact hacyclic _ hik
  · intro hacyclic i hi
    exact hacyclic (g.nameAt i) (hi.lift g.nameAt fun j k hjk ↦ ⟨j, k, hjk, rfl, rfl⟩)

/-! ### Adding a node -/

section Append

variable {name : String} {pos : Position}

theorem nameAt_append {i : Nat} (hi : i < g.size) :
    (g.append name pos).nameAt i = g.nameAt i := by
  rw [nameAt, nameAt, append, List.getElem?_append_left hi]

@[simp]
theorem size_append : (g.append name pos).size = g.size + 1 :=
  List.length_append

theorem nameAt_append_size : (g.append name pos).nameAt g.size = name := by
  simp [nameAt, append, size]

/-- A new node leaves the edges as they are. -/
theorem edgesAt_append (i : Nat) : (g.append name pos).edgesAt i = g.edgesAt i := by
  rw [edgesAt, edgesAt, append]
  rcases Nat.lt_or_ge i g.adjacent.length with hi | hi
  · rw [List.getElem?_append_left hi]
  · rw [List.getElem?_append_right hi, List.getElem?_eq_none hi]
    cases i - g.adjacent.length <;> simp

theorem edge_append {i j : Nat} : (g.append name pos).Edge i j ↔ g.Edge i j := by
  rw [Edge, Edge, edgesAt_append]

theorem Built.append (h : g.Built) (hnew : name ∉ g.names) : (g.append name pos).Built where
  names_nodup := h.names_nodup.append (List.nodup_singleton _) (List.disjoint_singleton.2 hnew)
  edges_inRange := by
    refine edgesInRange_iff.2 fun i j hij ↦ ?_
    rw [size_append]
    exact Nat.lt_succ_of_lt (h.edges_inRange.target_lt (edge_append.1 hij))

theorem Built.links_append (h : g.Built) {u v : String} :
    (g.append name pos).Links u v ↔ g.Links u v := by
  constructor
  · rintro ⟨i, j, hij, rfl, rfl⟩
    rw [edge_append] at hij
    exact ⟨i, j, hij, (nameAt_append hij.source_lt).symm,
      (nameAt_append (h.edges_inRange.target_lt hij)).symm⟩
  · rintro ⟨i, j, hij, rfl, rfl⟩
    exact ⟨i, j, edge_append.2 hij, nameAt_append hij.source_lt,
      nameAt_append (h.edges_inRange.target_lt hij)⟩

end Append

/-- What `withNode` may come to: the node is there, or it is added behind the others. -/
theorem withNode_cases (g : DependencyGraph) (name : String) (pos : Position) :
    (∃ i, i < g.size ∧ g.nameAt i = name ∧ g.withNode name pos = (g, i)) ∨
      (name ∉ g.names ∧ g.withNode name pos = (g.append name pos, g.size)) := by
  rw [withNode]
  cases h : g.index? name with
  | none => exact Or.inr ⟨index?_eq_none h, rfl⟩
  | some i => exact Or.inl ⟨i, (index?_eq_some h).1, (index?_eq_some h).2, rfl⟩

/-- A graph with a node for a name, and what it has kept. -/
structure HasNode (g g' : DependencyGraph) (name : String) (i : Nat) : Prop where
  built : g'.Built
  links : ∀ u v, g'.Links u v ↔ g.Links u v
  inRange : i < g'.size
  nameAt_eq : g'.nameAt i = name
  size_le : g.size ≤ g'.size
  nameAt_old : ∀ k, k < g.size → g'.nameAt k = g.nameAt k

/-- **One node.** -/
theorem Built.withNode (h : g.Built) (name : String) (pos : Position) :
    HasNode g (g.withNode name pos).1 name (g.withNode name pos).2 := by
  rcases g.withNode_cases name pos with ⟨i, hi, hname, heq⟩ | ⟨hnew, heq⟩
  · rw [heq]
    exact ⟨h, fun _ _ ↦ Iff.rfl, hi, hname, Nat.le_refl _, fun _ _ ↦ rfl⟩
  · rw [heq]
    exact ⟨h.append hnew, fun _ _ ↦ h.links_append, by simp, nameAt_append_size, by simp,
      fun _ ↦ nameAt_append⟩

/-! ### Adding an edge -/

theorem mem_addEdge {j k : Nat} {edges : List Nat} : k ∈ addEdge j edges ↔ k ∈ edges ∨ k = j := by
  rw [addEdge]
  split
  · rename_i hj
    exact ⟨Or.inl, fun h ↦ h.elim id fun hk ↦ hk ▸ List.contains_iff_mem.1 hj⟩
  · simp

theorem nodup_addEdge {edges : List Nat} (h : edges.Nodup) (j : Nat) : (addEdge j edges).Nodup := by
  rw [addEdge]
  split
  · exact h
  · rename_i hj
    rw [List.contains_iff_mem] at hj
    exact h.append (List.nodup_singleton j) (List.disjoint_singleton.2 hj)

@[simp]
theorem size_withEdge (g : DependencyGraph) (i j : Nat) : (g.withEdge i j).size = g.size :=
  rfl

@[simp]
theorem nameAt_withEdge (g : DependencyGraph) (i j k : Nat) :
    (g.withEdge i j).nameAt k = g.nameAt k :=
  rfl

/-- Only the edges of one node change. -/
theorem edgesAt_withEdge (g : DependencyGraph) {i : Nat} (hi : i < g.size) (j k : Nat) :
    (g.withEdge i j).edgesAt k = if k = i then addEdge j (g.edgesAt k) else g.edgesAt k := by
  rw [edgesAt, edgesAt, withEdge, List.getElem?_modify]
  rw [size, ← g.length_adjacent] at hi
  by_cases hk : k = i
  · subst hk
    rw [List.getElem?_eq_getElem hi]
    simp
  · rw [if_neg hk]
    cases g.adjacent[k]? with
    | none => rfl
    | some edges => simp [Ne.symm hk]

/-- The edges afterwards are those before and the new one. -/
theorem edge_withEdge {i j a b : Nat} (hi : i < g.size) :
    (g.withEdge i j).Edge a b ↔ g.Edge a b ∨ (a = i ∧ b = j) := by
  rw [Edge, Edge, edgesAt_withEdge g hi]
  by_cases ha : a = i
  · rw [if_pos ha, mem_addEdge, and_iff_right ha]
  · simp [ha]

theorem Built.withEdge (h : g.Built) {i j : Nat} (hi : i < g.size) (hj : j < g.size) :
    (g.withEdge i j).Built where
  names_nodup := h.names_nodup
  edges_inRange := by
    refine edgesInRange_iff.2 fun a b hab ↦ ?_
    rcases (edge_withEdge hi).1 hab with hab | ⟨-, rfl⟩
    · exact h.edges_inRange.target_lt hab
    · exact hj

theorem links_withEdge {i j : Nat} (hi : i < g.size) {u v : String} :
    (g.withEdge i j).Links u v ↔ g.Links u v ∨ (u = g.nameAt i ∧ v = g.nameAt j) := by
  constructor
  · rintro ⟨a, b, hab, rfl, rfl⟩
    simp only [nameAt_withEdge]
    rcases (edge_withEdge hi).1 hab with hab | ⟨rfl, rfl⟩
    · exact Or.inl ⟨a, b, hab, rfl, rfl⟩
    · exact Or.inr ⟨rfl, rfl⟩
  · rintro (⟨a, b, hab, rfl, rfl⟩ | ⟨rfl, rfl⟩)
    · exact ⟨a, b, (edge_withEdge hi).2 (Or.inl hab), by simp, by simp⟩
    · exact ⟨i, j, (edge_withEdge hi).2 (Or.inr ⟨rfl, rfl⟩), by simp, by simp⟩

/-! ### Adding dependencies -/

/-- A graph with edges from one of its nodes to some names, and what it has kept. -/
structure HasTargets (g g' : DependencyGraph) (i : Nat) (targets : List String) : Prop where
  built : g'.Built
  links : ∀ u v, g'.Links u v ↔ g.Links u v ∨ (u = g.nameAt i ∧ v ∈ targets)
  inRange : i < g'.size
  nameAt_eq : g'.nameAt i = g.nameAt i

/-- **One edge**, to a node that may be a new one. -/
theorem Built.withTarget (h : g.Built) {i : Nat} (hi : i < g.size) (name : String) :
    HasTargets g (withTarget i g name) i [name] := by
  have htarget := h.withNode name {}
  -- adding a node moves no other, so the first is still at its place
  have hi' := Nat.lt_of_lt_of_le hi htarget.size_le
  rw [DependencyGraph.withTarget]
  refine ⟨htarget.built.withEdge hi' htarget.inRange, fun u v ↦ ?_, hi', htarget.nameAt_old i hi⟩
  rw [links_withEdge hi', htarget.links, htarget.nameAt_old i hi, htarget.nameAt_eq,
    List.mem_singleton]

theorem Built.foldl_withTarget (targets : List String) :
    ∀ {g : DependencyGraph} {i : Nat}, g.Built → i < g.size →
      HasTargets g (targets.foldl (DependencyGraph.withTarget i) g) i targets := by
  induction targets with
  | nil => exact fun h hi ↦ ⟨h, fun u v ↦ by simp, hi, rfl⟩
  | cons name rest ih =>
    intro g i h hi
    have hfirst := h.withTarget hi name
    have hrest := ih hfirst.built hfirst.inRange
    refine ⟨hrest.built, fun u v ↦ (hrest.links u v).trans ?_, hrest.inRange,
      hrest.nameAt_eq.trans hfirst.nameAt_eq⟩
    rw [hfirst.links, hfirst.nameAt_eq, List.mem_singleton, List.mem_cons]
    tauto

/-- **One question** that depends on others adds its own pairs to what is linked, and nothing
else. -/
theorem Built.withDependent (h : g.Built) (d : Dependent) :
    (g.withDependent d).Built ∧
      ∀ u v, (g.withDependent d).Links u v ↔ g.Links u v ∨ (u = d.source ∧ v ∈ d.targets) := by
  have hsource := h.withNode d.source d.pos
  have htargets := Built.foldl_withTarget d.targets hsource.built hsource.inRange
  refine ⟨htargets.built, fun u v ↦ (htargets.links u v).trans ?_⟩
  rw [hsource.links, hsource.nameAt_eq]

/-- **All questions** that depend on others, by induction on those left to add. -/
theorem Built.foldl_withDependent :
    ∀ (ds : List Dependent) {g : DependencyGraph}, g.Built →
      (ds.foldl DependencyGraph.withDependent g).Built ∧
        ∀ u v, (ds.foldl DependencyGraph.withDependent g).Links u v ↔
          g.Links u v ∨ ∃ d ∈ ds, d.source = u ∧ v ∈ d.targets := by
  intro ds
  induction ds with
  | nil =>
    intro g h
    exact ⟨h, fun u v ↦ by simp⟩
  | cons d ds ih =>
    intro g h
    obtain ⟨hbuilt, hlinks⟩ := h.withDependent d
    obtain ⟨hrest, hrest_links⟩ := ih hbuilt
    refine ⟨hrest, fun u v ↦ (hrest_links u v).trans ?_⟩
    rw [hlinks, List.exists_mem_cons_iff, or_assoc, eq_comm (a := u)]

/-! ### The nodes of symbols -/

theorem foldl_withNode (symbols : List Symbol) :
    ∀ {g : DependencyGraph}, (g.names ++ symbols.map Symbol.name).Nodup →
      (symbols.foldl (fun g s ↦ (g.withNode s.name s.pos).1) g).names =
          g.names ++ symbols.map Symbol.name ∧
        (symbols.foldl (fun g s ↦ (g.withNode s.name s.pos).1) g).positions =
          g.positions ++ symbols.map Symbol.pos ∧
        (symbols.foldl (fun g s ↦ (g.withNode s.name s.pos).1) g).adjacent =
          g.adjacent ++ symbols.map fun _ ↦ [] := by
  induction symbols with
  | nil => exact fun _ ↦ by simp
  | cons s rest ih =>
    intro g h
    rw [List.map_cons, List.append_cons] at h
    have hnew : s.name ∉ g.names := fun hmem ↦
      List.disjoint_of_nodup_append h.of_append_left hmem (List.mem_singleton.2 rfl)
    have hnode : g.withNode s.name s.pos = (g.append s.name s.pos, g.size) := by
      rcases g.withNode_cases s.name s.pos with ⟨i, hi, hname, -⟩ | ⟨-, heq⟩
      · exact absurd (hname ▸ List.mem_of_getElem? (names_getElem? hi)) hnew
      · exact heq
    rw [List.foldl_cons, hnode]
    obtain ⟨hnames, hpositions, hadjacent⟩ := @ih (g.append s.name s.pos) h
    rw [hnames, hpositions, hadjacent]
    simp [append]

section OfSymbols

variable {symbols : List Symbol} (h : (symbols.map Symbol.name).Nodup) (file : String)

include h

theorem names_ofSymbols : (ofSymbols file symbols).names = symbols.map Symbol.name :=
  (@foldl_withNode symbols { file } h).1

theorem positions_ofSymbols : (ofSymbols file symbols).positions = symbols.map Symbol.pos :=
  (@foldl_withNode symbols { file } h).2.1

theorem edgesAt_ofSymbols (i : Nat) : (ofSymbols file symbols).edgesAt i = [] := by
  have hadjacent : (ofSymbols file symbols).adjacent = symbols.map fun _ ↦ [] :=
    (@foldl_withNode symbols { file } h).2.2
  rw [edgesAt, hadjacent, List.getElem?_map]
  cases symbols[i]? <;> rfl

/-- The graph before any dependency is added. -/
theorem built_ofSymbols : (ofSymbols file symbols).Built where
  names_nodup := by
    rw [names_ofSymbols h]
    exact h
  edges_inRange := by
    refine edgesInRange_iff.2 fun i j hij ↦ ?_
    rw [Edge, edgesAt_ofSymbols h] at hij
    exact absurd hij List.not_mem_nil

theorem not_links_ofSymbols (u v : String) : ¬ (ofSymbols file symbols).Links u v := by
  rintro ⟨i, j, hij, -⟩
  rw [Edge, edgesAt_ofSymbols h] at hij
  exact absurd hij List.not_mem_nil

end OfSymbols

end DependencyGraph

/-! ### The graph of a form -/

/-- Some question `u` of a form depends on `v`. -/
def Form.Depends (f : Form) (u v : String) : Prop :=
  ∃ d ∈ f.dependents, d.source = u ∧ v ∈ d.targets

open DependencyGraph

namespace Form

variable {f : Form} {t : SymbolTable}

theorem built_dependencyGraph (h : (t.symbols.map Symbol.name).Nodup) :
    (f.dependencyGraph t).Built :=
  (Built.foldl_withDependent f.dependents (built_ofSymbols h f.file)).1

/-- **What the graph of a form links** are the pairs of the form's dependencies. -/
theorem links_dependencyGraph (h : (t.symbols.map Symbol.name).Nodup) {u v : String} :
    (f.dependencyGraph t).Links u v ↔ f.Depends u v := by
  refine ((Built.foldl_withDependent f.dependents (built_ofSymbols h f.file)).2 u v).trans ?_
  exact or_iff_right (not_links_ofSymbols h f.file u v)

/-- The graph of a form is acyclic exactly when its dependencies are. -/
theorem acyclic_dependencyGraph_iff (h : (t.symbols.map Symbol.name).Nodup) :
    (f.dependencyGraph t).Acyclic ↔ ∀ u, ¬ Relation.TransGen f.Depends u u := by
  have hlinks : (f.dependencyGraph t).Links = f.Depends :=
    funext fun u ↦ funext fun v ↦ propext (links_dependencyGraph h)
  rw [(built_dependencyGraph h).acyclic_iff_links, hlinks]

end Form

end Questionnaire
