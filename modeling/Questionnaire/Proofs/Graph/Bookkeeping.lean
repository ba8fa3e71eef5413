import Questionnaire.Proofs.Graph.Stepwise

/-!
# Path and marks in step

The machine of the search writes to its path and to its marks in different places, and a call that
is given up leaves both behind. `Moment.InStep` is what holds between them all the same, at every
moment: the path is a path of the graph, its nodes are those that are marked so, and the calls that
have not returned are at its end (all of it, unless a cycle was closed). `InStep.step` is the step
and `InStep.run` the run.

From there: a node is entered only while it is unvisited, which it is never again
(`Run.nodup_entered`); no more calls are open than there are nodes (`InStep.length_calls_le`); and
between the beginning of a call and its return the path below its node stays as it is
(`Run.path_restored`). Every call of the machine is a search below its node, from the path and the
finished nodes of the moment (`InStep.exists_run_call`), and such a search goes no deeper than there
are nodes (`visit_steps`).
-/

namespace Questionnaire

namespace DependencyGraph

variable {g : DependencyGraph} {m m' m₁ m₂ m₃ : Moment} {e : Event} {es : List Event} {v w : Nat}

/-! ### Paths -/

/-- A path goes on to a new node that its last node has an edge to. -/
theorem IsPath.extend {path : List Nat} (h : g.IsPath path) (hv : v < g.size)
    (hedge : ∀ u ∈ path.head?, g.Edge u v) (hfresh : v ∉ path) : g.IsPath (v :: path) := by
  cases path with
  | nil => exact isPath_singleton hv
  | cons u path => exact h.cons (hedge u rfl) hv hfresh

theorem IsPath.tail {path : List Nat} (h : g.IsPath (v :: path)) : g.IsPath path where
  chain := h.chain.tail
  nodup := (List.nodup_cons.1 h.nodup).2
  inRange := fun x hx ↦ h.inRange x (List.mem_cons_of_mem v hx)

theorem isPath_nil : g.IsPath [] where
  chain := .nil
  nodup := List.nodup_nil
  inRange := by simp

/-- Where a path closes at one of its nodes, this node is found on it, and what is reported is the
path from there on, with the node once more at the end. -/
theorem cycleNodes_eq_drop {path : List Nat} (hnodup : path.Nodup) (h : w ∈ path) :
    cycleNodes path w = path.reverse.drop (path.reverse.idxOf w) ++ [w] := by
  obtain ⟨rest, hpath⟩ := takeWhile_ne_append h
  have hreverse : path.reverse = rest.reverse ++ w :: segment path w := by
    conv_lhs => rw [hpath]
    simp [segment]
  have hrest : w ∉ rest.reverse := by
    rw [hpath] at hnodup
    exact fun hmem ↦ (List.nodup_cons.1 hnodup.of_append_right).1 (List.mem_reverse.1 hmem)
  rw [cycleNodes_eq, hreverse, List.idxOf_append_of_notMem hrest, List.idxOf_cons_self,
    Nat.add_zero, List.drop_left, List.cons_append]

/-! ### What holds at every moment -/

namespace Moment

/-- Path, marks and calls are in step. -/
structure InStep (g : DependencyGraph) (m : Moment) : Prop where
  isPath : g.IsPath m.path
  onPath_iff : ∀ v, m.marks v = .onPath ↔ v ∈ m.path
  inRange : ∀ v, m.marks v ≠ .unvisited → v < g.size
  /-- What the path has besides the nodes of calls is left by calls that were given up. -/
  calls_suffix : m.calls.map Call.node <:+ m.path
  calls_eq : m.doing = .searching → m.calls.map Call.node = m.path
  path_eq_nil : m.doing = .idle → m.path = []
  edges : ∀ c ∈ m.calls, ∀ w ∈ c.edges, g.Edge c.node w
  roots : ∀ v ∈ m.roots, v < g.size

theorem inStep_start : g.start.InStep g where
  isPath := isPath_nil
  onPath_iff := by simp [start]
  inRange := fun _ h ↦ absurd rfl h
  calls_suffix := List.suffix_rfl
  calls_eq := fun _ ↦ rfl
  path_eq_nil := fun _ ↦ rfl
  edges := by simp [start]
  roots := fun _ ↦ List.mem_range.1

namespace InStep

/-- A call begins on an unvisited node that the last node of the path has an edge to. -/
theorem enter (h : m.InStep g) (hcalls : m.calls.map Call.node = m.path) (hv : v < g.size)
    (hedge : ∀ u ∈ m.path.head?, g.Edge u v) (hnew : m.marks v = .unvisited) :
    (m.enter g v).InStep g where
  isPath := by
    refine h.isPath.extend hv hedge fun hmem ↦ ?_
    rw [(h.onPath_iff v).2 hmem] at hnew
    cases hnew
  onPath_iff := by
    intro x
    by_cases hx : x = v
    · simp [Moment.enter, hx]
    · simp [Moment.enter, hx, h.onPath_iff]
  inRange := by
    intro x
    by_cases hx : x = v
    · exact fun _ ↦ hx ▸ hv
    · simpa [Moment.enter, hx] using h.inRange x
  calls_suffix := by simp [Moment.enter, hcalls]
  calls_eq := fun _ ↦ by simp [Moment.enter, hcalls]
  path_eq_nil := by rintro ⟨⟩
  edges := List.forall_mem_cons.2 ⟨fun w hw ↦ hw, h.edges⟩
  roots := h.roots

theorem edges_cons (h : m.InStep g) {call : Call} {calls : List Call}
    (due : m.calls = call :: calls) :
    (∀ w ∈ call.edges, g.Edge call.node w) ∧ ∀ c ∈ calls, ∀ w ∈ c.edges, g.Edge c.node w :=
  List.forall_mem_cons.1 (due ▸ h.edges)

/-- An edge of the last call counts as followed. -/
theorem followed (h : m.InStep g) {ws : List Nat} {calls : List Call}
    (hcalls : m.calls = ⟨v, w :: ws⟩ :: calls) :
    InStep g { m with calls := ⟨v, ws⟩ :: calls } := by
  have hnodes : m.calls.map Call.node = (⟨v, ws⟩ :: calls : List Call).map Call.node := by
    rw [hcalls]
    rfl
  obtain ⟨hv, hrest⟩ := h.edges_cons hcalls
  exact { h with
    calls_suffix := hnodes ▸ h.calls_suffix
    calls_eq := fun hdoing ↦ hnodes ▸ h.calls_eq hdoing
    edges := List.forall_mem_cons.2 ⟨fun x hx ↦ hv x (List.mem_cons_of_mem w hx), hrest⟩ }

theorem nextRoot (h : m.InStep g) {roots : List Nat} (due : m.roots = v :: roots) :
    v < g.size ∧ InStep g { m with roots } := by
  have hroots := h.roots
  rw [due] at hroots
  obtain ⟨hv, hrest⟩ := List.forall_mem_cons.1 hroots
  exact ⟨hv, { h with roots := hrest }⟩

/-- The last call returns and takes its node back from the path. -/
theorem leave (h : m.InStep g) {calls : List Call} (doing : m.doing = .searching)
    (due : m.calls = ⟨v, []⟩ :: calls) :
    InStep g { m with calls, path := m.path.tail, marks := Function.update m.marks v .done } := by
  have hpath : m.path = v :: calls.map Call.node := by
    rw [← h.calls_eq doing, due]
    rfl
  have hisPath := h.isPath
  rw [hpath] at hisPath
  have htail : m.path.tail = calls.map Call.node := by
    rw [hpath]
    rfl
  exact {
    isPath := htail ▸ hisPath.tail
    onPath_iff := by
      intro x
      simp only [htail]
      by_cases hx : x = v
      · rw [hx, Function.update_self]
        exact iff_of_false (by rintro ⟨⟩) hisPath.not_mem
      · rw [Function.update_of_ne hx, h.onPath_iff, hpath, List.mem_cons, or_iff_right hx]
    inRange := by
      intro x
      by_cases hx : x = v
      · exact fun _ ↦ hx ▸ hisPath.inRange v List.mem_cons_self
      · simpa [Function.update_of_ne hx] using h.inRange x
    calls_suffix := htail ▸ List.suffix_rfl
    calls_eq := fun _ ↦ htail.symm
    path_eq_nil := fun hidle ↦ by cases doing.symm.trans hidle
    edges := (h.edges_cons due).2
    roots := h.roots }

/-- **One step** keeps path, marks and calls in step. -/
theorem step (hg : g.EdgesInRange) (h : m.InStep g) (hstep : g.Step m e m') : m'.InStep g := by
  cases hstep with
  | skip _ due => exact (h.nextRoot due).2
  | begin doing due new =>
    -- between two searches the path is empty, so there is no edge to ask for
    obtain ⟨hv, hnext⟩ := h.nextRoot due
    have hpath := h.path_eq_nil doing
    have hcalls := h.calls_suffix
    rw [hpath, List.suffix_nil] at hcalls
    exact hnext.enter (hcalls.trans hpath.symm) hv (by simp [hpath]) new
  | @descend v w edges calls doing due new =>
    -- the node of the last call is the last node of the path
    have hedge : g.Edge v w := (h.edges_cons due).1 w List.mem_cons_self
    have hhead : m.path.head? = some v := by
      rw [← h.calls_eq doing, due]
      rfl
    have hfollowed := h.followed due
    refine hfollowed.enter (hfollowed.calls_eq doing) (hg.target_lt hedge) (fun u hu ↦ ?_) new
    cases hhead.symm.trans hu
    exact hedge
  | follow _ due => exact h.followed due
  | close => exact { h with calls_eq := by rintro ⟨⟩, path_eq_nil := by rintro ⟨⟩ }
  | leave doing due => exact h.leave doing due
  | finish doing due =>
    have hpath : m.path = [] := by
      rw [← h.calls_eq doing, due]
      rfl
    exact { h with
      isPath := isPath_nil
      onPath_iff := hpath ▸ h.onPath_iff
      calls_suffix := hpath ▸ h.calls_suffix
      calls_eq := by rintro ⟨⟩
      path_eq_nil := fun _ ↦ rfl }
  | @giveUp call calls doing due =>
    have hcalls := h.calls_suffix
    rw [due, List.map_cons] at hcalls
    exact { h with
      calls_suffix := (List.suffix_cons _ _).trans hcalls
      calls_eq := fun hsearching ↦ by cases doing.symm.trans hsearching
      edges := (h.edges_cons due).2 }
  | reset doing due =>
    exact { h with
      isPath := isPath_nil
      onPath_iff := by
        intro v
        by_cases hv : v ∈ m.path <;> simp [hv, h.onPath_iff]
      inRange := by
        intro v
        by_cases hv : v ∈ m.path
        · exact fun _ ↦ h.isPath.inRange v hv
        · simpa [hv] using h.inRange v
      calls_suffix := by
        rw [due]
        exact List.suffix_rfl
      calls_eq := by rintro ⟨⟩
      path_eq_nil := fun _ ↦ rfl }

/-- **Any number of steps.** -/
theorem run (hg : g.EdgesInRange) (h : m.InStep g) (hrun : g.Run m es m') : m'.InStep g := by
  induction hrun with
  | refl => exact h
  | step next _ ih => exact ih (h.step hg next)

theorem length_calls_le (h : m.InStep g) : m.calls.length ≤ g.size := by
  have hle := h.calls_suffix.length_le
  rw [List.length_map] at hle
  exact hle.trans h.isPath.length_le

end InStep

end Moment

/-! ### Entries -/

/-- The nodes on which calls begin, in order. -/
def entered (es : List Event) : List Nat :=
  es.filterMap fun
    | .enter v => some v
    | _ => none

/-- A call begins on an unvisited node, which is then the last of the path. -/
theorem Step.enter_spec (h : g.Step m (.enter v) m') :
    m.marks v = .unvisited ∧ m'.marks v = .onPath ∧ m'.path = v :: m.path := by
  cases h with
  | begin _ _ new => exact ⟨new, Function.update_self .., rfl⟩
  | descend _ _ new => exact ⟨new, Function.update_self .., rfl⟩

/-- No mark is taken back. -/
theorem Step.unvisited (h : g.Step m e m') (hv : m'.marks v = .unvisited) :
    m.marks v = .unvisited := by
  have hupdate : ∀ (w : Nat) {mark : Mark}, mark ≠ .unvisited →
      Function.update m.marks w mark v = .unvisited → m.marks v = .unvisited := by
    intro w mark hmark hv
    by_cases hvw : v = w
    · rw [hvw, Function.update_self] at hv
      exact absurd hv hmark
    · rwa [Function.update_of_ne hvw] at hv
  cases h with
  | begin | descend | leave => exact hupdate _ (by rintro ⟨⟩) hv
  | reset =>
    by_cases hmem : v ∈ m.path
    · simp [hmem] at hv
    · simpa [hmem] using hv
  | skip | follow | close | finish | giveUp => exact hv

/-- **No node is entered twice**, and none that was visited before. -/
theorem Run.nodup_entered (h : g.Run m es m') :
    (entered es).Nodup ∧ ∀ v ∈ entered es, m.marks v = .unvisited := by
  induction h with
  | refl => exact ⟨List.nodup_nil, by simp [entered]⟩
  | @step m m' _ e es next _ ih =>
    obtain ⟨hnodup, hnew⟩ := ih
    have hold : ∀ x ∈ entered es, m.marks x = .unvisited := fun x hx ↦ next.unvisited (hnew x hx)
    cases e with
    | enter v =>
      obtain ⟨hv, hmark, -⟩ := next.enter_spec
      have hfresh : v ∉ entered es := fun hmem ↦ by cases hmark.symm.trans (hnew v hmem)
      exact ⟨List.nodup_cons.2 ⟨hfresh, hnodup⟩, List.forall_mem_cons.2 ⟨hv, hold⟩⟩
    | leave | close | giveUp | pass => exact ⟨hnodup, hold⟩

/-! ### Returns -/

/-- A call that returns takes the last node of the path with it. -/
theorem Moment.InStep.path_of_leave (hm : m.InStep g) (h : g.Step m (.leave v) m') :
    m.path = v :: m'.path := by
  cases h with
  | leave doing due =>
    have hpath := hm.calls_eq doing
    rw [due, List.map_cons] at hpath
    simp only [← hpath, List.tail_cons]

/-- While a node that was entered is on the path, so is what was there before it. -/
theorem Moment.InStep.below_of_step (hm : m.InStep g) (h : g.Step m e m')
    (hv : m.marks v ≠ .unvisited) {below : List Nat} (hbelow : v ∈ m.path → v :: below <:+ m.path) :
    v ∈ m'.path → v :: below <:+ m'.path := by
  intro hmem
  cases h with
  | begin _ _ new | descend _ _ new =>
    rcases List.mem_cons.1 hmem with rfl | hmem
    · exact absurd new hv
    · exact (hbelow hmem).trans (List.suffix_cons _ _)
  | leave doing due =>
    have hpath := hm.path_of_leave (.leave doing due)
    have hisPath := hm.isPath
    rw [hpath] at hbelow hisPath
    rcases List.suffix_cons_iff.1 (hbelow (List.mem_cons_of_mem _ hmem)) with heq | hsuffix
    · -- the node that leaves is another one, since `v` is still there after it
      cases heq
      exact absurd hmem hisPath.not_mem
    · exact hsuffix
  | finish | reset => exact absurd hmem List.not_mem_nil
  | skip | follow | close | giveUp => exact hbelow hmem

theorem Moment.InStep.below_of_run (hg : g.EdgesInRange) (hm : m.InStep g) (h : g.Run m es m')
    (hv : m.marks v ≠ .unvisited) {below : List Nat} (hbelow : v ∈ m.path → v :: below <:+ m.path) :
    v ∈ m'.path → v :: below <:+ m'.path := by
  induction h with
  | refl => exact hbelow
  | step next _ ih =>
    exact ih (hm.step hg next) (mt next.unvisited hv) (hm.below_of_step next hv hbelow)

/-- **A call that returns restores the path** it began with. -/
theorem Run.path_restored (hg : g.EdgesInRange) (hm : m.InStep g) (henter : g.Step m (.enter v) m₁)
    (hrun : g.Run m₁ es m₂) (hleave : g.Step m₂ (.leave v) m₃) : m₃.path = m.path := by
  obtain ⟨-, hmark, hpath⟩ := henter.enter_spec
  have hm₁ := hm.step hg henter
  have hm₂ := hm₁.run hg hrun
  have hpath₂ := hm₂.path_of_leave hleave
  have hisPath := hm₂.isPath
  have hvisited : m₁.marks v ≠ .unvisited := by
    rw [hmark]
    rintro ⟨⟩
  have hbelow : v :: m.path <:+ m₂.path :=
    hm₁.below_of_run hg hrun hvisited (fun _ ↦ hpath ▸ List.suffix_rfl) (by simp [hpath₂])
  rw [hpath₂] at hbelow hisPath
  rcases List.suffix_cons_iff.1 hbelow with heq | hsuffix
  · exact (List.cons.inj heq).2.symm
  · exact absurd (hsuffix.subset List.mem_cons_self) hisPath.not_mem

/-! ### Calls -/

/-- The nodes that are marked as done. -/
def Moment.finished (g : DependencyGraph) (m : Moment) : List Nat :=
  (List.range g.size).filter fun v ↦ m.marks v = .done

theorem Moment.InStep.marks_eq (h : m.InStep g) : m.marks = markOf m.path (m.finished g) := by
  funext v
  have hpath := h.onPath_iff v
  have hrange := h.inRange v
  cases hmark : m.marks v <;> simp_all [markOf, Moment.finished]

/-- **A call of the machine is a search below a node.** -/
theorem Moment.InStep.exists_run_call (hg : g.EdgesInRange) (h : m.InStep g)
    (henter : g.Step m (.enter v) m₁) {steps : Nat} (hsteps : g.size ≤ steps + m.path.length) :
    ∃ es, g.Run m₁ es ((g.visit steps m.path (m.finished g) v).moment g m₁.roots m₁.calls.tail
      m.path m.findings) := by
  have hentered : m₁ = momentAt .searching m₁.roots (⟨v, g.edgesAt v⟩ :: m₁.calls.tail)
      (v :: m.path) (m.finished g) m.findings := by
    rw [momentAt, ← update_markOf_onPath, ← h.marks_eq]
    cases henter <;> rfl
  have hpath := (h.step hg henter).isPath
  rw [henter.enter_spec.2.2] at hpath
  rw [hentered]
  exact exists_run_visit hg hpath hsteps

/-! ### The depth of the recursion -/

/-- The search below a node comes to the same with any number of steps that is no less than there
are nodes beside the path. -/
theorem visit_steps (hg : g.EdgesInRange) :
    ∀ {steps steps' : Nat} {path finished : List Nat} {v : Nat}, g.IsPath (v :: path) →
      g.size ≤ steps + path.length → g.size ≤ steps' + path.length →
      g.visit steps path finished v = g.visit steps' path finished v := by
  intro steps
  induction steps with
  | zero =>
    intro steps' path finished v hpath hsteps _
    have hlt := hpath.length_lt
    omega
  | succ steps ih =>
    intro steps' path finished v hpath hsteps hsteps'
    have hlt := hpath.length_lt
    obtain ⟨steps', rfl⟩ : ∃ n, steps' = n + 1 := ⟨steps' - 1, by omega⟩
    refine congrArg (Outcome.finish v) (List.foldl_ext _ _ _ fun o w hw ↦ ?_)
    rcases o with later | _
    · have hbelow : w ∉ v :: path →
          g.visit steps (v :: path) later w = g.visit steps' (v :: path) later w := by
        intro hfresh
        refine ih (hpath.cons hw (hg.target_lt hw) hfresh) ?_ ?_ <;>
        · rw [List.length_cons]
          omega
      by_cases hback : w ∈ v :: path
      · simp [follow, hback]
      · simp [follow, hback, hbelow hback]
    · rfl

/-! ### The whole search -/

/-- What is asked of the search at a moment of it. -/
structure Moment.Orderly (g : DependencyGraph) (m : Moment) : Prop where
  /-- No more calls are open than there are nodes. -/
  depth : m.calls.length ≤ g.size
  /-- The path has distinct nodes, each with an edge to the next. -/
  isPath : g.IsPath m.path
  /-- They are the nodes that are marked so. -/
  marked : ∀ v, m.marks v = .onPath ↔ v ∈ m.path
  /-- Where the path is closed, it is closed at one of its nodes, and what is reported is the path
  from the place where this node is found. -/
  closed : ∀ w m', g.Step m (.close w) m' → w ∈ m.path ∧
    m'.findings = m.findings ++ [g.cycleFinding m.path w] ∧
    (g.cycleFinding m.path w).cycle =
      (m.path.reverse.drop (m.path.reverse.idxOf w) ++ [w]).map g.nameAt
  /-- A call that begins is a search below its node: it comes to what that search comes to, with any
  number of steps that is no less than there are nodes beside the path. -/
  visits : ∀ v m₁, g.Step m (.enter v) m₁ → ∀ steps, g.size ≤ steps + m.path.length →
    ∃ es, g.Run m₁ es ((g.visit steps m.path (m.finished g) v).moment g m₁.roots m₁.calls.tail
      m.path m.findings)
  /-- A call that returns restores the path it began with. -/
  restored : ∀ v m₁ es m₂ m₃, g.Step m (.enter v) m₁ → g.Run m₁ es m₂ → g.Step m₂ (.leave v) m₃ →
    m₃.path = m.path

theorem Moment.InStep.orderly (hg : g.EdgesInRange) (h : m.InStep g) : m.Orderly g where
  depth := h.length_calls_le
  isPath := h.isPath
  marked := h.onPath_iff
  closed := by
    intro w m' hstep
    cases hstep with
    | close _ _ back =>
      have hmem := (h.onPath_iff w).1 back
      refine ⟨hmem, rfl, ?_⟩
      rw [← cycleNodes_eq_drop h.isPath.nodup hmem]
      rfl
  visits := fun _ _ henter _ hsteps ↦ h.exists_run_call hg henter hsteps
  restored := fun _ _ _ _ _ henter hrun hleave ↦ Run.path_restored hg h henter hrun hleave

/-- **The search comes to an end, and its path and marks stay in step.** A search below a starting
node needs no more steps than there are nodes. The machine has one run that comes to an end, with
the cycles that the search finds; all its other runs are beginnings of this one. No node is entered
twice on it, and every moment of it is in order. -/
theorem search_orderly (hg : g.EdgesInRange) :
    (∀ steps finished v, g.size ≤ steps → v < g.size →
      g.visit steps [] finished v = g.visit g.size [] finished v) ∧
    ∃ all last, g.Run g.start all last ∧ last.Ended ∧ last.findings = g.cycles ∧
      (entered all).Nodup ∧
      ∀ es m, g.Run g.start es m → m.Orderly g ∧ ∃ rest, all = es ++ rest ∧ g.Run m rest last := by
  refine ⟨fun steps finished v hsteps hv ↦ ?_, ?_⟩
  · exact visit_steps hg (isPath_singleton hv) (by simpa using hsteps) (by simp)
  · obtain ⟨all, last, hall, hended, hfindings⟩ := exists_run_cycles hg
    refine ⟨all, last, hall, hended, hfindings, hall.nodup_entered.1, fun es m hrun ↦ ⟨?_, ?_⟩⟩
    · exact (Moment.inStep_start.run hg hrun).orderly hg
    · exact hall.exists_rest hended hrun

/-- The call on `y` returns before the search comes to the cycle of `x` and `z`. -/
def sideBranch : DependencyGraph where
  names := ["x", "y", "z"]
  positions := [{}, {}, {}]
  index := [("x", 0), ("y", 1), ("z", 2)]
  adjacent := [[1, 2], [], [0]]

/-- After the return the path goes on as if `y` had not been there, and then closes at `x`. -/
theorem search_orderly_sideBranch :
    sideBranch.EdgesInRange ∧
    sideBranch.visit 3 [] [] 0 = sideBranch.visit 4 [] [] 0 ∧
    ∃ m m', sideBranch.Run sideBranch.start [.enter 0, .enter 1, .leave 1, .enter 2] m ∧
      sideBranch.Step m (.close 0) m' ∧ m.path = [2, 0] ∧ m.marks 1 = .done ∧ 0 ∈ m.path ∧
      m.Orderly sideBranch ∧
      ∃ rest last, sideBranch.Run m rest last ∧ last.findings = sideBranch.cycles := by
  have hrange : sideBranch.EdgesInRange := by decide
  obtain ⟨m, m', hrun, hclose, hpath, hmark⟩ : ∃ m m',
      sideBranch.Run sideBranch.start [.enter 0, .enter 1, .leave 1, .enter 2] m ∧
        sideBranch.Step m (.close 0) m' ∧ m.path = [2, 0] ∧ m.marks 1 = .done :=
    ⟨_, _, .step (.begin rfl rfl rfl) (.step (.descend rfl rfl rfl) (.step (.leave rfl rfl)
      (.step (.descend rfl rfl rfl) .refl))), .close rfl rfl rfl, rfl, rfl⟩
  obtain ⟨hsteps, all, last, -, -, hfindings, -, hmoments⟩ := search_orderly hrange
  obtain ⟨horderly, rest, -, hrest⟩ := hmoments _ _ hrun
  exact ⟨hrange, (hsteps 4 [] 0 (by decide) (by decide)).symm, m, m', hrun, hclose, hpath, hmark,
    (horderly.closed 0 m' hclose).1, horderly, rest, last, hrest, hfindings⟩

end DependencyGraph

end Questionnaire
