import Mathlib.Logic.Function.Basic
import Questionnaire.Proofs.Graph.Search

/-!
# The search for cycles, step by step

`DependencyGraph.cycles` is a fold of recursive calls that hand their path and their finished nodes
on. Here the same search is a machine that keeps **one** path and **one** mark for each node, and
changes them in place: a call notes its node on the path and marks it, and takes both back when it
returns. The calls that have not returned are on a stack, each with the edges it has yet to follow.
Once a cycle is closed they return one after another and leave path and marks as they are; what is
left over is put in order before the next starting node.

Nothing bounds the number of steps here. That the machine comes to an end is shown together with
where it ends: its steps from a call on are those of `visit` (`exists_run_visit`), so in the end it
has found `cycles` (`exists_run_cycles`), and since no moment allows two different steps
(`Step.unique`), it can do nothing else.
-/

namespace Questionnaire

namespace DependencyGraph

variable {g : DependencyGraph}

/-! ### Moments -/

/-- How far the search has come with a node. -/
inductive Mark where
  | unvisited
  | onPath
  | done
  deriving DecidableEq

/-- A call that has not returned. -/
structure Call where
  node : Nat
  /-- Where the edges lead that are still to be followed. -/
  edges : List Nat

/-- What is going on. -/
inductive Activity where
  /-- The next starting node is due. -/
  | idle
  /-- The last call follows its edges. -/
  | searching
  /-- A cycle was closed, and the calls return. -/
  | failing
  deriving DecidableEq

/-- A moment of the search. -/
structure Moment where
  doing : Activity := .idle
  /-- The starting nodes that are left. -/
  roots : List Nat
  /-- The calls that have not returned, the last one first. -/
  calls : List Call := []
  /-- The path, the last node first. -/
  path : List Nat := []
  marks : Nat → Mark := fun _ ↦ .unvisited
  findings : List Finding := []

/-- The first moment. -/
def start (g : DependencyGraph) : Moment where
  roots := List.range g.size

/-- Nothing is left to do. -/
def Moment.Ended (m : Moment) : Prop :=
  m.doing = .idle ∧ m.roots = []

/-- A call on a node begins. -/
def Moment.enter (g : DependencyGraph) (m : Moment) (v : Nat) : Moment :=
  { m with
    doing := .searching
    calls := ⟨v, g.edgesAt v⟩ :: m.calls
    path := v :: m.path
    marks := Function.update m.marks v .onPath }

/-! ### Steps -/

/-- What a step is about. -/
inductive Event where
  /-- A call on the node begins. -/
  | enter (v : Nat)
  /-- The call on the node returns, and no cycle was met below it. -/
  | leave (v : Nat)
  /-- The path closes to a cycle at the node. -/
  | close (w : Nat)
  /-- The call on the node returns since a cycle was closed. -/
  | giveUp (v : Nat)
  | pass
  deriving DecidableEq

/-- What happens next. -/
inductive Step (g : DependencyGraph) : Moment → Event → Moment → Prop
  | skip {m : Moment} {v : Nat} {roots : List Nat} (doing : m.doing = .idle)
      (due : m.roots = v :: roots) (seen : m.marks v ≠ .unvisited) :
      Step g m .pass { m with roots }
  | begin {m : Moment} {v : Nat} {roots : List Nat} (doing : m.doing = .idle)
      (due : m.roots = v :: roots) (new : m.marks v = .unvisited) :
      Step g m (.enter v) (({ m with roots } : Moment).enter g v)
  | descend {m : Moment} {v w : Nat} {edges : List Nat} {calls : List Call}
      (doing : m.doing = .searching) (due : m.calls = ⟨v, w :: edges⟩ :: calls)
      (new : m.marks w = .unvisited) :
      Step g m (.enter w) (({ m with calls := ⟨v, edges⟩ :: calls } : Moment).enter g w)
  | follow {m : Moment} {v w : Nat} {edges : List Nat} {calls : List Call}
      (doing : m.doing = .searching) (due : m.calls = ⟨v, w :: edges⟩ :: calls)
      (done : m.marks w = .done) :
      Step g m .pass { m with calls := ⟨v, edges⟩ :: calls }
  | close {m : Moment} {v w : Nat} {edges : List Nat} {calls : List Call}
      (doing : m.doing = .searching) (due : m.calls = ⟨v, w :: edges⟩ :: calls)
      (back : m.marks w = .onPath) :
      Step g m (.close w)
        { m with doing := .failing, findings := m.findings ++ [g.cycleFinding m.path w] }
  | leave {m : Moment} {v : Nat} {calls : List Call} (doing : m.doing = .searching)
      (due : m.calls = ⟨v, []⟩ :: calls) :
      Step g m (.leave v)
        { m with calls, path := m.path.tail, marks := Function.update m.marks v .done }
  /-- The call on the starting node has returned. -/
  | finish {m : Moment} (doing : m.doing = .searching) (due : m.calls = []) :
      Step g m .pass { m with doing := .idle, path := [] }
  /-- The node of the call stays on the path, and keeps its mark. -/
  | giveUp {m : Moment} {call : Call} {calls : List Call} (doing : m.doing = .failing)
      (due : m.calls = call :: calls) : Step g m (.giveUp call.node) { m with calls }
  /-- The nodes that are left on the path count as done. -/
  | reset {m : Moment} (doing : m.doing = .failing) (due : m.calls = []) :
      Step g m .pass
        { m with
          doing := .idle
          path := []
          marks := fun v ↦ if v ∈ m.path then .done else m.marks v }

/-- Some steps in a row. -/
inductive Run (g : DependencyGraph) : Moment → List Event → Moment → Prop
  | refl {m : Moment} : Run g m [] m
  | step {m m' last : Moment} {e : Event} {es : List Event} (next : g.Step m e m')
      (rest : Run g m' es last) : Run g m (e :: es) last

variable {m m' m'' last : Moment} {e e' : Event} {es es' : List Event}

theorem Run.trans (h : g.Run m es m') (h' : g.Run m' es' m'') : g.Run m (es ++ es') m'' := by
  induction h with
  | refl => exact h'
  | step next _ ih => exact .step next (ih h')

/-- No moment allows two different steps. -/
theorem Step.unique (h : g.Step m e m') (h' : g.Step m e' m'') : e = e' ∧ m' = m'' := by
  cases h <;> cases h' <;> simp_all

theorem Moment.Ended.not_step (h : m.Ended) : ¬ g.Step m e m' := by
  obtain ⟨hdoing, hroots⟩ := h
  intro hstep
  cases hstep <;> simp_all

/-- Every run is the beginning of the one that comes to an end. -/
theorem Run.exists_rest (hall : g.Run m es last) (hended : last.Ended) (h : g.Run m es' m') :
    ∃ rest, es = es' ++ rest ∧ g.Run m' rest last := by
  induction h generalizing es with
  | refl => exact ⟨es, rfl, hall⟩
  | step next _ ih =>
    cases hall with
    | refl => exact absurd next hended.not_step
    | step next' hall =>
      obtain ⟨rfl, rfl⟩ := next.unique next'
      obtain ⟨rest, rfl, hrest⟩ := ih hall
      exact ⟨rest, rfl, hrest⟩

/-! ### The steps of a call -/

theorem IsPath.not_mem {v : Nat} {path : List Nat} (h : g.IsPath (v :: path)) : v ∉ path :=
  (List.nodup_cons.1 h.nodup).1

/-- A path to a node has fewer nodes than the graph. -/
theorem IsPath.length_lt {v : Nat} {path : List Nat} (h : g.IsPath (v :: path)) :
    path.length < g.size :=
  h.length_le

/-- The mark of a node by what `visit` hands on: the path and the finished nodes. -/
def markOf (path finished : List Nat) (v : Nat) : Mark :=
  if v ∈ path then .onPath else if v ∈ finished then .done else .unvisited

theorem update_markOf_onPath (path finished : List Nat) (v : Nat) :
    Function.update (markOf path finished) v .onPath = markOf (v :: path) finished := by
  funext x
  by_cases hx : x = v <;> simp [markOf, Function.update, hx]

theorem update_markOf_done {path : List Nat} {v : Nat} (hv : v ∉ path) (finished : List Nat) :
    Function.update (markOf (v :: path) finished) v .done = markOf path (v :: finished) := by
  funext x
  by_cases hx : x = v
  · simp [markOf, Function.update, hx, hv]
  · simp [markOf, Function.update, hx]

theorem reset_markOf (path finished : List Nat) :
    (fun v ↦ if v ∈ path then .done else markOf path finished v) =
      markOf [] (path ++ finished) := by
  funext x
  by_cases hx : x ∈ path <;> simp [markOf, hx]

/-- The moment with a given path and given finished nodes. -/
def momentAt (doing : Activity) (roots : List Nat) (calls : List Call) (path finished : List Nat)
    (findings : List Finding) : Moment :=
  { doing, roots, calls, path, marks := markOf path finished, findings }

/-- The moment at which a call has returned to `calls` and `path`, or has been given up. -/
def Outcome.moment (g : DependencyGraph) (roots : List Nat) (calls : List Call) (path : List Nat)
    (findings : List Finding) : Outcome → Moment
  | .clear finished => momentAt .searching roots calls path finished findings
  | .cycle finished path' target =>
    momentAt .failing roots calls path' finished (findings ++ [g.cycleFinding path' target])

variable {roots path finished : List Nat} {calls : List Call} {findings : List Finding} {v : Nat}

theorem step_begin (hv : v ∉ finished) :
    g.Step (momentAt .idle (v :: roots) [] [] finished findings) (.enter v)
      (momentAt .searching roots [⟨v, g.edgesAt v⟩] [v] finished findings) := by
  have hmark : markOf [] finished v = .unvisited := by simp [markOf, hv]
  rw [momentAt, momentAt, ← update_markOf_onPath]
  exact .begin rfl rfl hmark

theorem step_descend {w : Nat} {ws : List Nat} (hpath : w ∉ path) (hfinished : w ∉ finished) :
    g.Step (momentAt .searching roots (⟨v, w :: ws⟩ :: calls) path finished findings) (.enter w)
      (momentAt .searching roots (⟨w, g.edgesAt w⟩ :: ⟨v, ws⟩ :: calls) (w :: path) finished
        findings) := by
  have hmark : markOf path finished w = .unvisited := by simp [markOf, hpath, hfinished]
  rw [momentAt, momentAt, ← update_markOf_onPath]
  exact .descend rfl rfl hmark

theorem step_leave (hv : v ∉ path) :
    g.Step (momentAt .searching roots (⟨v, []⟩ :: calls) (v :: path) finished findings) (.leave v)
      (momentAt .searching roots calls path (v :: finished) findings) := by
  rw [momentAt, momentAt, ← update_markOf_done hv]
  exact .leave rfl rfl

theorem step_reset :
    g.Step (momentAt .failing roots [] path finished findings) .pass
      (momentAt .idle roots [] [] (path ++ finished) findings) := by
  rw [momentAt, momentAt, ← reset_markOf]
  exact .reset rfl rfl

theorem foldl_follow_cycle (below : List Nat → Nat → Outcome) (path' : List Nat) (target : Nat)
    (ws : List Nat) :
    ws.foldl (follow path below) (.cycle finished path' target) =
      .cycle finished path' target := by
  induction ws with
  | nil => rfl
  | cons w ws ih => exact ih

/-- **The edges of a node**, from any of them on, by induction on those still to follow. The step of
the machine for an edge is told by the mark of its target, and `follow` tells by the same. -/
theorem exists_run_edges {below : List Nat → Nat → Outcome} (hv : v ∉ path)
    (hbelow : ∀ w ws later, g.Edge v w → w ∉ v :: path →
      ∃ es, g.Run
        (momentAt .searching roots (⟨w, g.edgesAt w⟩ :: ⟨v, ws⟩ :: calls) (w :: v :: path) later
          findings) es
        ((below later w).moment g roots (⟨v, ws⟩ :: calls) (v :: path) findings)) :
    ∀ ws finished, (∀ w ∈ ws, g.Edge v w) →
      ∃ es, g.Run (momentAt .searching roots (⟨v, ws⟩ :: calls) (v :: path) finished findings) es
        (((ws.foldl (follow (v :: path) below) (.clear finished)).finish v).moment
          g roots calls path findings) := by
  intro ws
  induction ws with
  | nil =>
    intro finished _
    exact ⟨_, .step (step_leave hv) .refl⟩
  | cons w ws ih =>
    intro finished hws
    obtain ⟨hw, hrest⟩ := List.forall_mem_cons.1 hws
    rw [List.foldl_cons]
    by_cases hback : w ∈ v :: path
    · -- an edge back to the path: the cycle is closed, and the call given up
      have hfollow : follow (v :: path) below (.clear finished) w = .cycle finished (v :: path) w :=
        if_pos (List.contains_iff_mem.2 hback)
      rw [hfollow, foldl_follow_cycle]
      exact ⟨_, .step (.close rfl rfl (if_pos hback)) (.step (.giveUp rfl rfl) .refl)⟩
    by_cases hdone : w ∈ finished
    · -- an edge to a finished node
      have hfollow : follow (v :: path) below (.clear finished) w = .clear finished := by
        simp [follow, hback, hdone]
      have hmark : markOf (v :: path) finished w = .done := by simp [markOf, hback, hdone]
      obtain ⟨es, hrun⟩ := ih finished hrest
      rw [hfollow]
      exact ⟨_, .step (.follow rfl rfl hmark) hrun⟩
    · -- an edge to a new node: what the call on it comes to decides whether the edges go on
      have hfollow : follow (v :: path) below (.clear finished) w = below finished w := by
        simp [follow, hback, hdone]
      obtain ⟨es, hrun⟩ := hbelow w ws finished hw hback
      rw [hfollow]
      cases ho : below finished w with
      | clear later =>
        rw [ho] at hrun
        obtain ⟨es', hrun'⟩ := ih later hrest
        exact ⟨_, .step (step_descend hback hdone) (hrun.trans hrun')⟩
      | cycle later path' target =>
        rw [ho] at hrun
        rw [foldl_follow_cycle]
        exact ⟨_, .step (step_descend hback hdone) (hrun.trans (.step (.giveUp rfl rfl) .refl))⟩

/-- **A call.** Its steps lead to the moment that the search below its node comes to, if that search
is given enough steps: as many as there are nodes beside the path. -/
theorem exists_run_visit (hg : g.EdgesInRange) :
    ∀ {steps : Nat} {path finished : List Nat} {v : Nat} {calls : List Call}, g.IsPath (v :: path) →
      g.size ≤ steps + path.length →
      ∃ es, g.Run
        (momentAt .searching roots (⟨v, g.edgesAt v⟩ :: calls) (v :: path) finished findings) es
        ((g.visit steps path finished v).moment g roots calls path findings) := by
  intro steps
  induction steps with
  | zero =>
    intro path finished v calls hpath hsteps
    have hlt := hpath.length_lt
    omega
  | succ steps ih =>
    intro path finished v calls hpath hsteps
    refine exists_run_edges hpath.not_mem (fun w ws later hw hfresh ↦ ?_)
      (g.edgesAt v) finished fun _ hw ↦ hw
    refine ih (hpath.cons hw (hg.target_lt hw) hfresh) ?_
    rw [List.length_cons]
    omega

/-! ### The whole search -/

/-- **The search from one starting node.** -/
theorem exists_run_searchFrom (hg : g.EdgesInRange) (state : List Nat × List Finding)
    (hv : v < g.size) :
    ∃ es, g.Run (momentAt .idle (v :: roots) [] [] state.1 state.2) es
      (momentAt .idle roots [] [] (g.searchFrom state v).1 (g.searchFrom state v).2) := by
  rw [searchFrom]
  by_cases hmem : v ∈ state.1
  · have hmark : markOf [] state.1 v ≠ .unvisited := by simp [markOf, hmem]
    rw [if_pos (List.contains_iff_mem.2 hmem)]
    exact ⟨_, .step (.skip rfl rfl hmark) .refl⟩
  · rw [if_neg fun h ↦ hmem (List.contains_iff_mem.1 h)]
    obtain ⟨es, hrun⟩ : ∃ es, g.Run
        (momentAt .searching roots [⟨v, g.edgesAt v⟩] [v] state.1 state.2) es
        ((g.visit (g.size + 1) [] state.1 v).moment g roots [] [] state.2) :=
      exists_run_visit hg (isPath_singleton hv) (by simp)
    cases ho : g.visit (g.size + 1) [] state.1 v with
    | clear later =>
      rw [ho] at hrun
      exact ⟨_, .step (step_begin hmem) (hrun.trans (.step (.finish rfl rfl) .refl))⟩
    | cycle later path target =>
      rw [ho] at hrun
      exact ⟨_, .step (step_begin hmem) (hrun.trans (.step step_reset .refl))⟩

theorem exists_run_foldl (hg : g.EdgesInRange) :
    ∀ (vs : List Nat) (state : List Nat × List Finding), (∀ v ∈ vs, v < g.size) →
      ∃ es, g.Run (momentAt .idle vs [] [] state.1 state.2) es
        (momentAt .idle [] [] [] (vs.foldl g.searchFrom state).1
          (vs.foldl g.searchFrom state).2) := by
  intro vs
  induction vs with
  | nil => exact fun state _ ↦ ⟨_, .refl⟩
  | cons v vs ih =>
    intro state hvs
    obtain ⟨hv, hrest⟩ := List.forall_mem_cons.1 hvs
    obtain ⟨es, hrun⟩ := exists_run_searchFrom hg state hv
    obtain ⟨es', hrun'⟩ := ih (g.searchFrom state v) hrest
    exact ⟨_, hrun.trans hrun'⟩

/-- **The machine comes to an end**, and has then found the cycles of the graph. -/
theorem exists_run_cycles (hg : g.EdgesInRange) :
    ∃ es last, g.Run g.start es last ∧ last.Ended ∧ last.findings = g.cycles := by
  obtain ⟨es, hrun⟩ := exists_run_foldl hg (List.range g.size) ([], []) fun _ ↦ List.mem_range.1
  have hstart : g.start = momentAt .idle (List.range g.size) [] [] [] [] := rfl
  exact ⟨es, _, hstart ▸ hrun, ⟨rfl, rfl⟩, rfl⟩

end DependencyGraph

end Questionnaire
