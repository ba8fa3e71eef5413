import Mathlib.Data.List.Perm.Basic
import Questionnaire.Proofs.Dependencies
import Questionnaire.Proofs.Phases

/-!
# The order of statements

Statements may be put in another order, in the form and in any block of it. That moves the symbols
of the table, the nodes and edges of the dependency graph and the starting points of the search;
what does not move is what the phases are decided by. `Form.ReorderOf` says that two forms differ in
that order only, and the questions of the two, their dependencies and what their statements have to
say for themselves are then permutations of each other.

All of these come from one lemma, `Reorders.flatMap_perm`, on anything that is collected statement
by statement. The findings of the third phase need one fact more: a table matters only through the
types it gives (`check_congr`), and with distinct ids those do not depend on the order.
-/

namespace Questionnaire

namespace Statement

variable {l l' : List Statement}

/-- One list of statements is another in a different order: its statements are permuted, or those in
the block of one of its conditions are reordered, or one such change follows another. -/
inductive Reorders : List Statement → List Statement → Prop
  | perm {l l' : List Statement} (h : l.Perm l') : Reorders l l'
  | block (front : List Statement) (p : Position) (guard : Expr) {body body' : List Statement}
      (rest : List Statement) (h : Reorders body body') :
      Reorders (front ++ .condition p guard body :: rest)
        (front ++ .condition p guard body' :: rest)
  | trans {l₁ l₂ l₃ : List Statement} (h : Reorders l₁ l₂) (h' : Reorders l₂ l₃) : Reorders l₁ l₃

theorem nestedAll_eq_flatMap (l : List Statement) : nestedAll l = l.flatMap withNested := by
  induction l with
  | nil => rw [nestedAll, List.flatMap_nil]
  | cons s rest ih => rw [nestedAll, List.flatMap_cons, ih]

theorem nestedAll_block (front : List Statement) (p : Position) (guard : Expr)
    (body rest : List Statement) :
    nestedAll (front ++ .condition p guard body :: rest) =
      nestedAll front ++ .condition p guard body :: (nestedAll body ++ nestedAll rest) := by
  rw [nestedAll_eq_flatMap, List.flatMap_append, ← nestedAll_eq_flatMap, ← nestedAll_eq_flatMap,
    nestedAll_condition]

/-- **What is collected statement by statement is permuted**, if what a condition contributes itself
is permuted when its block is reordered. -/
theorem Reorders.flatMap_perm {α : Type} {F : Statement → List α}
    (hF : ∀ p guard {body body'}, Reorders body body' →
      (F (.condition p guard body)).Perm (F (.condition p guard body')))
    (h : Reorders l l') : ((nestedAll l).flatMap F).Perm ((nestedAll l').flatMap F) := by
  induction h with
  | perm h =>
    rw [nestedAll_eq_flatMap, nestedAll_eq_flatMap]
    exact (h.flatMap_right withNested).flatMap_right F
  | block front p guard rest h ih =>
    simp only [nestedAll_block, List.flatMap_append, List.flatMap_cons]
    exact ((hF p guard h).append (ih.append_right _)).append_left _
  | trans _ _ ih ih' => exact ih.trans ih'

/-- What holds of all statements, and of a condition whatever its block is, holds in any order. -/
theorem Reorders.forall_mem {P : Statement → Prop}
    (hP : ∀ p guard body body', P (.condition p guard body) → P (.condition p guard body'))
    (h : Reorders l l') : (∀ s ∈ nestedAll l, P s) → ∀ s ∈ nestedAll l', P s := by
  induction h with
  | perm h =>
    intro hall s hs
    rw [nestedAll_eq_flatMap] at hs
    refine hall s ?_
    rw [nestedAll_eq_flatMap]
    exact (h.flatMap_right withNested).mem_iff.2 hs
  | block front p guard rest h ih =>
    simp only [nestedAll_block, List.forall_mem_append, List.forall_mem_cons]
    rintro ⟨hfront, hcondition, hbody, hrest⟩
    exact ⟨hfront, hP p guard _ _ hcondition, ih hbody, hrest⟩
  | trans _ _ ih ih' => exact fun hall ↦ ih' (ih hall)

/-- The questions directly in a list are permuted. -/
theorem Reorders.filterMap_question? (h : Reorders l l') :
    (l.filterMap question?).Perm (l'.filterMap question?) := by
  induction h with
  | perm h => exact h.filterMap question?
  | block front p guard rest h ih =>
    rw [List.filterMap_append, List.filterMap_append, List.filterMap_cons_none rfl,
      List.filterMap_cons_none rfl]
  | trans _ _ ih ih' => exact ih.trans ih'

end Statement

/-! ### A table matters through its types -/

namespace Typing

variable {file : String} {table table' : SymbolTable}

theorem check_congr (h : ∀ name, table.type? name = table'.type? name) (e : Expr) :
    ∀ findings, check file table findings e = check file table' findings e := by
  induction e with
  | absent => exact fun _ ↦ rfl
  | literal p v => exact fun _ ↦ rfl
  | reference p n =>
    intro findings
    have hn := h n
    rw [SymbolTable.type?, SymbolTable.type?] at hn
    rw [check, check]
    cases hlookup : table.lookup n with
    | none =>
      rw [hlookup, Option.map_none, eq_comm, Option.map_eq_none_iff] at hn
      rw [hn]
    | some s =>
      rw [hlookup, Option.map_some, eq_comm, Option.map_eq_some_iff] at hn
      obtain ⟨s', hlookup', htype⟩ := hn
      simp only [hlookup', htype]
  | unary p op x ih =>
    intro findings
    rw [check, check, ih]
  | binary p op l r ihl ihr =>
    intro findings
    rw [check, check, ihl]
    simp only [ihr]

theorem ownFindings_congr (h : ∀ name, table.type? name = table'.type? name) (s : Statement) :
    ownFindings file table s = ownFindings file table' s := by
  have houtcome : ∀ e, outcome file table e = outcome file table' e := by
    intro e
    rw [outcome, outcome, check_congr h]
  cases s with
  | question q => rfl
  | calculated q value => rw [ownFindings, ownFindings, houtcome]
  | condition p guard body => rw [ownFindings, ownFindings, houtcome]

end Typing

namespace Form

variable {f f' : Form}

/-! ### Reordered forms -/

/-- Two forms that differ at most in the order of their statements. -/
structure ReorderOf (f f' : Form) : Prop where
  name : f.name = f'.name
  file : f.file = f'.file
  statements : Statement.Reorders f.statements f'.statements

namespace ReorderOf

theorem questions_perm (h : f.ReorderOf f') : f.questions.Perm f'.questions := by
  rw [questions, questions, List.filterMap_eq_flatMap_toList, List.filterMap_eq_flatMap_toList]
  exact h.statements.flatMap_perm fun _ _ _ _ _ ↦ .refl _

theorem ids_nodup_iff (h : f.ReorderOf f') : f.ids.Nodup ↔ f'.ids.Nodup :=
  (h.questions_perm.map Question.id).nodup_iff

theorem dependents_perm (h : f.ReorderOf f') : f.dependents.Perm f'.dependents := by
  rw [dependents, dependents, Statement.dependentsAll_eq_flatMap,
    Statement.dependentsAll_eq_flatMap]
  refine h.statements.flatMap_perm fun p guard body body' hbody ↦ ?_
  -- the questions of the block come in another order, and each with the same dependencies
  exact hbody.filterMap_question?.map (Statement.dependentOn guard)

theorem dependenciesAcyclic_iff (h : f.ReorderOf f') :
    f.DependenciesAcyclic ↔ f'.DependenciesAcyclic :=
  dependenciesAcyclic_congr fun _ ↦ h.dependents_perm.mem_iff

theorem operandsPresent (h : f.ReorderOf f') (hpresent : f.OperandsPresent) :
    f'.OperandsPresent :=
  h.statements.forall_mem (fun _ _ _ _ hguard ↦ hguard) hpresent

/-- With distinct ids, the types that the table gives do not depend on the order. -/
theorem type?_resolveSymbols (h : f.ReorderOf f') (hids : f.ids.Nodup) (name : String) :
    f.resolveSymbols.1.type? name = f'.resolveSymbols.1.type? name := by
  refine Option.ext fun t ↦ ?_
  rw [type?_resolveSymbols_eq_some_iff hids,
    type?_resolveSymbols_eq_some_iff (h.ids_nodup_iff.1 hids)]
  simp only [h.questions_perm.mem_iff]

theorem typeFindings_perm (h : f.ReorderOf f') (hids : f.ids.Nodup) :
    f.typeFindings.Perm f'.typeFindings := by
  have hown : Typing.ownFindings f'.file f'.resolveSymbols.1 =
      Typing.ownFindings f.file f.resolveSymbols.1 := by
    funext s
    rw [← h.file]
    exact (Typing.ownFindings_congr (h.type?_resolveSymbols hids) s).symm
  rw [typeFindings, typeFindings, hown]
  exact h.statements.flatMap_perm fun _ _ _ _ _ ↦ .refl _

end ReorderOf

/-- **The verdict does not depend on the order of statements.** Two forms that differ in it end in
the same phase; the one is accepted exactly when the other is; and the findings of the third phase
are the same up to order. -/
theorem check_reordered (hpresent : f.OperandsPresent) (h : f.ReorderOf f') :
    ∃ v v', f.check = some v ∧ f'.check = some v' ∧ v.phase = v'.phase ∧
      (v.errors = [] ↔ v'.errors = []) ∧ (v.phase = .types → v.errors.Perm v'.errors) := by
  -- what decides the phase does not depend on the order, so both checks end in the same one
  by_cases hids : f.ids.Nodup
  · have hids' := h.ids_nodup_iff.1 hids
    by_cases hacyclic : f.DependenciesAcyclic
    · have hcheck := check_of_acyclic hids hacyclic hpresent
      have hcheck' := check_of_acyclic hids' (h.dependenciesAcyclic_iff.1 hacyclic)
        (h.operandsPresent hpresent)
      have hperm : f.typesVerdict.errors.Perm f'.typesVerdict.errors := h.typeFindings_perm hids
      refine ⟨_, _, hcheck, hcheck', rfl, ⟨fun hnil ↦ ?_, fun hnil ↦ ?_⟩, fun _ ↦ hperm⟩
      · rw [hnil] at hperm
        exact List.nil_perm.1 hperm
      · rw [hnil] at hperm
        exact List.perm_nil.1 hperm
    · -- the cycles found may differ, but both forms have some
      obtain ⟨hcheck, hne⟩ := check_of_cyclic hids hacyclic
      obtain ⟨hcheck', hne'⟩ :=
        check_of_cyclic hids' fun hacyclic' ↦ hacyclic (h.dependenciesAcyclic_iff.2 hacyclic')
      exact ⟨_, _, hcheck, hcheck', rfl, iff_of_false hne hne', fun hphase ↦ nomatch hphase⟩
  · obtain ⟨hcheck, hne⟩ := check_of_repeated hids
    obtain ⟨hcheck', hne'⟩ := check_of_repeated fun hids' ↦ hids (h.ids_nodup_iff.2 hids')
    exact ⟨_, _, hcheck, hcheck', rfl, iff_of_false hne hne', fun hphase ↦ nomatch hphase⟩

/-- A calculated question of the wrong type, ahead of the question it refers to. -/
def feeTotal : Statement :=
  .calculated { id := "total", type := .boolean, pos := { line := 1, column := 1 } }
    (.binary { line := 1, column := 9 } .addition (.literal { line := 1, column := 7 } (.integer 1))
      (.reference { line := 1, column := 11 } "fee"))

/-- A block under a guard that is not Boolean. -/
def feeBlock (body : List Statement) : Statement :=
  .condition { line := 2, column := 1 } (.literal { line := 2, column := 5 } (.integer 1)) body

/-- The statements of that block: a question, and a calculated one with an operand that its operator
does not take. -/
def feeQuestions : List Statement :=
  [.question { id := "fee", type := .integer, pos := { line := 3, column := 3 } },
    .calculated { id := "note", type := .string, pos := { line := 4, column := 3 } }
      (.unary { line := 4, column := 9 } .negative
        (.literal { line := 4, column := 10 } (.string "-")))]

theorem check_reordered_fee :
    let f : Form := { statements := [feeTotal, feeBlock feeQuestions] }
    let f' : Form := { statements := [feeBlock feeQuestions.reverse, feeTotal] }
    f.OperandsPresent ∧ f.ReorderOf f' ∧
      ∃ v v', f.check = some v ∧ f'.check = some v' ∧ v.phase = .types ∧ v'.phase = .types ∧
        v.errors.Perm v'.errors ∧ v.errors ≠ v'.errors := by
  intro f f'
  have hpresent : f.OperandsPresent := by decide
  have hreorder : f.ReorderOf f' := by
    refine ⟨rfl, rfl, .trans (.perm (.swap _ _ _)) ?_⟩
    exact .block [] _ _ [feeTotal] (.perm (List.reverse_perm feeQuestions).symm)
  obtain ⟨v, v', hcheck, hcheck', hphase, -, hperm⟩ := check_reordered hpresent hreorder
  have htypes : f.check.map Verdict.phase = some .types := by decide
  have hdiffer : f.check.map Verdict.errors ≠ f'.check.map Verdict.errors := by decide
  rw [hcheck] at htypes
  rw [hcheck, hcheck'] at hdiffer
  have hv : v.phase = .types := Option.some.inj htypes
  exact ⟨hpresent, hreorder, v, v', hcheck, hcheck', hv, hphase ▸ hv, hperm hv,
    fun heq ↦ hdiffer (congrArg some heq)⟩

end Form

end Questionnaire
