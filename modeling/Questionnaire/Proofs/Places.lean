import Mathlib.Data.List.Nodup
import Questionnaire.Form.Statement

/-!
# Statements and their places

Conditions hold statements, so a statement stands at a **place**: a list of indices that leads
through the blocks of conditions down to it. `Statement.At` says which statement stands where. It is
the reading of *at any depth* that the properties of forms are stated with, and it knows nothing of
the lists that the analyses go through.

The bridge between the two is `mem_nestedAll_iff`: the list of all statements holds exactly those
that stand somewhere. For questions more is needed, since the same question can stand at two places:
`nodup_ids_iff` says that the ids in the list are distinct exactly when no id is declared at two
places.

`listInduction` is the induction over lists of statements, with one case for each kind of statement
in front; every recursion over the statements of a form is taken apart by it.
-/

namespace Questionnaire

namespace Statement

/-- Induction over a list of statements and the blocks in it. -/
@[elab_as_elim]
theorem listInduction {motive : List Statement → Prop} (nil : motive [])
    (question : ∀ q rest, motive rest → motive (.question q :: rest))
    (calculated : ∀ q value rest, motive rest → motive (.calculated q value :: rest))
    (condition : ∀ p guard body rest, motive body → motive rest →
      motive (.condition p guard body :: rest)) :
    ∀ l : List Statement, motive l
  | [] => nil
  | .question q :: rest =>
    question q rest (listInduction nil question calculated condition rest)
  | .calculated q value :: rest =>
    calculated q value rest (listInduction nil question calculated condition rest)
  | .condition p guard body :: rest =>
    condition p guard body rest (listInduction nil question calculated condition body)
      (listInduction nil question calculated condition rest)

/-! ### The list of all statements -/

@[simp]
theorem nestedAll_nil : nestedAll [] = [] := by
  rw [nestedAll]

@[simp]
theorem nestedAll_question (q : Question) (rest : List Statement) :
    nestedAll (.question q :: rest) = .question q :: nestedAll rest := by
  rw [nestedAll, withNested, List.singleton_append]
  exact fun _ _ _ ↦ Statement.noConfusion

@[simp]
theorem nestedAll_calculated (q : Question) (value : Expr) (rest : List Statement) :
    nestedAll (.calculated q value :: rest) = .calculated q value :: nestedAll rest := by
  rw [nestedAll, withNested, List.singleton_append]
  exact fun _ _ _ ↦ Statement.noConfusion

@[simp]
theorem nestedAll_condition (p : Position) (guard : Expr) (body rest : List Statement) :
    nestedAll (.condition p guard body :: rest) =
      .condition p guard body :: (nestedAll body ++ nestedAll rest) := by
  rw [nestedAll, withNested, List.cons_append]

/-! ### Places -/

/-- The statement `s` stands at a place below a list: at an index of it, or at a place below the
block of a condition at an index of it. -/
inductive At : List Statement → List Nat → Statement → Prop
  | here {l : List Statement} {i : Nat} {s : Statement} (h : l[i]? = some s) : At l [i] s
  | inside {l : List Statement} {i : Nat} {p : Position} {guard : Expr} {body : List Statement}
      {path : List Nat} {s : Statement} (h : l[i]? = some (.condition p guard body))
      (inner : At body path s) : At l (i :: path) s

theorem not_at_nil {path : List Nat} {s : Statement} : ¬ At [] path s := by
  rintro (h | ⟨h, -⟩) <;> simp at h

/-- A place below a list is a place of its first statement, or one below the rest with the first
index moved by one. -/
theorem at_cons_iff {s t : Statement} {rest : List Statement} {path : List Nat} :
    At (s :: rest) path t ↔
      (path = [0] ∧ t = s) ∨
      (∃ p guard body path', s = .condition p guard body ∧ path = 0 :: path' ∧ At body path' t) ∨
      (∃ i path', path = (i + 1) :: path' ∧ At rest (i :: path') t) := by
  constructor
  · rintro (h | ⟨h, inner⟩)
    · rename_i i
      cases i with
      | zero => exact Or.inl ⟨rfl, (Option.some.inj h).symm⟩
      | succ i => exact Or.inr (Or.inr ⟨i, [], rfl, .here h⟩)
    · rename_i i p guard body path
      cases i with
      | zero => exact Or.inr (Or.inl ⟨p, guard, body, path, Option.some.inj h, rfl, inner⟩)
      | succ i => exact Or.inr (Or.inr ⟨i, path, rfl, .inside h inner⟩)
  · rintro (⟨rfl, rfl⟩ | ⟨p, guard, body, path', rfl, rfl, inner⟩ | ⟨i, path', rfl, hrest⟩)
    · exact .here rfl
    · exact .inside rfl inner
    · rcases hrest with h | ⟨h, inner⟩
      · exact .here h
      · exact .inside h inner

theorem exists_at_cons_iff {s t : Statement} {rest : List Statement} :
    (∃ path, At (s :: rest) path t) ↔
      t = s ∨ (∃ p guard body, s = .condition p guard body ∧ ∃ path, At body path t) ∨
      ∃ path, At rest path t := by
  constructor
  · rintro ⟨path, h⟩
    rcases at_cons_iff.1 h with ⟨-, rfl⟩ | ⟨p, guard, body, path', rfl, -, inner⟩ | ⟨i, path', -, h⟩
    · exact Or.inl rfl
    · exact Or.inr (Or.inl ⟨p, guard, body, rfl, path', inner⟩)
    · exact Or.inr (Or.inr ⟨i :: path', h⟩)
  · rintro (rfl | ⟨p, guard, body, rfl, path, inner⟩ | ⟨path, h⟩)
    · exact ⟨[0], .here rfl⟩
    · exact ⟨0 :: path, .inside rfl inner⟩
    · cases h with
      | here h => exact ⟨[_], at_cons_iff.2 (Or.inr (Or.inr ⟨_, [], rfl, .here h⟩))⟩
      | inside h inner =>
        exact ⟨_ :: _, at_cons_iff.2 (Or.inr (Or.inr ⟨_, _, rfl, .inside h inner⟩))⟩

/-- **The list of all statements** holds those that stand somewhere. -/
theorem mem_nestedAll_iff {l : List Statement} {t : Statement} :
    t ∈ nestedAll l ↔ ∃ path, At l path t := by
  induction l using listInduction with
  | nil => simp [not_at_nil]
  | question q rest ih => rw [nestedAll_question, List.mem_cons, exists_at_cons_iff, ih]; simp
  | calculated q value rest ih =>
    rw [nestedAll_calculated, List.mem_cons, exists_at_cons_iff, ih]
    simp
  | condition p guard body rest ihbody ihrest =>
    rw [nestedAll_condition, List.mem_cons, List.mem_append, exists_at_cons_iff, ihbody, ihrest]
    simp

/-! ### Declarations and their places -/

/-- The question or calculated question `q` stands at a place below a list. -/
def DeclaredAt (l : List Statement) (path : List Nat) (q : Question) : Prop :=
  ∃ s, At l path s ∧ s.question? = some q

/-- No id is declared at two places below a list. -/
def IdsDistinct (l : List Statement) : Prop :=
  ∀ path path' q q', DeclaredAt l path q → DeclaredAt l path' q' → q.id = q'.id → path = path'

theorem mem_questions_iff {l : List Statement} {q : Question} :
    q ∈ (nestedAll l).filterMap question? ↔ ∃ path, DeclaredAt l path q := by
  rw [List.mem_filterMap]
  constructor
  · rintro ⟨s, hs, hq⟩
    obtain ⟨path, hat⟩ := mem_nestedAll_iff.1 hs
    exact ⟨path, s, hat, hq⟩
  · rintro ⟨path, s, hat, hq⟩
    exact ⟨s, mem_nestedAll_iff.2 ⟨path, hat⟩, hq⟩

theorem mem_ids_iff {l : List Statement} {id : String} :
    id ∈ ((nestedAll l).filterMap question?).map Question.id ↔
      ∃ path q, DeclaredAt l path q ∧ q.id = id := by
  simp only [List.mem_map, mem_questions_iff]
  constructor
  · rintro ⟨q, ⟨path, hq⟩, hid⟩
    exact ⟨path, q, hq, hid⟩
  · rintro ⟨path, q, hq, hid⟩
    exact ⟨q, ⟨path, hq⟩, hid⟩

theorem declaredAt_cons_of_question {s : Statement} {r : Question} (hs : s.question? = some r)
    {rest : List Statement} {path : List Nat} {q : Question} :
    DeclaredAt (s :: rest) path q ↔
      (∃ path', path = 0 :: path' ∧ path' = [] ∧ q = r) ∨
      ∃ i path', path = (i + 1) :: path' ∧ DeclaredAt rest (i :: path') q := by
  constructor
  · rintro ⟨t, hat, hq⟩
    rcases at_cons_iff.1 hat with ⟨rfl, rfl⟩ | ⟨p, guard, body, path', rfl, -⟩ | ⟨i, path', rfl, h⟩
    · exact Or.inl ⟨[], rfl, rfl, Option.some.inj (hq.symm.trans hs)⟩
    · exact absurd hs (by simp [question?])
    · exact Or.inr ⟨i, path', rfl, t, h, hq⟩
  · rintro (⟨path', rfl, rfl, rfl⟩ | ⟨i, path', rfl, t, h, hq⟩)
    · exact ⟨s, .here rfl, hs⟩
    · exact ⟨t, at_cons_iff.2 (Or.inr (Or.inr ⟨i, path', rfl, h⟩)), hq⟩

theorem declaredAt_cons_condition {p : Position} {guard : Expr} {body rest : List Statement}
    {path : List Nat} {q : Question} :
    DeclaredAt (.condition p guard body :: rest) path q ↔
      (∃ path', path = 0 :: path' ∧ DeclaredAt body path' q) ∨
      ∃ i path', path = (i + 1) :: path' ∧ DeclaredAt rest (i :: path') q := by
  constructor
  · rintro ⟨t, hat, hq⟩
    rcases at_cons_iff.1 hat with ⟨rfl, rfl⟩ | ⟨p, guard, body, path', heq, rfl, inner⟩ |
      ⟨i, path', rfl, h⟩
    · exact absurd hq (by simp [question?])
    · obtain ⟨-, -, rfl⟩ := Statement.condition.inj heq
      exact Or.inl ⟨path', rfl, t, inner, hq⟩
    · exact Or.inr ⟨i, path', rfl, t, h, hq⟩
  · rintro (⟨path', rfl, t, inner, hq⟩ | ⟨i, path', rfl, t, h, hq⟩)
    · exact ⟨t, .inside rfl inner, hq⟩
    · exact ⟨t, at_cons_iff.2 (Or.inr (Or.inr ⟨i, path', rfl, h⟩)), hq⟩

/-- Distinct ids below a list, by what its first statement declares (`head`) and the rest. -/
theorem idsDistinct_cons {s : Statement} {rest : List Statement}
    {head : List Nat → Question → Prop}
    (hs : ∀ path q, DeclaredAt (s :: rest) path q ↔ (∃ path', path = 0 :: path' ∧ head path' q) ∨
      ∃ i path', path = (i + 1) :: path' ∧ DeclaredAt rest (i :: path') q) :
    IdsDistinct (s :: rest) ↔
      (∀ path path' q q', head path q → head path' q' → q.id = q'.id → path = path') ∧
      IdsDistinct rest ∧
      ∀ path path' q q', head path q → DeclaredAt rest path' q' → q.id ≠ q'.id := by
  -- a place below the rest, seen from the whole list
  have hrest : ∀ {path q}, DeclaredAt rest path q →
      ∃ i path', path = i :: path' ∧ DeclaredAt (s :: rest) ((i + 1) :: path') q := by
    rintro path q ⟨t, hat, hq⟩
    cases hat with
    | here h => exact ⟨_, [], rfl, (hs _ q).2 (Or.inr ⟨_, [], rfl, t, .here h, hq⟩)⟩
    | inside h inner => exact ⟨_, _, rfl, (hs _ q).2 (Or.inr ⟨_, _, rfl, t, .inside h inner, hq⟩)⟩
  have hhead : ∀ {path q}, head path q → DeclaredAt (s :: rest) (0 :: path) q :=
    fun h ↦ (hs _ _).2 (Or.inl ⟨_, rfl, h⟩)
  constructor
  · intro hdistinct
    refine ⟨fun path path' q q' h h' hid ↦ ?_, fun path path' q q' h h' hid ↦ ?_,
      fun path path' q q' h h' hid ↦ ?_⟩
    · exact List.tail_eq_of_cons_eq (hdistinct _ _ q q' (hhead h) (hhead h') hid)
    · obtain ⟨i, rest₁, rfl, h₁⟩ := hrest h
      obtain ⟨j, rest₂, rfl, h₂⟩ := hrest h'
      simpa using hdistinct _ _ q q' h₁ h₂ hid
    · obtain ⟨i, rest₁, rfl, h₁⟩ := hrest h'
      simpa using hdistinct _ _ q q' (hhead h) h₁ hid
  · rintro ⟨hfirst, hlater, hcross⟩ path path' q q' h h' hid
    rcases (hs path q).1 h with ⟨p₁, rfl, h₁⟩ | ⟨i, p₁, rfl, h₁⟩ <;>
      rcases (hs path' q').1 h' with ⟨p₂, rfl, h₂⟩ | ⟨j, p₂, rfl, h₂⟩
    · rw [hfirst p₁ p₂ q q' h₁ h₂ hid]
    · exact absurd hid (hcross p₁ _ q q' h₁ h₂)
    · exact absurd hid.symm (hcross p₂ _ q' q h₂ h₁)
    · simpa using hlater _ _ q q' h₁ h₂ hid

theorem nodup_ids_cons_of_question {s : Statement} {r : Question} (hs : s.question? = some r)
    {rest : List Statement}
    (ih : (((nestedAll rest).filterMap question?).map Question.id).Nodup ↔ IdsDistinct rest) :
    (r.id :: ((nestedAll rest).filterMap question?).map Question.id).Nodup ↔
      IdsDistinct (s :: rest) := by
  rw [List.nodup_cons, ih, mem_ids_iff, idsDistinct_cons fun _ _ ↦ declaredAt_cons_of_question hs]
  constructor
  · rintro ⟨hnew, hrest⟩
    refine ⟨?_, hrest, ?_⟩
    · rintro path path' q q' ⟨rfl, -⟩ ⟨rfl, -⟩ -
      rfl
    · rintro path path' q q' ⟨-, rfl⟩ hq' hid
      exact hnew ⟨path', q', hq', hid.symm⟩
  · rintro ⟨-, hrest, hcross⟩
    refine ⟨?_, hrest⟩
    rintro ⟨path, q, hq, hid⟩
    exact hcross [] path r q ⟨rfl, rfl⟩ hq hid.symm

/-- **The ids in the list of all statements** are distinct exactly when no id is declared at two
places. -/
theorem nodup_ids_iff {l : List Statement} :
    (((nestedAll l).filterMap question?).map Question.id).Nodup ↔ IdsDistinct l := by
  induction l using listInduction with
  | nil =>
    refine iff_of_true List.nodup_nil ?_
    rintro path path' q q' ⟨s, hat, -⟩
    exact absurd hat not_at_nil
  | question q rest ih =>
    rw [nestedAll_question]
    exact nodup_ids_cons_of_question rfl ih
  | calculated q value rest ih =>
    rw [nestedAll_calculated]
    exact nodup_ids_cons_of_question rfl ih
  | condition p guard body rest ihbody ihrest =>
    rw [nestedAll_condition, List.filterMap_cons_none rfl, List.filterMap_append, List.map_append,
      List.nodup_append', ihbody, ihrest, idsDistinct_cons fun _ _ ↦ declaredAt_cons_condition]
    refine and_congr_right fun _ ↦ and_congr_right fun _ ↦ ?_
    simp only [List.disjoint_left, mem_ids_iff]
    constructor
    · intro h path path' q q' hq hq' hid
      exact h ⟨path, q, hq, rfl⟩ ⟨path', q', hq', hid.symm⟩
    · rintro h id ⟨path, q, hq, rfl⟩ ⟨path', q', hq', hid⟩
      exact h path path' q q' hq hq' hid.symm

end Statement

end Questionnaire
