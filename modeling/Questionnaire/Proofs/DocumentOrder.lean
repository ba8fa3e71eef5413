import Questionnaire.Proofs.Places

/-!
# Document order

The order of a document is the order of places: of two places the earlier one has the smaller index
where they first differ. `InDocumentOrder` lists the declarations of a form in this order, each with
its place and none left out, and says so without going through the form.

`exists_inDocumentOrder` says that the list of questions that the analyses go through is that list.
So *earlier* in the list means an earlier place in the document.
-/

namespace Questionnaire

namespace Statement

/-- The declarations below a list of statements with their places, the earlier place first. -/
structure InDocumentOrder (l : List Statement) (entries : List (List Nat × Question)) : Prop where
  sorted : entries.Pairwise fun e e' ↦ e.1 < e'.1
  mem_iff : ∀ path q, (path, q) ∈ entries ↔ DeclaredAt l path q

/-- What is listed earlier stands at an earlier place. -/
theorem InDocumentOrder.lt_of_getElem? {l : List Statement} {entries : List (List Nat × Question)}
    (h : InDocumentOrder l entries) {i j : Nat} (hij : i < j) {e e' : List Nat × Question}
    (he : entries[i]? = some e) (he' : entries[j]? = some e') : e.1 < e'.1 := by
  obtain ⟨hi, rfl⟩ := List.getElem?_eq_some_iff.1 he
  obtain ⟨hj, rfl⟩ := List.getElem?_eq_some_iff.1 he'
  exact List.pairwise_iff_getElem.1 h.sorted i j hi hj hij

/-- A place below the rest of a list, seen from the whole list. -/
def placeBehind : List Nat → List Nat
  | [] => []
  | i :: path => (i + 1) :: path

theorem placeBehind_lt {path path' : List Nat} (h : path < path') :
    placeBehind path < placeBehind path' := by
  match path, path', h with
  | [], _ :: _, _ => exact List.nil_lt_cons _ _
  | i :: path, j :: path', h =>
    rw [placeBehind, placeBehind, List.cons_lt_cons_iff]
    exact (List.cons_lt_cons_iff.1 h).imp Nat.succ_lt_succ (And.imp_left (congrArg _))

/-- A declaration stands at some index. -/
theorem DeclaredAt.exists_cons {l : List Statement} {path : List Nat} {q : Question}
    (h : DeclaredAt l path q) : ∃ i path', path = i :: path' := by
  obtain ⟨s, hat, -⟩ := h
  cases hat with
  | here => exact ⟨_, _, rfl⟩
  | inside => exact ⟨_, _, rfl⟩

theorem inDocumentOrder_nil : InDocumentOrder [] [] where
  sorted := .nil
  mem_iff path q := by
    refine iff_of_false List.not_mem_nil ?_
    rintro ⟨s, hat, -⟩
    exact not_at_nil hat

/-- **What the first statement declares** comes first (`head`, listed by `inner`), and then what the
rest declares. -/
theorem InDocumentOrder.cons {s : Statement} {rest : List Statement}
    {head : List Nat → Question → Prop} {inner entries : List (List Nat × Question)}
    (hs : ∀ path q, DeclaredAt (s :: rest) path q ↔ (∃ path', path = 0 :: path' ∧ head path' q) ∨
      ∃ i path', path = (i + 1) :: path' ∧ DeclaredAt rest (i :: path') q)
    (hsorted : inner.Pairwise fun e e' ↦ e.1 < e'.1)
    (hmem : ∀ path q, (path, q) ∈ inner ↔ head path q) (h : InDocumentOrder rest entries) :
    InDocumentOrder (s :: rest)
      (inner.map (fun e ↦ (0 :: e.1, e.2)) ++ entries.map fun e ↦ (placeBehind e.1, e.2)) where
  sorted := by
    refine List.pairwise_append.2 ⟨?_, ?_, ?_⟩
    · refine List.pairwise_map.2 (hsorted.imp fun hlt ↦ ?_)
      exact List.cons_lt_cons_iff.2 (Or.inr ⟨rfl, hlt⟩)
    · exact List.pairwise_map.2 (h.sorted.imp placeBehind_lt)
    · intro e he e' he'
      obtain ⟨a, -, rfl⟩ := List.mem_map.1 he
      obtain ⟨⟨path, q⟩, hb, rfl⟩ := List.mem_map.1 he'
      obtain ⟨i, path', rfl⟩ := ((h.mem_iff _ _).1 hb).exists_cons
      exact List.cons_lt_cons_iff.2 (Or.inl (Nat.succ_pos i))
  mem_iff path q := by
    rw [hs, List.mem_append, List.mem_map, List.mem_map]
    refine or_congr ⟨?_, ?_⟩ ⟨?_, ?_⟩
    · rintro ⟨⟨path', r⟩, he, heq⟩
      obtain ⟨rfl, rfl⟩ := Prod.mk.inj heq
      exact ⟨path', rfl, (hmem _ _).1 he⟩
    · rintro ⟨path', rfl, hhead⟩
      exact ⟨(path', q), (hmem _ _).2 hhead, rfl⟩
    · rintro ⟨⟨path', r⟩, he, heq⟩
      obtain ⟨rfl, rfl⟩ := Prod.mk.inj heq
      have hrest := (h.mem_iff _ _).1 he
      obtain ⟨i, path'', rfl⟩ := hrest.exists_cons
      exact ⟨i, path'', rfl, hrest⟩
    · rintro ⟨i, path', rfl, hrest⟩
      exact ⟨(i :: path', q), (h.mem_iff _ _).2 hrest, rfl⟩

theorem exists_inDocumentOrder_of_question {s : Statement} {r : Question}
    (hs : s.question? = some r) {rest : List Statement}
    (ih : ∃ entries, InDocumentOrder rest entries ∧
      entries.map Prod.snd = (nestedAll rest).filterMap question?) :
    ∃ entries, InDocumentOrder (s :: rest) entries ∧
      entries.map Prod.snd = r :: (nestedAll rest).filterMap question? := by
  obtain ⟨entries, h, heq⟩ := ih
  have hmem : ∀ path q, (path, q) ∈ [(([] : List Nat), r)] ↔ path = [] ∧ q = r := by simp
  refine ⟨_, h.cons (fun _ _ ↦ declaredAt_cons_of_question hs) (List.pairwise_singleton _ _) hmem,
    ?_⟩
  rw [List.map_append, List.map_map, List.map_map, ← heq]
  rfl

/-- **The list of all questions** is in document order. -/
theorem exists_inDocumentOrder (l : List Statement) :
    ∃ entries, InDocumentOrder l entries ∧
      entries.map Prod.snd = (nestedAll l).filterMap question? := by
  induction l using listInduction with
  | nil => exact ⟨[], inDocumentOrder_nil, by rw [nestedAll_nil]; rfl⟩
  | question q rest ih =>
    rw [nestedAll_question]
    exact exists_inDocumentOrder_of_question rfl ih
  | calculated q value rest ih =>
    rw [nestedAll_calculated]
    exact exists_inDocumentOrder_of_question rfl ih
  | condition p guard body rest ihbody ihrest =>
    obtain ⟨inner, hbody, heq⟩ := ihbody
    obtain ⟨entries, hrest, heq'⟩ := ihrest
    refine ⟨_, hrest.cons (fun _ _ ↦ declaredAt_cons_condition) hbody.sorted hbody.mem_iff, ?_⟩
    rw [nestedAll_condition, List.filterMap_cons_none rfl, List.filterMap_append, ← heq, ← heq',
      List.map_append, List.map_map, List.map_map]
    rfl

end Statement

end Questionnaire
