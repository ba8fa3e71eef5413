import Mathlib.Data.List.DropRight
import Questionnaire.Text.Blank

/-!
# Texts without the white space around them

What trimming leaves of a text is said by `TrimsTo` with no word on how it is found: a part of the
text that has white space at neither end, and nothing but white space before and behind it.
`trim_eq_iff` says that there is exactly one such part and that `trim` finds it. Of a blank text it
is the empty one.
-/

namespace Questionnaire.Text

/-! ### Trimming a list -/

section Lists

variable {α : Type} {p : α → Bool}

/-- What is around a list does not count. -/
theorem trimBoth_append {before after : List α} (hbefore : ∀ a ∈ before, p a)
    (hafter : ∀ a ∈ after, p a) (l : List α) :
    trimBoth p (before ++ l ++ after) = trimBoth p l := by
  rw [trimBoth, trimBoth, List.append_assoc, List.dropWhile_append_of_pos hbefore,
    List.dropWhile_append]
  split
  · -- the list itself is dropped, and what is behind it as well
    rename_i hempty
    rw [List.isEmpty_iff.1 hempty, List.dropWhile_eq_nil_iff.2 hafter]
  · rw [List.reverse_append, List.dropWhile_append_of_pos (by simpa using hafter)]

theorem trimBoth_eq_self {l : List α} (hhead : ∀ a ∈ l.head?, p a = false)
    (hlast : ∀ a ∈ l.getLast?, p a = false) : trimBoth p l = l := by
  have hfront : l.dropWhile p = l := by
    cases l with
    | nil => rfl
    | cons a l => exact List.dropWhile_cons_of_neg (by simp [hhead a rfl])
  have hback : l.rdropWhile p = l :=
    List.rdropWhile_eq_self_iff.2 fun hne ↦ by
      simp [hlast _ (List.getLast?_eq_getLast_of_ne_nil hne)]
  rw [trimBoth, hfront]
  exact hback

theorem exists_append_trimBoth (p : α → Bool) (l : List α) :
    ∃ before after, (∀ a ∈ before, p a) ∧ (∀ a ∈ after, p a) ∧
      l = before ++ trimBoth p l ++ after := by
  refine ⟨l.takeWhile p, (l.dropWhile p).rtakeWhile p, fun a ha ↦ List.mem_takeWhile_imp ha,
    fun a ha ↦ List.mem_rtakeWhile_imp ha, ?_⟩
  have hback : trimBoth p l ++ (l.dropWhile p).rtakeWhile p = l.dropWhile p :=
    List.rdropWhile_append_rtakeWhile
  rw [List.append_assoc, hback, List.takeWhile_append_dropWhile]

theorem not_of_mem_head?_trimBoth {l : List α} : ∀ a ∈ (trimBoth p l).head?, p a = false := by
  intro a ha
  obtain ⟨rest, hrest⟩ : trimBoth p l <+: l.dropWhile p := List.rdropWhile_prefix p _
  have hhead : (l.dropWhile p).head? = some a := by
    rw [← hrest, List.head?_append, Option.mem_def.1 ha]
    rfl
  have hnot := List.head?_dropWhile_not p l
  rwa [hhead] at hnot

theorem not_of_mem_getLast?_trimBoth {l : List α} :
    ∀ a ∈ (trimBoth p l).getLast?, p a = false := by
  intro a ha
  obtain ⟨hne, rfl⟩ := List.mem_getLast?_eq_getLast ha
  exact eq_false_of_ne_true (List.rdropWhile_last_not p (l.dropWhile p) hne)

end Lists

/-! ### Trimming a text -/

variable {s t : String}

/-- A text of nothing but white space. -/
def Blank (s : String) : Prop :=
  ∀ c ∈ s.toList, isBlank c

instance : DecidablePred Blank :=
  fun s ↦ List.decidableBAll (fun c ↦ isBlank c = true) s.toList

/-- A text with white space at neither end. -/
structure Bare (s : String) : Prop where
  head : ∀ c ∈ s.toList.head?, isBlank c = false
  last : ∀ c ∈ s.toList.getLast?, isBlank c = false

/-- The text `t` is what is left of `s` without the white space around it. -/
structure TrimsTo (s t : String) : Prop where
  bare : Bare t
  around : ∃ before after, (∀ c ∈ before, isBlank c) ∧ (∀ c ∈ after, isBlank c) ∧
    s.toList = before ++ t.toList ++ after

/-- **Trimming** leaves the one part without white space at its ends that has nothing but white
space around it. -/
theorem trim_eq_iff : trim s = t ↔ TrimsTo s t := by
  constructor
  · rintro rfl
    rw [trim]
    refine ⟨⟨?_, ?_⟩, ?_⟩
    · rw [String.toList_ofList]
      exact not_of_mem_head?_trimBoth
    · rw [String.toList_ofList]
      exact not_of_mem_getLast?_trimBoth
    · rw [String.toList_ofList]
      exact exists_append_trimBoth isBlank s.toList
  · rintro ⟨⟨hhead, hlast⟩, before, after, hbefore, hafter, hs⟩
    rw [trim, hs, trimBoth_append hbefore hafter, trimBoth_eq_self hhead hlast,
      String.ofList_toList]

theorem Bare.trim_eq (h : Bare s) : trim s = s :=
  trim_eq_iff.2 ⟨h, [], [], by simp, by simp, by simp⟩

instance : DecidablePred Bare :=
  fun s ↦ decidable_of_iff (trim s = s) ⟨fun h ↦ (trim_eq_iff.1 h).bare, Bare.trim_eq⟩

/-- Nothing is left of a blank text, and of no other. -/
theorem trim_eq_empty_iff : trim s = "" ↔ Blank s := by
  rw [trim_eq_iff]
  constructor
  · rintro ⟨-, before, after, hbefore, hafter, hs⟩
    rw [Blank, hs, String.toList_empty, List.append_nil]
    exact List.forall_mem_append.2 ⟨hbefore, hafter⟩
  · exact fun h ↦ ⟨⟨by simp, by simp⟩, s.toList, [], h, by simp, by simp⟩

/-- A text without white space at its ends is blank only if it is empty. -/
theorem Bare.blank_iff (h : Bare s) : Blank s ↔ s = "" := by
  rw [← trim_eq_empty_iff, h.trim_eq]

end Questionnaire.Text
