import Mathlib.Data.List.Forall2

/-!
# Lists

Facts about lists that are related element by element, about lists that are put together from
results, and about the place of an element in a list.
-/

namespace Questionnaire

/-! ### Related lists -/

section Related

variable {α β γ : Type} {R : α → β → Prop} {l : List α}

/-- What is read off from related elements alike is the same list. -/
theorem map_eq_of_forall₂ {φ : α → γ} {ψ : β → γ} {l' : List β} (hφ : ∀ a b, R a b → φ a = ψ b)
    (h : List.Forall₂ R l l') : l.map φ = l'.map ψ := by
  rw [← List.forall₂_eq_eq_eq, List.forall₂_map_left_iff, List.forall₂_map_right_iff]
  exact h.imp hφ

theorem forall₂_comp {S : β → γ → Prop} {T : α → γ → Prop}
    (h : ∀ a ∈ l, ∀ b c, R a b → S b c → T a c) :
    ∀ {m n}, List.Forall₂ R l m → List.Forall₂ S m n → List.Forall₂ T l n := by
  induction l with
  | nil =>
    rintro m n ⟨⟩ ⟨⟩
    exact .nil
  | cons a rest ih =>
    obtain ⟨ha, hrest⟩ := List.forall_mem_cons.1 h
    rintro m n (_ | ⟨hR, hRs⟩) (_ | ⟨hS, hSs⟩)
    exact .cons (ha _ _ hR hS) (ih hrest hRs hSs)

theorem exists_forall₂ {S : β → γ → Prop} (h : ∀ a ∈ l, ∀ b, R a b → ∃ c, S b c) :
    ∀ {m}, List.Forall₂ R l m → ∃ n, List.Forall₂ S m n := by
  induction l with
  | nil =>
    rintro m ⟨⟩
    exact ⟨[], .nil⟩
  | cons a rest ih =>
    obtain ⟨ha, hrest⟩ := List.forall_mem_cons.1 h
    rintro m (_ | ⟨hR, hRs⟩)
    obtain ⟨c, hc⟩ := ha _ hR
    obtain ⟨n, hn⟩ := ih hrest hRs
    exact ⟨c :: n, .cons hc hn⟩

theorem exists_of_mem_forall₂ {l' : List β} (h : List.Forall₂ R l l') {a : α} (ha : a ∈ l) :
    ∃ b ∈ l', R a b := by
  induction h with
  | nil => exact absurd ha List.not_mem_nil
  | @cons a' b rest rest' hab _ ih =>
    rcases List.mem_cons.1 ha with rfl | ha
    · exact ⟨b, List.mem_cons_self, hab⟩
    · obtain ⟨b', hb', hR⟩ := ih ha
      exact ⟨b', List.mem_cons_of_mem _ hb', hR⟩

/-- What holds of any two elements of a list holds of those related to them. -/
theorem pairwise_of_forall₂ {D : α → α → Prop} {E : β → β → Prop} {l' : List β}
    (hDE : ∀ {a a' b b'}, R a b → R a' b' → E b b' → D a a') (h : List.Forall₂ R l l')
    (hpairwise : l'.Pairwise E) : l.Pairwise D := by
  induction h with
  | nil => exact .nil
  | @cons a b rest rest' hab hrest ih =>
    rw [List.pairwise_cons] at hpairwise ⊢
    refine ⟨fun a' ha' ↦ ?_, ih hpairwise.2⟩
    obtain ⟨b', hb', hR⟩ := exists_of_mem_forall₂ hrest ha'
    exact hDE hab hR (hpairwise.1 b' hb')

end Related

/-! ### Results -/

/-- Where it can be told from each result which element it stems from, selecting the results is
selecting the elements. -/
theorem flatMap_filter_eq_filter_flatMap {α β : Type} {selected : α → Bool} {kept : β → Bool}
    {results : α → List β} {l : List α}
    (h : ∀ a ∈ l, ∀ b ∈ results a, kept b = selected a) :
    (l.filter selected).flatMap results = (l.flatMap results).filter kept := by
  induction l with
  | nil => rfl
  | cons a rest ih =>
    obtain ⟨ha, hrest⟩ := List.forall_mem_cons.1 h
    rw [List.flatMap_cons, List.filter_append, ← ih hrest, List.filter_congr ha]
    cases hselected : selected a <;> simp [hselected]

/-! ### Places -/

/-- Among the elements of a list with their places, the first place of an element is found. -/
theorem lookup_zipIdx {α : Type} [BEq α] [LawfulBEq α] (l : List α) (a : α) (k : Nat) :
    (l.zipIdx k).lookup a = (l.idxOf? a).map (· + k) := by
  induction l generalizing k with
  | nil => rfl
  | cons b rest ih =>
    rw [List.zipIdx_cons, List.lookup_cons, List.idxOf?_cons, ih, BEq.comm]
    cases hab : b == a with
    | true => simp
    | false =>
      have hnext : (fun i ↦ i + (k + 1)) = (· + k) ∘ (· + 1) :=
        funext fun i ↦ (Nat.add_right_comm i 1 k).symm
      simp only [Bool.false_eq_true, if_false, Option.map_map, hnext]

end Questionnaire
