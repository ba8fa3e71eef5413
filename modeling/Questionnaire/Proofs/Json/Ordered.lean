import Questionnaire.Proofs.Json.Members
import Questionnaire.Proofs.Json.Texts

/-!
# Values with their members in order

`Json.ordered` puts the members of every object in the order of their names and keeps the last one
with each name. So the members are found as before, each with its own members in order
(`member?_ordered`), and what is written of a value is read back as this, if at all
(`eq_ordered_of_parseChars_write`).
-/

namespace Questionnaire.Json

/-! ### Members in order -/

section

variable {α : Type} {name : String} {members : List (String × α)} {a : α}

/-- Where no name is repeated, the members are found by their names. -/
theorem member?_eq_some_iff (h : (members.map Prod.fst).Nodup) :
    member? name members = some a ↔ (name, a) ∈ members :=
  ⟨mem_of_member?, member?_of_mem h⟩

theorem member?_of_perm {members' : List (String × α)} (hperm : members.Perm members')
    (h : (members.map Prod.fst).Nodup) : member? name members = member? name members' := by
  have h' : (members'.map Prod.fst).Nodup := (hperm.map Prod.fst).nodup_iff.1 h
  refine Option.ext fun a ↦ ?_
  rw [member?_eq_some_iff h, member?_eq_some_iff h', hperm.mem_iff]

theorem member?_lastMembers : member? name (lastMembers members) = member? name members := by
  induction members with
  | nil => rfl
  | cons m rest ih =>
    rw [lastMembers]
    split
    · next hlater =>
      obtain ⟨later, hmember⟩ := hasMember_iff.1 hlater
      rw [ih, member?_cons]
      by_cases hname : m.1 = name
      · rw [← hname, hmember]
        rfl
      · rw [if_neg hname, Option.or_none]
    · rw [member?_cons, member?_cons, ih]

theorem lastMembers_subset : lastMembers members ⊆ members := by
  induction members with
  | nil => exact List.Subset.refl _
  | cons m rest ih =>
    rw [lastMembers]
    split
    · exact List.subset_cons_of_subset _ ih
    · exact List.cons_subset_cons _ ih

/-- The names are those of all members. -/
theorem forall_mem_lastMembers_iff {P : String → Prop} :
    (∀ m ∈ lastMembers members, P m.1) ↔ ∀ m ∈ members, P m.1 := by
  refine ⟨fun h m hm ↦ ?_, fun h m hm ↦ h m (lastMembers_subset hm)⟩
  obtain ⟨a, ha⟩ := hasMember_iff.1 (List.any_eq_true.2 ⟨m, hm, beq_self_eq_true m.1⟩)
  rw [← member?_lastMembers] at ha
  exact h (m.1, a) (mem_of_member? ha)

theorem nodup_lastMembers : ((lastMembers members).map Prod.fst).Nodup := by
  induction members with
  | nil => exact List.nodup_nil
  | cons m rest ih =>
    rw [lastMembers]
    split
    · exact ih
    · next hlater =>
      rw [List.map_cons, List.nodup_cons]
      refine ⟨fun hmem ↦ hlater ?_, ih⟩
      obtain ⟨m', hm', hname⟩ := List.mem_map.1 hmem
      exact List.any_eq_true.2 ⟨m', lastMembers_subset hm', by simp [hname]⟩

theorem insertMember_perm (m : String × α) : (insertMember m members).Perm (m :: members) := by
  induction members with
  | nil => exact List.Perm.refl _
  | cons k rest ih =>
    rw [insertMember]
    split
    · exact (ih.cons k).trans (List.Perm.swap m k rest)
    · exact List.Perm.refl _

theorem sortMembers_perm : (sortMembers members).Perm members := by
  induction members with
  | nil => exact List.Perm.refl _
  | cons m rest ih => exact (insertMember_perm m).trans (ih.cons m)

end

/-! ### Values in order -/

/-- The members of an object. -/
def membersOf : Json → List (String × Json)
  | object members => members
  | _ => []

/-- The items of an array. -/
def itemsOf : Json → List Json
  | array items => items
  | _ => []

theorem ChildOf.of_membersOf {j k : Json} {name : String}
    (h : member? name j.membersOf = some k) : ChildOf k j := by
  cases j with
  | object members => exact .member h
  | _ => exact absurd h (by simp [membersOf, member?])

theorem ChildOf.of_itemsOf {j k : Json} (h : k ∈ j.itemsOf) : ChildOf k j := by
  cases j with
  | array items => exact .item h
  | _ => exact absurd h (by simp [itemsOf])

theorem orderedItems_eq_map (items : List Json) : orderedItems items = items.map ordered := by
  induction items with
  | nil => rfl
  | cons j rest ih => rw [orderedItems, ih, List.map_cons]

theorem orderedMembers_eq_map (members : List (String × Json)) :
    orderedMembers members = members.map fun m ↦ (m.1, m.2.ordered) := by
  induction members with
  | nil => rfl
  | cons m rest ih => rw [orderedMembers, ih, List.map_cons, orderedMember]

theorem member?_map {α β : Type} (f : α → β) (name : String) (members : List (String × α)) :
    member? name (members.map fun m ↦ (m.1, f m.2)) = (member? name members).map f := by
  induction members with
  | nil => rfl
  | cons m rest ih =>
    rw [List.map_cons, member?_cons, member?_cons, ih]
    cases member? name rest with
    | some a => rfl
    | none => split <;> rfl

/-- **Members are found in order** as they were before. -/
theorem member?_ordered (name : String) (j : Json) :
    member? name j.ordered.membersOf = (member? name j.membersOf).map ordered := by
  cases j with
  | object members =>
    show member? name (sortMembers (lastMembers (orderedMembers members))) = _
    rw [← member?_of_perm sortMembers_perm.symm nodup_lastMembers, member?_lastMembers,
      orderedMembers_eq_map, member?_map]
    rfl
  | _ => rfl

theorem itemsOf_ordered (j : Json) : j.ordered.itemsOf = j.itemsOf.map ordered := by
  cases j with
  | array items => exact orderedItems_eq_map items
  | _ => rfl

/-! ### Writing and reading again -/

theorem Numeral.digits_of_areDigits {ds : List Char} (h : areDigits ds = true) : Digits ds := by
  simpa [areDigits, Digits] using h

theorem Numeral.grammatical_of_isValid {n : Numeral} (h : n.isValid = true) : n.Grammatical := by
  simp only [isValid, Bool.and_eq_true_iff, Bool.or_eq_true_iff, bne_iff_ne, beq_iff_eq,
    List.all_eq_true, Option.all_eq_true] at h
  obtain ⟨⟨⟨hwhole, hleading⟩, hfraction⟩, hexponent⟩ := h
  refine ⟨digits_of_areDigits hwhole, fun hzero ↦ ?_, hfraction, fun e he ↦ ?_⟩
  · exact hleading.resolve_left (absurd hzero)
  · obtain ⟨⟨hletter, hsign⟩, hdigits⟩ := hexponent e he
    exact ⟨by simpa using hletter, by simpa using hsign, digits_of_areDigits hdigits⟩

mutual

theorem spellable_of_isWritable : ∀ {j : Json}, j.isWritable = true → Spellable j
  | .null, _ => .null
  | .bool _, _ => .bool
  | .string _, _ => .string
  | .number _, h => .number (Numeral.grammatical_of_isValid h)
  | .array _, h => .array (spellable_of_areWritable h)
  | .object _, h => .object (spellable_of_haveWritable h)

theorem spellable_of_areWritable : ∀ {items : List Json}, areWritable items = true →
    ∀ j ∈ items, Spellable j
  | [], _ => fun _ hj ↦ absurd hj List.not_mem_nil
  | _ :: _, h => by
    rw [areWritable, Bool.and_eq_true_iff] at h
    exact List.forall_mem_cons.2 ⟨spellable_of_isWritable h.1, spellable_of_areWritable h.2⟩

theorem spellable_of_hasWritable : ∀ {m : String × Json}, hasWritable m = true → Spellable m.2
  | (_, _), h => spellable_of_isWritable h

theorem spellable_of_haveWritable : ∀ {members : List (String × Json)},
    haveWritable members = true → ∀ m ∈ members, Spellable m.2
  | [], _ => fun _ hm ↦ absurd hm List.not_mem_nil
  | _ :: _, h => by
    rw [haveWritable, Bool.and_eq_true_iff] at h
    exact List.forall_mem_cons.2 ⟨spellable_of_hasWritable h.1, spellable_of_haveWritable h.2⟩

end

theorem Spellable.ordered {j : Json} (h : Spellable j) : Spellable j.ordered := by
  induction h with
  | null => exact .null
  | bool => exact .bool
  | number spelled => exact .number spelled
  | string => exact .string
  | @array items _ ih =>
    rw [Json.ordered, orderedItems_eq_map]
    exact .array (List.forall_mem_map.2 ih)
  | @object members _ ih =>
    rw [Json.ordered]
    refine .object fun m hm ↦ ?_
    have hmem : m ∈ orderedMembers members := lastMembers_subset (sortMembers_perm.mem_iff.1 hm)
    rw [orderedMembers_eq_map] at hmem
    obtain ⟨m', hm', rfl⟩ := List.mem_map.1 hmem
    exact ih m' hm'

/-- **A written value** is read as the value with its members in order, if it is read at all. -/
theorem eq_ordered_of_parseChars_write {j k : Json} {text : List Char}
    (hwrite : j.write? = some text) (hparse : parseChars text = some k) : k = j.ordered := by
  obtain ⟨hwritable, htext⟩ := Option.ite_none_right_eq_some.1 hwrite
  rw [← Option.some.inj htext] at hparse
  have hspellable := (spellable_of_isWritable hwritable).ordered
  exact eq_of_parseChars_text (textOf_compactChars hspellable).element_of_value hparse

end Questionnaire.Json
