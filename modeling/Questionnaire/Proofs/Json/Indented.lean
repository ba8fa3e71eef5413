import Questionnaire.Proofs.Json.Texts

/-!
# Indented texts

What is written with one item or member to a line is a text of the value, at whatever depth it
starts (`textOf_indentedChars`): a new line and its indent are blanks in front of an item or a
member, or behind the last one. So every value that is written this way is read back
(`parseChars_indented`), as long as it is `WritableWithin` the depth that reading allows.
-/

namespace Questionnaire.Json

/-! ### Layout -/

theorem blank_newLine (depth : Nat) : Blank (newLine depth) := by
  intro c hc
  rcases List.mem_cons.1 hc with rfl | hc
  · rfl
  · rw [List.eq_of_mem_replicate hc]
    rfl

/-- Each item is on a line of its own, and the blanks behind the last item belong to it. -/
theorem textOf_indentedItems {depth : Nat} {after : List Char} (hafter : Blank after)
    {items : List Json} (hne : items ≠ [])
    (h : ∀ j ∈ items, TextOf (.value j) (indentedChars depth j)) :
    TextOf (.elements items) (newLine depth ++ (indentedItems depth items ++ after)) := by
  induction items with
  | nil => exact absurd rfl hne
  | cons j rest ih =>
    obtain ⟨hj, hrest⟩ := List.forall_mem_cons.1 h
    cases rest with
    | nil =>
      show TextOf (.elements [j]) (newLine depth ++ (indentedChars depth j ++ after))
      exact .lastElement (.element (blank_newLine depth) hj hafter)
    | cons k rest =>
      have hhead := TextOf.element (blank_newLine depth) hj blank_nil
      have htext := TextOf.moreElements hhead (ih (List.cons_ne_nil _ _) hrest)
      show TextOf (.elements (j :: k :: rest)) (newLine depth ++ (indentedChars depth j ++
        ',' :: (newLine depth ++ indentedItems depth (k :: rest)) ++ after))
      simpa only [List.append_assoc, List.cons_append, List.append_nil] using htext

theorem nameText_indented (depth : Nat) (name : String) :
    NameText name (newLine depth ++ writeString name) :=
  .mk (blank_newLine depth) (spelledAs_flatMap_writeChar name.toList) blank_nil

/-- Each member is on a line of its own, and the blanks behind the last member belong to it. -/
theorem textOf_indentedMembers {depth : Nat} {after : List Char} (hafter : Blank after)
    {members : List (String × Json)} (hne : members ≠ [])
    (h : ∀ m ∈ members, TextOf (.value m.2) (indentedChars depth m.2)) :
    TextOf (.members members) (newLine depth ++ (indentedMembers depth members ++ after)) := by
  have hspace : Blank [' '] := List.forall_mem_singleton.2 rfl
  induction members with
  | nil => exact absurd rfl hne
  | cons m rest ih =>
    obtain ⟨name, j⟩ := m
    obtain ⟨hj, hrest⟩ := List.forall_mem_cons.1 h
    have hname := nameText_indented depth name
    cases rest with
    | nil =>
      have htext := TextOf.lastMember hname (.element hspace hj hafter)
      show TextOf (.members [(name, j)])
        (newLine depth ++ (writeString name ++ ':' :: ' ' :: indentedChars depth j ++ after))
      simpa only [List.append_assoc, List.cons_append, List.nil_append] using htext
    | cons k rest =>
      have htext := TextOf.moreMembers hname (.element hspace hj blank_nil)
        (ih (List.cons_ne_nil _ _) hrest)
      show TextOf (.members ((name, j) :: k :: rest))
        (newLine depth ++ (writeString name ++ ':' :: ' ' :: indentedChars depth j ++
          ',' :: (newLine depth ++ indentedMembers depth (k :: rest)) ++ after))
      simpa only [List.append_assoc, List.cons_append, List.append_nil, List.nil_append]
        using htext

/-- **What is written with indents is a text** of the value. -/
theorem textOf_indentedChars {j : Json} (h : Spellable j) :
    ∀ depth, TextOf (.value j) (indentedChars depth j) := by
  induction h with
  | null => exact fun depth ↦ TextOf.null
  | @bool b =>
    intro depth
    cases b with
    | false => exact TextOf.false
    | true => exact TextOf.true
  | number spelled => exact fun depth ↦ TextOf.number spelled
  | @string s => exact fun depth ↦ TextOf.string (spelledAs_flatMap_writeChar s.toList)
  | @array items _ ih =>
    intro depth
    cases items with
    | nil => exact TextOf.emptyArray blank_nil
    | cons j rest =>
      have hinside := textOf_indentedItems (blank_newLine depth) (List.cons_ne_nil j rest)
        fun k hk ↦ ih k hk (depth + 1)
      show TextOf (.value (.array (j :: rest))) ('[' :: (newLine (depth + 1) ++
        indentedItems (depth + 1) (j :: rest) ++ newLine depth ++ [']']))
      rw [List.append_assoc (newLine (depth + 1))]
      exact .array hinside
  | @object members _ ih =>
    intro depth
    cases members with
    | nil => exact TextOf.emptyObject blank_nil
    | cons m rest =>
      have hinside := textOf_indentedMembers (blank_newLine depth) (List.cons_ne_nil m rest)
        fun k hk ↦ ih k hk (depth + 1)
      show TextOf (.value (.object (m :: rest))) ('\x7b' :: (newLine (depth + 1) ++
        indentedMembers (depth + 1) (m :: rest) ++ newLine depth ++ ['\x7d']))
      rw [List.append_assoc (newLine (depth + 1))]
      exact .object hinside

/-! ### Values that can be written -/

/-- A value whose numbers are spelled as numbers can be, and which nests no deeper than a bound. -/
structure WritableWithin (bound : Nat) (j : Json) : Prop where
  spellable : Spellable j
  depth_le : j.depth ≤ bound

variable {bound : Nat}

theorem writableWithin_null : WritableWithin bound .null :=
  ⟨.null, Nat.zero_le bound⟩

theorem writableWithin_string (s : String) : WritableWithin bound (.string s) :=
  ⟨.string, Nat.zero_le bound⟩

theorem writableWithin_bool (b : Bool) : WritableWithin bound (.bool b) :=
  ⟨.bool, Nat.zero_le bound⟩

theorem writableWithin_int (i : Int) : WritableWithin bound (.int i) :=
  ⟨.number (Numeral.grammatical_ofInt i), Nat.zero_le bound⟩

theorem itemsDepth_le {items : List Json} (h : ∀ j ∈ items, j.depth ≤ bound) :
    itemsDepth items ≤ bound := by
  induction items with
  | nil => exact Nat.zero_le bound
  | cons j rest ih =>
    obtain ⟨hj, hrest⟩ := List.forall_mem_cons.1 h
    exact Nat.max_le.2 ⟨hj, ih hrest⟩

theorem membersDepth_le {members : List (String × Json)} (h : ∀ m ∈ members, m.2.depth ≤ bound) :
    membersDepth members ≤ bound := by
  induction members with
  | nil => exact Nat.zero_le bound
  | cons m rest ih =>
    obtain ⟨name, j⟩ := m
    obtain ⟨hj, hrest⟩ := List.forall_mem_cons.1 h
    exact Nat.max_le.2 ⟨hj, ih hrest⟩

theorem writableWithin_array {items : List Json} (h : ∀ j ∈ items, WritableWithin bound j) :
    WritableWithin (bound + 1) (.array items) where
  spellable := .array fun j hj ↦ (h j hj).spellable
  depth_le := by
    rw [depth, Nat.add_comm]
    exact Nat.succ_le_succ (itemsDepth_le fun j hj ↦ (h j hj).depth_le)

theorem writableWithin_object {members : List (String × Json)}
    (h : ∀ m ∈ members, WritableWithin bound m.2) :
    WritableWithin (bound + 1) (.object members) where
  spellable := .object fun m hm ↦ (h m hm).spellable
  depth_le := by
    rw [depth, Nat.add_comm]
    exact Nat.succ_le_succ (membersDepth_le fun m hm ↦ (h m hm).depth_le)

/-- **What is written with indents is read back.** -/
theorem parseChars_indented {j : Json} (h : WritableWithin bound j) (hbound : bound ≤ maxDepth) :
    parseChars j.indented.toList = some j := by
  rw [indented, String.toList_ofList]
  exact parseChars_of_text (textOf_indentedChars h.spellable 0).element_of_value
    (Nat.le_trans h.depth_le hbound)

end Questionnaire.Json
