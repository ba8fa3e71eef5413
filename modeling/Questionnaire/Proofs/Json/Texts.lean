import Questionnaire.Proofs.Json.Spelling

/-!
# JSON texts

The grammar of JSON as a relation between values and texts: `TextOf (.element j) cs` says that `cs`
is a text of the value `j`, with whatever blanks and in whatever spelling of its strings. Reading
finds the value of every such text, as long as the value nests no deeper than is allowed
(`parseChars_of_text`), and what is written without blanks is such a text (`textOf_compactChars`).

The phrases of the grammar are read by functions that call each other, within a bound on their
steps. One law for each of them, `Phrase.ReadFrom`, says that a phrase is read in about twice as
many steps as it has characters, and an induction over the grammar gives all of them at once
(`TextOf.readFrom`).
-/

namespace Questionnaire.Json

/-! ### Blanks -/

/-- Nothing but blanks. -/
def Blank (cs : List Char) : Prop :=
  ∀ c ∈ cs, isBlank c

theorem blank_nil : Blank [] :=
  fun _ hc ↦ absurd hc List.not_mem_nil

theorem skipBlanks_append {blanks : List Char} (h : Blank blanks) (cs : List Char) :
    skipBlanks (blanks ++ cs) = skipBlanks cs :=
  List.dropWhile_append_of_pos h

theorem skipBlanks_cons {c : Char} (h : isBlank c = false) (cs : List Char) :
    skipBlanks (c :: cs) = c :: cs := by
  simp [skipBlanks, h]

theorem skipBlanks_skipBlanks (cs : List Char) : skipBlanks (skipBlanks cs) = skipBlanks cs := by
  induction cs with
  | nil => rfl
  | cons c cs ih =>
    cases hc : isBlank c with
    | true =>
      have hdrop : skipBlanks (c :: cs) = skipBlanks cs := by simp [skipBlanks, hc]
      rw [hdrop, ih]
    | false => rw [skipBlanks_cons hc, skipBlanks_cons hc]

theorem Ends.blank_append {blanks rest : List Char} (hblank : Blank blanks) (h : Ends rest) :
    Ends (blanks ++ rest) := by
  cases blanks with
  | nil => exact h
  | cons c cs =>
    have hc : isBlank c := hblank c List.mem_cons_self
    simp only [isBlank, Bool.or_eq_true, beq_iff_eq] at hc
    rcases hc with ((rfl | rfl) | rfl) | rfl <;> exact ends_cons (by decide)

/-! ### Blanks in front -/

section Blanks

variable {steps room : Nat}

theorem readValue_blank_append {blanks : List Char} (h : Blank blanks) (cs : List Char) :
    readValue steps room (blanks ++ cs) = readValue steps room cs := by
  cases steps with
  | zero => rw [readValue, readValue]
  | succ steps => rw [readValue, readValue, skipBlanks_append h]

theorem readValue_skipBlanks (cs : List Char) :
    readValue steps room (skipBlanks cs) = readValue steps room cs := by
  cases steps with
  | zero => rw [readValue, readValue]
  | succ steps => rw [readValue, readValue, skipBlanks_skipBlanks]

theorem readItems_skipBlanks (done : List Json) (cs : List Char) :
    readItems steps room done (skipBlanks cs) = readItems steps room done cs := by
  cases steps with
  | zero => rw [readItems, readItems]
  | succ steps => rw [readItems, readItems, readValue_skipBlanks]

theorem readMembers_skipBlanks (done : List (String × Json)) (cs : List Char) :
    readMembers steps room done (skipBlanks cs) = readMembers steps room done cs := by
  cases steps with
  | zero => rw [readMembers, readMembers]
  | succ steps => rw [readMembers, readMembers, skipBlanks_skipBlanks]

end Blanks

/-! ### Depth -/

mutual

/-- How deep arrays and objects nest in a value. -/
def depth : Json → Nat
  | array items => 1 + itemsDepth items
  | object members => 1 + membersDepth members
  | _ => 0

/-- How deep they nest in items. -/
def itemsDepth : List Json → Nat
  | [] => 0
  | j :: rest => max j.depth (itemsDepth rest)

/-- How deep they nest in members. -/
def membersDepth : List (String × Json) → Nat
  | [] => 0
  | m :: rest => max (memberDepth m) (membersDepth rest)

/-- How deep they nest in a member. -/
def memberDepth : String × Json → Nat
  | (_, j) => j.depth

end

/-! ### Grammar -/

/-- What a part of a text can be of. -/
inductive Phrase where
  | value (j : Json)
  /-- A value with blanks around it. -/
  | element (j : Json)
  /-- Elements with commas between them, at least one. -/
  | elements (items : List Json)
  /-- Members with commas between them, at least one. -/
  | members (members : List (String × Json))

/-- The name of a member, up to the colon. -/
inductive NameText : String → List Char → Prop
  | mk {name : String} {before raw after : List Char} (blankBefore : Blank before)
      (spelled : SpelledAs name.toList raw) (blankAfter : Blank after) :
      NameText name (before ++ '"' :: (raw ++ '"' :: after))

/-- The texts of phrases. -/
inductive TextOf : Phrase → List Char → Prop
  | null : TextOf (.value .null) ['n', 'u', 'l', 'l']
  | true : TextOf (.value (.bool true)) ['t', 'r', 'u', 'e']
  | false : TextOf (.value (.bool false)) ['f', 'a', 'l', 's', 'e']
  | number {n : Numeral} (spelled : n.Grammatical) : TextOf (.value (.number n)) n.chars
  | string {s : String} {raw : List Char} (spelled : SpelledAs s.toList raw) :
      TextOf (.value (.string s)) ('"' :: (raw ++ ['"']))
  | emptyArray {blanks : List Char} (blank : Blank blanks) :
      TextOf (.value (.array [])) ('[' :: (blanks ++ [']']))
  | array {items : List Json} {cs : List Char} (inside : TextOf (.elements items) cs) :
      TextOf (.value (.array items)) ('[' :: (cs ++ [']']))
  | emptyObject {blanks : List Char} (blank : Blank blanks) :
      TextOf (.value (.object [])) ('\x7b' :: (blanks ++ ['\x7d']))
  | object {members : List (String × Json)} {cs : List Char}
      (inside : TextOf (.members members) cs) :
      TextOf (.value (.object members)) ('\x7b' :: (cs ++ ['\x7d']))
  | element {j : Json} {before cs after : List Char} (blankBefore : Blank before)
      (inside : TextOf (.value j) cs) (blankAfter : Blank after) :
      TextOf (.element j) (before ++ (cs ++ after))
  | lastElement {j : Json} {cs : List Char} (head : TextOf (.element j) cs) :
      TextOf (.elements [j]) cs
  | moreElements {j : Json} {items : List Json} {cs rest : List Char}
      (head : TextOf (.element j) cs) (tail : TextOf (.elements items) rest) :
      TextOf (.elements (j :: items)) (cs ++ ',' :: rest)
  | lastMember {name : String} {j : Json} {before cs : List Char} (named : NameText name before)
      (head : TextOf (.element j) cs) : TextOf (.members [(name, j)]) (before ++ ':' :: cs)
  | moreMembers {name : String} {j : Json} {members : List (String × Json)}
      {before cs rest : List Char} (named : NameText name before) (head : TextOf (.element j) cs)
      (tail : TextOf (.members members) rest) :
      TextOf (.members ((name, j) :: members)) (before ++ ':' :: (cs ++ ',' :: rest))

/-! ### Reading -/

section Reading

variable {steps room : Nat}

/-- No value starts with a bracket that closes an array. -/
theorem readValue_bracket (cs : List Char) : readValue steps room (']' :: cs) = none := by
  cases steps with
  | zero => rw [readValue]
  | succ steps =>
    rw [readValue, skipBlanks_cons (by decide)]
    rfl

/-- An array is read from its items, in front of which it cannot end. -/
theorem readValue_array {cs : List Char} {r : Json × List Char}
    (h : readItems steps room [] cs = some r) :
    readValue (steps + 1) (room + 1) ('[' :: cs) = some r := by
  rw [← readItems_skipBlanks] at h
  rw [readValue, skipBlanks_cons (by decide)]
  simp only [beq_iff_eq, Char.reduceEq, if_false, if_true]
  split
  · next hend =>
    rw [hend] at h
    cases steps with
    | zero => simp [readItems] at h
    | succ steps => simp [readItems, readValue_bracket] at h
  · exact h

/-- An object is read from its members, in front of which it cannot end. -/
theorem readValue_object {cs : List Char} {r : Json × List Char}
    (h : readMembers steps room [] cs = some r) :
    readValue (steps + 1) (room + 1) ('\x7b' :: cs) = some r := by
  rw [← readMembers_skipBlanks] at h
  rw [readValue, skipBlanks_cons (by decide)]
  simp only [beq_iff_eq, Char.reduceEq, if_false, if_true]
  split
  · next hend =>
    rw [hend] at h
    cases steps with
    | zero => simp [readMembers] at h
    | succ steps =>
      rw [readMembers, skipBlanks_cons (by decide)] at h
      simp at h
  · exact h

theorem readValue_emptyArray {blanks : List Char} (h : Blank blanks) (rest : List Char) :
    readValue (steps + 1) (room + 1) ('[' :: (blanks ++ ']' :: rest)) = some (.array [], rest) := by
  rw [readValue, skipBlanks_cons (by decide)]
  simp only [beq_iff_eq, Char.reduceEq, if_false, if_true,
    skipBlanks_append h, skipBlanks_cons (show isBlank ']' = false by decide)]

theorem readValue_emptyObject {blanks : List Char} (h : Blank blanks) (rest : List Char) :
    readValue (steps + 1) (room + 1) ('\x7b' :: (blanks ++ '\x7d' :: rest)) =
      some (.object [], rest) := by
  rw [readValue, skipBlanks_cons (by decide)]
  simp only [beq_iff_eq, Char.reduceEq, if_false, if_true,
    skipBlanks_append h, skipBlanks_cons (show isBlank '\x7d' = false by decide)]

theorem readValue_string {s : String} {raw : List Char} (h : SpelledAs s.toList raw)
    (rest : List Char) :
    readValue (steps + 1) room ('"' :: (raw ++ '"' :: rest)) = some (.string s, rest) := by
  rw [readValue, skipBlanks_cons (by decide)]
  simp only [beq_self_eq_true, if_true, readString_append h]

/-- A number starts with its sign or a digit, and so is told from all other values. -/
theorem readValue_number {n : Numeral} (h : n.Grammatical) {rest : List Char} (hrest : Ends rest) :
    readValue (steps + 1) room (n.chars ++ rest) = some (.number n, rest) := by
  have hread := readNumeral_append h hrest
  obtain ⟨c, cs, hcs, hstart⟩ := h.exists_start rest
  have hother : ∀ d ∈ [' ', '\t', '\r', '\n', '"', '[', '\x7b', 'n', 't', 'f'], c ≠ d := by
    have hnone : ∀ d ∈ [' ', '\t', '\r', '\n', '"', '[', '\x7b', 'n', 't', 'f'],
        d ≠ '-' ∧ ¬ d.isDigit := by simp
    rintro d hd rfl
    rcases hstart with hminus | hdigit
    · exact (hnone c hd).1 hminus
    · exact (hnone c hd).2 hdigit
  simp only [List.forall_mem_cons] at hother
  rw [hcs] at hread ⊢
  rw [readValue, skipBlanks_cons (by simp [isBlank, hother])]
  simp [hother, hread]

theorem readMembers_name {done : List (String × Json)} {name : String} {before : List Char}
    (h : NameText name before) {cs : List Char} {j : Json} {rest : List Char}
    (hread : readValue steps room cs = some (j, rest)) :
    readMembers (steps + 1) room done (before ++ ':' :: cs) =
      match skipBlanks rest with
      | ',' :: rest => readMembers steps room ((name, j) :: done) rest
      | '\x7d' :: rest => some (.object ((name, j) :: done).reverse, rest)
      | _ => none := by
  obtain ⟨blankBefore, spelled, blankAfter⟩ := h
  rename_i before raw after
  rw [readMembers, List.append_assoc, skipBlanks_append blankBefore, List.cons_append,
    skipBlanks_cons (by decide), List.append_assoc, List.cons_append]
  simp only [readString_append spelled, skipBlanks_append blankAfter,
    skipBlanks_cons (show isBlank ':' = false by decide)]
  exact hread ▸ rfl

end Reading

/-- How a phrase is read from its text: within enough steps, with enough room, and in front of what
can follow it. -/
def Phrase.ReadFrom (cs : List Char) : Phrase → Prop
  | value j => ∀ steps room rest, 2 * cs.length + 1 ≤ steps → j.depth ≤ room →
      Ends rest → readValue steps room (cs ++ rest) = some (j, rest)
  | element j => ∀ steps room rest, 2 * cs.length + 1 ≤ steps → j.depth ≤ room →
      Ends rest → ∃ left, readValue steps room (cs ++ rest) = some (j, left) ∧
        skipBlanks left = skipBlanks rest
  | elements items => ∀ steps room done rest, 2 * cs.length + 2 ≤ steps →
      itemsDepth items ≤ room →
        readItems steps room done (cs ++ ']' :: rest) = some (.array (done.reverse ++ items), rest)
  | members entries => ∀ steps room done rest, 2 * cs.length + 2 ≤ steps →
      membersDepth entries ≤ room →
        readMembers steps room done (cs ++ '\x7d' :: rest) =
          some (.object (done.reverse ++ entries), rest)

/-- **Every phrase is read** from each of its texts. -/
theorem TextOf.readFrom {p : Phrase} {cs : List Char} (h : TextOf p cs) : p.ReadFrom cs := by
  -- a value takes one step and leaves the others to what it holds, which is shorter than it is
  induction h with
  | null | true | false =>
    intro steps room rest hsteps hdepth hrest
    obtain ⟨steps, rfl⟩ : ∃ n, steps = n + 1 := ⟨steps - 1, by omega⟩
    rw [List.cons_append, readValue, skipBlanks_cons (by decide)]
    rfl
  | number spelled =>
    intro steps room rest hsteps hdepth hrest
    obtain ⟨steps, rfl⟩ : ∃ n, steps = n + 1 := ⟨steps - 1, by omega⟩
    exact readValue_number spelled hrest
  | string spelled =>
    intro steps room rest hsteps hdepth hrest
    obtain ⟨steps, rfl⟩ : ∃ n, steps = n + 1 := ⟨steps - 1, by omega⟩
    rw [List.cons_append, List.append_assoc]
    exact readValue_string spelled rest
  | emptyArray blank =>
    intro steps room rest hsteps hdepth hrest
    obtain ⟨steps, rfl⟩ : ∃ n, steps = n + 1 := ⟨steps - 1, by omega⟩
    rw [Json.depth] at hdepth
    rw [List.cons_append, List.append_assoc]
    obtain ⟨room, rfl⟩ : ∃ n, room = n + 1 := ⟨room - 1, by omega⟩
    exact readValue_emptyArray blank rest
  | emptyObject blank =>
    intro steps room rest hsteps hdepth hrest
    obtain ⟨steps, rfl⟩ : ∃ n, steps = n + 1 := ⟨steps - 1, by omega⟩
    rw [Json.depth] at hdepth
    rw [List.cons_append, List.append_assoc]
    obtain ⟨room, rfl⟩ : ∃ n, room = n + 1 := ⟨room - 1, by omega⟩
    exact readValue_emptyObject blank rest
  | array _ ih =>
    intro steps room rest hsteps hdepth hrest
    obtain ⟨steps, rfl⟩ : ∃ n, steps = n + 1 := ⟨steps - 1, by omega⟩
    rw [Json.depth] at hdepth
    rw [List.length_cons, List.length_append] at hsteps
    rw [List.cons_append, List.append_assoc]
    obtain ⟨room, rfl⟩ : ∃ n, room = n + 1 := ⟨room - 1, by omega⟩
    exact readValue_array (ih steps room [] rest (by omega) (by omega))
  | object _ ih =>
    intro steps room rest hsteps hdepth hrest
    obtain ⟨steps, rfl⟩ : ∃ n, steps = n + 1 := ⟨steps - 1, by omega⟩
    rw [Json.depth] at hdepth
    rw [List.length_cons, List.length_append] at hsteps
    rw [List.cons_append, List.append_assoc]
    obtain ⟨room, rfl⟩ : ∃ n, room = n + 1 := ⟨room - 1, by omega⟩
    exact readValue_object (ih steps room [] rest (by omega) (by omega))
  | @element j before cs after blankBefore _ blankAfter ih =>
    intro steps room rest hsteps hdepth hrest
    rw [List.length_append, List.length_append] at hsteps
    -- the blanks behind the value are left to whoever reads on
    refine ⟨after ++ rest, ?_, skipBlanks_append blankAfter rest⟩
    rw [List.append_assoc, List.append_assoc, readValue_blank_append blankBefore]
    exact ih steps room _ (by omega) hdepth (hrest.blank_append blankAfter)
  | lastElement _ ih =>
    intro steps room done rest hsteps hdepth
    obtain ⟨steps, rfl⟩ : ∃ n, steps = n + 1 := ⟨steps - 1, by omega⟩
    simp only [itemsDepth] at hdepth
    obtain ⟨left, hread, hleft⟩ :=
      ih steps room (']' :: rest) (by omega) (by omega) (ends_cons (by decide))
    rw [skipBlanks_cons (by decide)] at hleft
    simp [readItems, hread, hleft]
  | @moreElements j items cs more _ _ ihhead ihtail =>
    intro steps room done rest hsteps hdepth
    obtain ⟨steps, rfl⟩ : ∃ n, steps = n + 1 := ⟨steps - 1, by omega⟩
    rw [List.length_append, List.length_cons] at hsteps
    simp only [itemsDepth] at hdepth
    obtain ⟨left, hread, hleft⟩ := ihhead steps room (',' :: (more ++ ']' :: rest)) (by omega)
      (by omega) (ends_cons (by decide))
    rw [skipBlanks_cons (by decide)] at hleft
    have htail := ihtail steps room (j :: done) rest (by omega) (by omega)
    rw [List.append_assoc, List.cons_append, readItems]
    simp [hread, hleft, htail]
  | @lastMember name j before cs named _ ih =>
    intro steps room done rest hsteps hdepth
    obtain ⟨steps, rfl⟩ : ∃ n, steps = n + 1 := ⟨steps - 1, by omega⟩
    rw [List.length_append, List.length_cons] at hsteps
    simp only [membersDepth, memberDepth] at hdepth
    obtain ⟨left, hread, hleft⟩ :=
      ih steps room ('\x7d' :: rest) (by omega) (by omega) (ends_cons (by decide))
    rw [skipBlanks_cons (by decide)] at hleft
    rw [List.append_assoc, List.cons_append, readMembers_name named hread, hleft]
    simp
  | @moreMembers name j members before cs more named _ _ ihhead ihtail =>
    intro steps room done rest hsteps hdepth
    obtain ⟨steps, rfl⟩ : ∃ n, steps = n + 1 := ⟨steps - 1, by omega⟩
    simp only [List.length_append, List.length_cons] at hsteps
    simp only [membersDepth, memberDepth] at hdepth
    obtain ⟨left, hread, hleft⟩ := ihhead steps room (',' :: (more ++ '\x7d' :: rest)) (by omega)
      (by omega) (ends_cons (by decide))
    rw [skipBlanks_cons (by decide)] at hleft
    have htail := ihtail steps room ((name, j) :: done) rest (by omega) (by omega)
    rw [List.append_assoc, List.cons_append, List.append_assoc, List.cons_append,
      readMembers_name named hread, hleft]
    simp [htail]

/-- **Every text is read**: a value that does not nest too deep is found in each of its texts. -/
theorem parseChars_of_text {j : Json} {cs : List Char} (h : TextOf (.element j) cs)
    (hdepth : j.depth ≤ maxDepth) : parseChars cs = some j := by
  obtain ⟨left, hread, hleft⟩ :=
    h.readFrom (2 * cs.length + 2) maxDepth [] (by omega) hdepth ends_nil
  rw [List.append_nil] at hread
  rw [parseChars, hread]
  simp only [hleft]
  rfl

/-- What is read is read as well where there is more room. -/
theorem read_of_le (steps : Nat) : ∀ {room room' : Nat}, room ≤ room' →
    (∀ cs r, readValue steps room cs = some r → readValue steps room' cs = some r) ∧
    (∀ done cs r, readItems steps room done cs = some r →
      readItems steps room' done cs = some r) ∧
    ∀ done cs r, readMembers steps room done cs = some r →
      readMembers steps room' done cs = some r := by
  induction steps with
  | zero =>
    refine fun _ ↦ ⟨fun cs r h ↦ ?_, fun done cs r h ↦ ?_, fun done cs r h ↦ ?_⟩
    · exact absurd h (by rw [readValue]; simp)
    · exact absurd h (by rw [readItems]; simp)
    · exact absurd h (by rw [readMembers]; simp)
  | succ steps ih =>
    intro room room' hroom
    obtain ⟨ihvalue, ihitems, ihmembers⟩ := ih hroom
    refine ⟨fun cs r h ↦ ?_, fun done cs r h ↦ ?_, fun done cs r h ↦ ?_⟩
    · rw [readValue] at h ⊢
      cases hskip : skipBlanks cs with
      | nil => simp [hskip] at h
      | cons c rest =>
        simp only [hskip, beq_iff_eq] at h ⊢
        -- arrays and objects take room, and leave more to what is in them
        by_cases hopens : c = '[' ∨ c = '\x7b'
        · cases room with
          | zero => rcases hopens with rfl | rfl <;> simp at h
          | succ room =>
            obtain ⟨room', rfl⟩ : ∃ n, room' = n + 1 := ⟨room' - 1, by omega⟩
            obtain ⟨-, ihitems, ihmembers⟩ := ih (Nat.le_of_succ_le_succ hroom)
            rcases hopens with rfl | rfl
            · simp only [Char.reduceEq, if_false, if_true] at h ⊢
              split at h
              · exact h
              · exact ihitems _ _ _ h
            · simp only [Char.reduceEq, if_false, if_true] at h ⊢
              split at h
              · exact h
              · exact ihmembers _ _ _ h
        · obtain ⟨harray, hobject⟩ := not_or.1 hopens
          simpa only [harray, hobject, if_false] using h
    · rw [readItems] at h ⊢
      cases hread : readValue steps room cs with
      | none => simp [hread] at h
      | some found =>
        rw [ihvalue cs found hread]
        rw [hread] at h
        simp only at h ⊢
        split at h
        · exact ihitems _ _ _ h
        · exact h
        · exact absurd h (by simp)
    · rw [readMembers] at h ⊢
      split at h
      · split at h
        · exact absurd h (by simp)
        · split at h
          · split at h
            · exact absurd h (by simp)
            · next hread =>
              rw [ihvalue _ _ hread]
              simp only
              split at h
              · exact ihmembers _ _ _ h
              · exact h
              · exact absurd h (by simp)
          · exact absurd h (by simp)
      · exact absurd h (by simp)

/-- A text of a value is read as this value, if it is read at all. -/
theorem eq_of_parseChars_text {j k : Json} {cs : List Char} (h : TextOf (.element j) cs)
    (hparse : parseChars cs = some k) : k = j := by
  rw [parseChars] at hparse
  cases hread : readValue (2 * cs.length + 2) maxDepth cs with
  | none => simp [hread] at hparse
  | some found =>
    obtain ⟨k', rest⟩ := found
    rw [hread] at hparse
    obtain ⟨-, hk⟩ := Option.ite_none_right_eq_some.1 hparse
    have hmore := (read_of_le _ (Nat.le_max_left maxDepth j.depth)).1 cs _ hread
    obtain ⟨left, htext, -⟩ := h.readFrom (2 * cs.length + 2) (max maxDepth j.depth) [] (by omega)
      (Nat.le_max_right _ _) ends_nil
    rw [List.append_nil, hmore] at htext
    rw [← Option.some.inj hk]
    exact (Prod.mk.inj (Option.some.inj htext)).1

/-! ### Writing -/

/-- A value whose numbers are spelled as numbers can be. -/
inductive Spellable : Json → Prop
  | null : Spellable .null
  | bool {b : Bool} : Spellable (.bool b)
  | number {n : Numeral} (spelled : n.Grammatical) : Spellable (.number n)
  | string {s : String} : Spellable (.string s)
  | array {items : List Json} (inside : ∀ j ∈ items, Spellable j) : Spellable (.array items)
  | object {members : List (String × Json)} (inside : ∀ m ∈ members, Spellable m.2) :
      Spellable (.object members)

theorem TextOf.element_of_value {j : Json} {cs : List Char} (h : TextOf (.value j) cs) :
    TextOf (.element j) cs := by
  simpa using TextOf.element blank_nil h blank_nil

theorem nameText_writeString (name : String) : NameText name (writeString name) :=
  .mk blank_nil (spelledAs_flatMap_writeChar name.toList) blank_nil

theorem textOf_compactItems {items : List Json} (hne : items ≠ [])
    (h : ∀ j ∈ items, TextOf (.value j) (compactChars j)) :
    TextOf (.elements items) (compactItems items) := by
  induction items with
  | nil => exact absurd rfl hne
  | cons j rest ih =>
    obtain ⟨hj, hrest⟩ := List.forall_mem_cons.1 h
    cases rest with
    | nil => exact TextOf.lastElement hj.element_of_value
    | cons k rest =>
      show TextOf (.elements (j :: k :: rest)) (compactChars j ++ ',' :: compactItems (k :: rest))
      exact .moreElements hj.element_of_value (ih (List.cons_ne_nil _ _) hrest)

theorem textOf_compactMembers {members : List (String × Json)} (hne : members ≠ [])
    (h : ∀ m ∈ members, TextOf (.value m.2) (compactChars m.2)) :
    TextOf (.members members) (compactMembers members) := by
  induction members with
  | nil => exact absurd rfl hne
  | cons m rest ih =>
    obtain ⟨name, j⟩ := m
    obtain ⟨hj, hrest⟩ := List.forall_mem_cons.1 h
    cases rest with
    | nil => exact TextOf.lastMember (nameText_writeString name) hj.element_of_value
    | cons k rest =>
      show TextOf (.members ((name, j) :: k :: rest))
        ((writeString name ++ ':' :: compactChars j) ++ ',' :: compactMembers (k :: rest))
      rw [List.append_assoc]
      exact .moreMembers (nameText_writeString name) hj.element_of_value
        (ih (List.cons_ne_nil _ _) hrest)

/-- **What is written is a text** of the value. -/
theorem textOf_compactChars {j : Json} (h : Spellable j) : TextOf (.value j) (compactChars j) := by
  induction h with
  | null => exact TextOf.null
  | @bool b =>
    cases b with
    | false => exact TextOf.false
    | true => exact TextOf.true
  | number spelled => exact TextOf.number spelled
  | @string s => exact TextOf.string (spelledAs_flatMap_writeChar s.toList)
  | @array items _ ih =>
    cases items with
    | nil => exact TextOf.emptyArray blank_nil
    | cons j rest => exact TextOf.array (textOf_compactItems (List.cons_ne_nil _ _) ih)
  | @object members _ ih =>
    cases members with
    | nil => exact TextOf.emptyObject blank_nil
    | cons m rest => exact TextOf.object (textOf_compactMembers (List.cons_ne_nil _ _) ih)

end Questionnaire.Json
