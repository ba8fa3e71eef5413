import Mathlib.Logic.Function.Basic
import Questionnaire.Proofs.Json.Members

/-!
# Records read from JSON

A record is read from an object member by member, and a member may be given several times, under
names that differ in case. `ReadsFields` is what reading one member does to a record: it sets the
field that the member names and leaves the others alone. The law for a whole object follows for any
such record (`ReadsFields.foldlM_eq_ok`): a field holds what the last member that matches its name
is read as, or, without such a member, what it held before.
-/

namespace Questionnaire

/-! ### Results -/

section Results

variable {ε α β : Type} {x : Except ε α} {b : β}

theorem map_eq_ok_iff {f : α → β} : x.map f = .ok b ↔ ∃ a, x = .ok a ∧ f a = b := by
  cases x <;> simp [Except.map]

theorem exists_map_eq_ok {f : α → β} (h : ∃ a, x = .ok a) : ∃ b, x.map f = .ok b := by
  obtain ⟨a, rfl⟩ := h
  exact ⟨f a, rfl⟩

theorem exists_eq_ok_of_isOk (h : x.isOk = true) : ∃ a, x = .ok a := by
  cases x with
  | error e => exact absurd h (by simp [Except.isOk, Except.toBool])
  | ok a => exact ⟨a, rfl⟩

theorem mapError_eq_ok_iff {ε' : Type} {f : ε → ε'} {a : α} :
    x.mapError f = .ok a ↔ x = .ok a := by
  cases x <;> simp [Except.mapError]

theorem bind_eq_ok_iff {f : α → Except ε β} : x >>= f = .ok b ↔ ∃ a, x = .ok a ∧ f a = .ok b := by
  cases x <;> simp [bind, Except.bind]

end Results

namespace Json

/-! ### Tables of fields -/

section Tables

variable {F : Type} {table : List (String × F)} {field : F} {n name : String}

/-- A table with one name for each field, and no two names that differ in case only. -/
structure IsTable (table : List (String × F)) : Prop where
  names : (table.map fun f ↦ foldName f.1).Nodup
  fields : (table.map Prod.snd).Nodup

/-- A name finds a field exactly when it is the name of the field in some case. -/
theorem IsTable.field?_eq_some_iff (h : IsTable table) (hmem : (name, field) ∈ table) :
    field? table n = some field ↔ foldName n = foldName name := by
  rw [field?, Option.map_eq_some_iff]
  constructor
  · rintro ⟨entry, hfind, hfield⟩
    have hname : foldName entry.1 = foldName n := by simpa using List.find?_some hfind
    obtain rfl := List.inj_on_of_nodup_map h.fields (List.mem_of_find?_eq_some hfind) hmem hfield
    exact hname.symm
  · intro hn
    cases hfind : table.find? fun f ↦ foldName f.1 == foldName n with
    | none => exact absurd (List.find?_eq_none.1 hfind _ hmem) (by simp [hn])
    | some entry =>
      have hname : foldName entry.1 = foldName n := by simpa using List.find?_some hfind
      obtain rfl := List.inj_on_of_nodup_map h.names (List.mem_of_find?_eq_some hfind) hmem
        (hname.trans hn)
      exact ⟨_, rfl, rfl⟩

end Tables

/-! ### Records -/

variable {D F P : Type} [DecidableEq F] {table : List (String × F)}
  {read : D → String × Json → Except Mismatch D} {part : D → F → P} {fits : Json → P → Prop}
  {sound : D → Prop} {d d' : D} {members : List (String × Json)}

/-- Reading a member into a record that is sound sets the part in the field of the member's name to
one that fits the member's value, and leaves the record alone where there is no such field. -/
structure ReadsFields (table : List (String × F)) (read : D → String × Json → Except Mismatch D)
    (part : D → F → P) (fits : Json → P → Prop) (sound : D → Prop) : Prop where
  isTable : IsTable table
  skips : ∀ {d d' m}, sound d → field? table m.1 = none → read d m = .ok d' → d' = d
  sets : ∀ {d d' m f}, sound d → field? table m.1 = some f → read d m = .ok d' →
    sound d' ∧ ∃ p, fits m.2 p ∧ part d' = Function.update (part d) f p

/-- What is said of a mismatch does not matter to what is read. -/
theorem ReadsFields.readIn (h : ReadsFields table read part fits sound) (record : String) :
    ReadsFields table (Json.readIn record table read) part fits sound where
  isTable := h.isTable
  skips hd hfield hread := h.skips hd hfield (mapError_eq_ok_iff.1 hread)
  sets hd hfield hread := h.sets hd hfield (mapError_eq_ok_iff.1 hread)

/-- **A whole object is read** field by field: the last member that matches the name of a field
counts for it, and a field without such a member keeps its part. -/
theorem ReadsFields.foldlM_eq_ok (h : ReadsFields table read part fits sound) (hd : sound d)
    (hread : members.foldlM read d = .ok d') :
    sound d' ∧ ∀ name f, (name, f) ∈ table →
      (∀ j, matching? name members = some j → fits j (part d' f)) ∧
      (matching? name members = none → part d' f = part d f) := by
  induction members generalizing d with
  | nil =>
    cases hread
    exact ⟨hd, fun name f _ ↦ ⟨fun j hj ↦ absurd hj (by simp [matching?]), fun _ ↦ rfl⟩⟩
  | cons m rest ih =>
    rw [List.foldlM_cons] at hread
    obtain ⟨d₁, hm, hrest⟩ := bind_eq_ok_iff.1 hread
    cases hfield : field? table m.1 with
    | none =>
      -- the member names no field, so the record is read from the rest alone
      obtain rfl := h.skips hd hfield hm
      obtain ⟨hsound, hparts⟩ := ih hd hrest
      refine ⟨hsound, fun name f hf ↦ ?_⟩
      have hother : foldName m.1 ≠ foldName name := by
        rw [ne_eq, ← h.isTable.field?_eq_some_iff hf, hfield]
        simp
      rw [matching?_cons, if_neg hother, Option.or_none]
      exact hparts name f hf
    | some g =>
      obtain ⟨hsound₁, p, hfits, hpart⟩ := h.sets hd hfield hm
      obtain ⟨hsound, hparts⟩ := ih hsound₁ hrest
      refine ⟨hsound, fun name f hf ↦ ?_⟩
      obtain ⟨hlater, hnone⟩ := hparts name f hf
      have hnames : g = f ↔ foldName m.1 = foldName name := by
        rw [← h.isTable.field?_eq_some_iff hf, hfield, Option.some.injEq]
      rw [matching?_cons]
      cases hmatching : matching? name rest with
      | some k => exact ⟨fun j hj ↦ hlater j (hmatching.trans hj), fun hj ↦ absurd hj (by simp)⟩
      | none =>
        -- no later member counts for the field, so this one does if it has its name
        rw [hnone hmatching, Option.none_or, hpart]
        by_cases hg : g = f
        · subst hg
          rw [if_pos (hnames.1 rfl), Function.update_self]
          exact ⟨fun j hj ↦ Option.some.inj hj ▸ hfits, fun hj ↦ absurd hj (by simp)⟩
        · rw [if_neg fun hname ↦ hg (hnames.2 hname), Function.update_of_ne (Ne.symm hg)]
          exact ⟨fun j hj ↦ absurd hj (by simp), fun _ ↦ rfl⟩

/-- An object whose members can be read one by one can be read. -/
theorem ReadsFields.exists_foldlM (h : ReadsFields table read part fits sound) (hd : sound d)
    (hmembers : ∀ m ∈ members, ∀ d, sound d → ∃ d', read d m = .ok d') :
    ∃ d', members.foldlM read d = .ok d' := by
  induction members generalizing d with
  | nil => exact ⟨d, rfl⟩
  | cons m rest ih =>
    obtain ⟨hm, hrest⟩ := List.forall_mem_cons.1 hmembers
    obtain ⟨d₁, hd₁⟩ := hm d hd
    have hsound : sound d₁ := by
      cases hfield : field? table m.1 with
      | none => exact h.skips hd hfield hd₁ ▸ hd
      | some g => exact (h.sets hd hfield hd₁).1
    obtain ⟨d', hd'⟩ := ih hsound hrest
    refine ⟨d', ?_⟩
    rw [List.foldlM_cons, hd₁]
    exact hd'

end Json

end Questionnaire
