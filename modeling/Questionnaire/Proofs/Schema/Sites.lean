import Questionnaire.Proofs.Json.Spelling
import Questionnaire.Proofs.Schema.Validators

/-!
# Where failures stand

What a value fails at a place stands at this place or below it, at steps that lead into the value
(`Json.LeadsTo`). Two failures at one place say different things of an object: that members are
missing, each time others, or that there are members too many (`Failure.Apart`).

Both follow from how the keywords that apply to a value are laid out (`Laid`): no two of them ask
for a member or look at one, and no two but those that are about missing and additional members say
something of the value itself. Schemas that are laid out so for all values, with the schemas of
their members and items, have failures of this sort (`points_failures`).
-/

namespace Questionnaire

namespace Json

/-- Names of members and indices of items, one after the other, lead from a value to one in it. -/
inductive LeadsTo : Json → List String → Json → Prop
  | here (j : Json) : LeadsTo j [] j
  | member {members : List (String × Json)} {name : String} {k v : Json} {rest : List String}
      (h : member? name members = some k) (inner : LeadsTo k rest v) :
      LeadsTo (.object members) (name :: rest) v
  | item {items : List Json} {i : Nat} {k v : Json} {rest : List String}
      (h : items[i]? = some k) (inner : LeadsTo k rest v) :
      LeadsTo (.array items) (toString i :: rest) v

/-- The first step leads to a member or to an item. -/
theorem leadsTo_cons_iff {j v : Json} {step : String} {rest : List String} :
    LeadsTo j (step :: rest) v ↔
      (∃ k, member? step j.membersOf = some k ∧ LeadsTo k rest v) ∨
        ∃ (i : Nat) (k : Json), step = toString i ∧ j.itemsOf[i]? = some k ∧ LeadsTo k rest v := by
  constructor
  · rintro (_ | ⟨h, inner⟩ | ⟨h, inner⟩)
    · exact Or.inl ⟨_, h, inner⟩
    · exact Or.inr ⟨_, _, rfl, h, inner⟩
  · rintro (⟨k, h, inner⟩ | ⟨i, k, rfl, h, inner⟩)
    · cases j with
      | object members => exact .member h inner
      | _ => exact absurd h (by simp [membersOf, member?])
    · cases j with
      | array items => exact .item h inner
      | _ => exact absurd h (by simp [itemsOf])

/-- What leads into a value with its members in order leads into the value. -/
theorem LeadsTo.of_ordered {j v : Json} {steps : List String} (h : LeadsTo j.ordered steps v) :
    ∃ w, LeadsTo j steps w := by
  induction steps generalizing j with
  | nil => exact ⟨j, .here j⟩
  | cons step rest ih =>
    rcases leadsTo_cons_iff.1 h with ⟨k, hk, inner⟩ | ⟨i, k, rfl, hk, inner⟩
    · rw [member?_ordered, Option.map_eq_some_iff] at hk
      obtain ⟨k', hk', rfl⟩ := hk
      obtain ⟨w, hw⟩ := ih inner
      exact ⟨w, leadsTo_cons_iff.2 (Or.inl ⟨k', hk', hw⟩)⟩
    · rw [itemsOf_ordered, List.getElem?_map, Option.map_eq_some_iff] at hk
      obtain ⟨k', hk', rfl⟩ := hk
      obtain ⟨w, hw⟩ := ih inner
      exact ⟨w, leadsTo_cons_iff.2 (Or.inr ⟨i, k', rfl, hk', hw⟩)⟩

end Json

namespace Schema

open Json (member? LeadsTo)

/-! ### Failures at one place -/

/-- Two errors of one object that say different things: different members are missing, or there are
others too many. -/
def ErrorKind.Apart : ErrorKind → ErrorKind → Prop
  | .required names, .required names' => names.Disjoint names'
  | .required _, .additionalProperties _ => True
  | .additionalProperties _, .required _ => True
  | _, _ => False

/-- Failures at different places, or that say different things. -/
def Failure.Apart (f f' : Failure) : Prop :=
  f.location = f'.location → f.kind.Apart f'.kind

/-- A failure lies below a step from a place. -/
def Failure.Below (location : List String) (step : String) (f : Failure) : Prop :=
  ∃ steps, f.location = location ++ step :: steps

theorem Failure.Below.step_eq {location : List String} {s t : String} {f f' : Failure}
    (h : f.Below location s) (h' : f'.Below location t) (heq : f.location = f'.location) :
    s = t := by
  obtain ⟨steps, hsteps⟩ := h
  obtain ⟨steps', hsteps'⟩ := h'
  rw [hsteps, hsteps'] at heq
  exact (List.cons.inj (List.append_cancel_left heq)).1

theorem Failure.Below.location_ne {location : List String} {s : String} {f : Failure}
    (h : f.Below location s) : f.location ≠ location := by
  obtain ⟨steps, hsteps⟩ := h
  rw [hsteps]
  simp

/-- The failures of a value at a place are apart, lie in the value, and name only members whose
names are made of letters as missing. -/
structure Points (location : List String) (j : Json) (l : List Failure) : Prop where
  apart : l.Pairwise Failure.Apart
  leads : ∀ f ∈ l, ∃ steps v, f.location = location ++ steps ∧ (∀ s ∈ steps, '/' ∉ s.toList) ∧
    LeadsTo j steps v
  lettered : ∀ f ∈ l, ∀ names, f.kind = .required names → names ≠ [] ∧ ∀ n ∈ names, Lettered n

theorem Points.below {location : List String} {step : String} {j : Json} {l : List Failure}
    (h : Points (location ++ [step]) j l) {f : Failure} (hf : f ∈ l) : f.Below location step := by
  obtain ⟨steps, v, hsteps, -⟩ := h.leads f hf
  exact ⟨steps, by rw [hsteps, List.append_assoc]; rfl⟩

/-! ### Keywords -/

/-- The members that a keyword names are named by letters, each once, and their schemas and those of
items are of a given sort. -/
def Keyword.Plain (P : Subschema → Prop) : Keyword → Prop
  | .required names => ∀ n ∈ names, Lettered n
  | .properties schemas => (schemas.map Prod.fst).Nodup ∧ ∀ p ∈ schemas, Lettered p.1 ∧ P p.2
  | .items s => P s
  | _ => True

/-- Two keywords that apply to a value look at different parts of it, and say different things of
the value itself. -/
structure Applied.Apart (j : Json) (a a' : Applied) : Prop where
  properties : ∀ schemas schemas', a.keyword = .properties schemas →
    a'.keyword = .properties schemas' → (schemas.map Prod.fst).Disjoint (schemas'.map Prod.fst)
  items : ∀ s s', a.keyword = .items s → a'.keyword ≠ .items s'
  broken : ∀ kind kind', a.broken? j = some kind → a'.broken? j = some kind' → kind.Apart kind'

/-- How the keywords that apply to a value are laid out. -/
structure Laid (P : Subschema → Prop) (j : Json) (l : List Applied) : Prop where
  plain : ∀ a ∈ l, a.keyword.Plain P
  apart : l.Pairwise (Applied.Apart j)

/-- **What a keyword finds** is an error of the value itself, or what a member or an item fails. -/
theorem Applied.mem_failures_cases {j : Json} {location : List String} {a : Applied} {f : Failure}
    (h : f ∈ a.failures j location) :
    (∃ kind, a.broken? j = some kind ∧ f = ⟨location, kind⟩) ∨
    (∃ schemas, a.keyword = .properties schemas ∧ ∃ p ∈ schemas, ∃ k,
      member? p.1 j.membersOf = some k ∧ f ∈ Schema.failures p.2 k (location ++ [p.1])) ∨
    ∃ s, a.keyword = .items s ∧ ∃ (i : Nat) (k : Json), j.itemsOf[i]? = some k ∧
      f ∈ Schema.failures s k (location ++ [toString i]) := by
  unfold Applied.failures at h
  split at h
  · next schemas hkeyword =>
    obtain ⟨p, hp, hf⟩ := List.mem_flatMap.1 h
    cases hmember : member? p.1 j.membersOf with
    | none => simp [hmember] at hf
    | some k =>
      rw [hmember] at hf
      exact Or.inr (Or.inl ⟨schemas, hkeyword, p, hp, k, hmember, hf⟩)
  · next s hkeyword =>
    obtain ⟨⟨k, i⟩, hk, hf⟩ := List.mem_flatMap.1 h
    exact Or.inr (Or.inr ⟨s, hkeyword, i, k, List.mk_mem_zipIdx_iff_getElem?.1 hk, hf⟩)
  · obtain ⟨kind, hkind, rfl⟩ := Option.map_eq_some_iff.1 (Option.mem_toList.1 h)
    exact Or.inl ⟨kind, hkind, rfl⟩

theorem additional?_eq_some {all : List Keyword} {members : List (String × Json)}
    {kind : ErrorKind} (h : additional? all members = some kind) :
    ∃ names, kind = .additionalProperties names := by
  unfold additional? at h
  split at h
  · exact absurd h (by simp)
  · exact ⟨_, (Option.some.inj h).symm⟩

theorem missing?_eq_some {all : List String} {members : List (String × Json)}
    {kind : ErrorKind} (h : missing? all members = some kind) :
    ∃ names, kind = .required names ∧ names ≠ [] ∧ names ⊆ all := by
  unfold missing? at h
  split at h
  · exact absurd h (by simp)
  · next hlacking => exact ⟨_, (Option.some.inj h).symm, hlacking, List.filter_subset_self _⟩

/-- A keyword that finds members missing requires them. -/
theorem Applied.keyword_of_broken_required {j : Json} {a : Applied} {names : List String}
    (h : a.broken? j = some (.required names)) :
    names ≠ [] ∧ ∃ all, a.keyword = .required all ∧ names ⊆ all := by
  obtain ⟨among, keyword⟩ := a
  cases keyword with
  | required all =>
    cases j with
    | object members =>
      obtain ⟨names', heq, hne, hsubset⟩ := missing?_eq_some h
      obtain rfl : names = names' := by simpa using heq
      exact ⟨hne, all, rfl, hsubset⟩
    | _ => simp [Applied.broken?, Keyword.halt?, Keyword.own?] at h
  | noAdditionalProperties =>
    cases j with
    | object members =>
      obtain ⟨names', heq⟩ := additional?_eq_some h
      exact absurd heq (by simp)
    | _ => simp [Applied.broken?, Keyword.halt?, Keyword.own?] at h
  | _ => cases j <;> simp [Applied.broken?, Keyword.halt?, Keyword.own?] at h

/-! ### Values -/

section

variable {P : Subschema → Prop} {location : List String} {j : Json} {a a' : Applied}

/-- What is assumed of the parts of a value while the value is looked at. -/
def PartsPoint (P : Subschema → Prop) (j : Json) : Prop :=
  ∀ k, Json.ChildOf k j → ∀ s, P s → ∀ location, Points location k (failures s k location)

theorem PartsPoint.member (h : PartsPoint P j) {name : String} {k : Json} {s : Subschema}
    (hk : member? name j.membersOf = some k) (hs : P s) :
    Points (location ++ [name]) k (failures s k (location ++ [name])) :=
  h k (.of_membersOf hk) s hs _

theorem PartsPoint.item (h : PartsPoint P j) {i : Nat} {k : Json} {s : Subschema}
    (hk : j.itemsOf[i]? = some k) (hs : P s) :
    Points (location ++ [toString i]) k (failures s k (location ++ [toString i])) :=
  h k (.of_itemsOf (List.mem_of_getElem? hk)) s hs _

/-- A value has members or items, not both. -/
theorem not_member_and_item {name : String} {i : Nat} {k k' : Json}
    (hk : member? name j.membersOf = some k) (hk' : j.itemsOf[i]? = some k') : False := by
  cases j <;> simp [Json.membersOf, Json.itemsOf, member?] at hk hk'

/-- What two keywords find is apart. -/
theorem Applied.Apart.failures (h : a.Apart j a') (ha : a.keyword.Plain P)
    (ha' : a'.keyword.Plain P) (hparts : PartsPoint P j) {f f' : Failure}
    (hf : f ∈ a.failures j location) (hf' : f' ∈ a'.failures j location) : f.Apart f' := by
  intro heq
  rcases Applied.mem_failures_cases hf with ⟨kind, hkind, rfl⟩ |
    ⟨schemas, hschemas, p, hp, k, hk, hf⟩ | ⟨s, hs, i, k, hk, hf⟩
  · rcases Applied.mem_failures_cases hf' with ⟨kind', hkind', rfl⟩ |
      ⟨schemas', hschemas', p', hp', k', hk', hf'⟩ | ⟨s', hs', i', k', hk', hf'⟩
    · exact h.broken kind kind' hkind hkind'
    · rw [hschemas'] at ha'
      exact absurd heq.symm ((hparts.member hk' (ha'.2 p' hp').2).below hf').location_ne
    · rw [hs'] at ha'
      exact absurd heq.symm ((hparts.item hk' ha').below hf').location_ne
  · rw [hschemas] at ha
    have hbelow := (hparts.member hk (ha.2 p hp).2).below hf
    rcases Applied.mem_failures_cases hf' with ⟨kind', hkind', rfl⟩ |
      ⟨schemas', hschemas', p', hp', k', hk', hf'⟩ | ⟨s', hs', i', k', hk', hf'⟩
    · exact absurd heq hbelow.location_ne
    · rw [hschemas'] at ha'
      have hname : p.1 = p'.1 :=
        hbelow.step_eq ((hparts.member hk' (ha'.2 p' hp').2).below hf') heq
      exact (h.properties _ _ hschemas hschemas' (List.mem_map_of_mem hp)
        (hname ▸ List.mem_map_of_mem hp')).elim
    · exact (not_member_and_item hk hk').elim
  · rw [hs] at ha
    rcases Applied.mem_failures_cases hf' with ⟨kind', hkind', rfl⟩ |
      ⟨schemas', hschemas', p', hp', k', hk', hf'⟩ | ⟨s', hs', i', k', hk', hf'⟩
    · exact absurd heq ((hparts.item hk ha).below hf).location_ne
    · exact (not_member_and_item hk' hk).elim
    · exact absurd hs' (h.items _ _ hs)

/-- What one keyword finds is apart. -/
theorem pairwise_applied_failures (ha : a.keyword.Plain P) (hparts : PartsPoint P j) :
    (a.failures j location).Pairwise Failure.Apart := by
  unfold Applied.failures
  split
  · next schemas hschemas =>
    rw [hschemas] at ha
    obtain ⟨hnames, hplain⟩ := ha
    have hmember : ∀ p ∈ schemas, ∀ f ∈ ((member? p.1 j.membersOf).map fun k ↦
        failures p.2 k (location ++ [p.1])).getD [], f.Below location p.1 := by
      intro p hp f hf
      cases hk : member? p.1 j.membersOf with
      | none => simp [hk] at hf
      | some k =>
        rw [hk] at hf
        exact (hparts.member hk (hplain p hp).2).below hf
    rw [List.pairwise_flatMap]
    refine ⟨fun p hp ↦ ?_, (List.pairwise_map.1 hnames).imp_of_mem fun {p p'} hp hp' hne ↦ ?_⟩
    · cases hk : member? p.1 j.membersOf with
      | none => exact .nil
      | some k => exact (hparts.member hk (hplain p hp).2).apart
    · intro f hf f' hf' heq
      exact absurd ((hmember p hp f hf).step_eq (hmember p' hp' f' hf') heq) hne
  · next s hs =>
    rw [hs] at ha
    have hindices : (j.itemsOf.zipIdx.map Prod.snd).Nodup := by
      rw [List.zipIdx_map_snd]
      exact List.nodup_range'
    have hitem : ∀ p ∈ j.itemsOf.zipIdx, Points (location ++ [toString p.2]) p.1
        (failures s p.1 (location ++ [toString p.2])) := fun p hp ↦
      hparts.item (List.mk_mem_zipIdx_iff_getElem?.1 hp) ha
    rw [List.pairwise_flatMap]
    refine ⟨fun p hp ↦ (hitem p hp).apart,
      (List.pairwise_map.1 hindices).imp_of_mem fun {p p'} hp hp' hne ↦ ?_⟩
    intro f hf f' hf' heq
    have hstep := ((hitem p hp).below hf).step_eq ((hitem p' hp').below hf') heq
    exact absurd (Json.toString_inj hstep) hne
  · cases a.broken? j with
    | none => exact .nil
    | some kind => exact List.pairwise_singleton _ _

theorem Lettered.not_mem_slash {name : String} (h : Lettered name) : '/' ∉ name.toList :=
  fun hmem ↦ absurd (h _ hmem) (by decide)

theorem not_mem_slash_toString (n : Nat) : '/' ∉ (toString n).toList :=
  fun hmem ↦ absurd ((Json.digits_toString n).2 _ hmem) (by decide)

/-- What keywords find that are laid out. -/
theorem points_of_laid {l : List Applied} (h : Laid P j l) (hparts : PartsPoint P j) :
    Points location j (l.flatMap (Applied.failures j location)) where
  apart := by
    rw [List.pairwise_flatMap]
    refine ⟨fun a ha ↦ pairwise_applied_failures (h.plain a ha) hparts, ?_⟩
    exact h.apart.imp_of_mem fun ha ha' hapart f hf f' hf' ↦
      hapart.failures (h.plain _ ha) (h.plain _ ha') hparts hf hf'
  leads f hf := by
    obtain ⟨a, ha, hf⟩ := List.mem_flatMap.1 hf
    have hplain := h.plain a ha
    rcases Applied.mem_failures_cases hf with ⟨kind, hkind, rfl⟩ |
      ⟨schemas, hschemas, p, hp, k, hk, hf⟩ | ⟨s, hs, i, k, hk, hf⟩
    · exact ⟨[], j, (List.append_nil _).symm, fun _ hs ↦ absurd hs List.not_mem_nil, .here j⟩
    · rw [hschemas] at hplain
      obtain ⟨hname, hsub⟩ := hplain.2 p hp
      obtain ⟨steps, v, hsteps, hslash, hleads⟩ := (hparts.member hk hsub).leads f hf
      refine ⟨p.1 :: steps, v, by simp [hsteps], ?_, ?_⟩
      · exact List.forall_mem_cons.2 ⟨hname.not_mem_slash, hslash⟩
      · exact Json.leadsTo_cons_iff.2 (Or.inl ⟨k, hk, hleads⟩)
    · rw [hs] at hplain
      obtain ⟨steps, v, hsteps, hslash, hleads⟩ := (hparts.item hk hplain).leads f hf
      refine ⟨toString i :: steps, v, by simp [hsteps], ?_, ?_⟩
      · exact List.forall_mem_cons.2 ⟨not_mem_slash_toString i, hslash⟩
      · exact Json.leadsTo_cons_iff.2 (Or.inr ⟨i, k, rfl, hk, hleads⟩)
  lettered f hf names hnames := by
    obtain ⟨a, ha, hf⟩ := List.mem_flatMap.1 hf
    have hplain := h.plain a ha
    rcases Applied.mem_failures_cases hf with ⟨kind, hkind, rfl⟩ |
      ⟨schemas, hschemas, p, hp, k, hk, hf⟩ | ⟨s, hs, i, k, hk, hf⟩
    · obtain rfl : kind = .required names := hnames
      obtain ⟨hne, all, hall, hsubset⟩ := Applied.keyword_of_broken_required hkind
      rw [hall] at hplain
      exact ⟨hne, fun n hn ↦ hplain n (hsubset hn)⟩
    · rw [hschemas] at hplain
      exact (hparts.member hk (hplain.2 p hp).2).lettered f hf names hnames
    · rw [hs] at hplain
      exact (hparts.item hk hplain).lettered f hf names hnames

end

/-- The schema itself of one that is given in place or by reference. -/
def Subschema.schema : Subschema → Schema
  | .inPlace schema => schema
  | .ref target => target.schema

theorem failures_eq (s : Subschema) (j : Json) (location : List String) :
    failures s j location =
      (applied j location s.schema).flatMap (Applied.failures j location) := by
  cases s with
  | inPlace schema => exact failures_inPlace schema j location
  | ref target => rw [failures_ref, failures_inPlace]; rfl

/-- **The failures of a value** by schemas that are laid out are apart and lie in the value. -/
theorem points_failures {P : Subschema → Prop}
    (h : ∀ s, P s → ∀ j location, Laid P j (applied j location s.schema)) (j : Json) :
    ∀ s, P s → ∀ location, Points location j (failures s j location) := by
  induction j using Json.childInduction with
  | step j ih =>
    intro s hs location
    rw [failures_eq]
    exact points_of_laid (h s hs j location) ih

end Schema

end Questionnaire
