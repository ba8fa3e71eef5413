import Questionnaire.Proofs.Schema.Keywords
import Questionnaire.Schema.Validator

/-!
# Documents as they are validated

A document is written and read again before it is validated, which puts its members in order, or
leaves it as it is (`normalize_cases`). Neither changes whether it is what a schema asks for:
keywords go by the last member with a name and by which names there are
(`failures_normalize_eq_nil_iff`).
-/

namespace Questionnaire.Schema

open Json (member? hasMember)

/-- **Normalising** a document orders its members, or does nothing. -/
theorem normalize_cases (doc : Json) : normalize doc = doc ∨ normalize doc = doc.ordered := by
  unfold normalize
  cases hwrite : doc.write? with
  | none => exact Or.inl rfl
  | some text =>
    cases hparse : Json.parseChars text with
    | none =>
      refine Or.inl ?_
      simp only [hparse, Option.getD_none]
    | some k =>
      refine Or.inr ?_
      simp only [hparse, Option.getD_some]
      exact Json.eq_ordered_of_parseChars_write hwrite hparse

/-! ### Values that are told apart by no schema -/

/-- Keywords hold of one of two views when they hold of the other. -/
structure View.Alike (v v' : View) : Prop where
  halt : ∀ k : Keyword, k.halt? v.value = none ↔ k.halt? v'.value = none
  own : ∀ (all : List Keyword) (k : Keyword), k.own? all v.value = none ↔ k.own? all v'.value = none
  members : ∀ name s location, (∀ look ∈ member? name v.members, look s location = []) ↔
    ∀ look ∈ member? name v'.members, look s location = []
  items : ∀ s (location : List String),
    (∀ p ∈ v.items.zipIdx, p.1 s (location ++ [toString p.2]) = []) ↔
      ∀ p ∈ v'.items.zipIdx, p.1 s (location ++ [toString p.2]) = []

variable {v v' : View} {location : List String}

theorem causesOf_own_eq_nil_iff (h : v.Alike v') {all : List Keyword} {k : Keyword} :
    ((k.own? all v.value).map (ValidationError.leaf location)).toList = [] ↔
      ((k.own? all v'.value).map (ValidationError.leaf location)).toList = [] := by
  simpa using h.own all k

mutual

theorem causes_alike (h : v.Alike v') : ∀ s : Schema,
    causes v location s = [] ↔ causes v' location s = []
  | .mk keywords => by
    have hhalt : keywords.findSome? (Keyword.halt? v.value) = none ↔
        keywords.findSome? (Keyword.halt? v'.value) = none := by
      rw [List.findSome?_eq_none_iff, List.findSome?_eq_none_iff]
      exact forall₂_congr fun k _ ↦ h.halt k
    rw [causes, causes]
    cases hv : keywords.findSome? (Keyword.halt? v.value) with
    | none =>
      rw [hhalt.1 hv]
      exact causesEach_alike h keywords keywords
    | some kind =>
      obtain ⟨kind', hv'⟩ := Option.ne_none_iff_exists'.1 (mt hhalt.2 (by simp [hv]))
      rw [hv']
      exact iff_of_false (List.cons_ne_nil _ _) (List.cons_ne_nil _ _)

theorem causesEach_alike (h : v.Alike v') (all : List Keyword) : ∀ keywords : List Keyword,
    causesEach v location all keywords = [] ↔ causesEach v' location all keywords = []
  | [] => Iff.rfl
  | k :: rest => by
    rw [causesEach, causesEach, List.append_eq_nil_iff, List.append_eq_nil_iff,
      causesOf_alike h all k, causesEach_alike h all rest]

theorem causesOf_alike (h : v.Alike v') (all : List Keyword) : ∀ k : Keyword,
    causesOf v location all k = [] ↔ causesOf v' location all k = []
  | .properties schemas => by
    rw [causesOf_properties_eq_nil_iff, causesOf_properties_eq_nil_iff]
    exact forall₂_congr fun p _ ↦ h.members p.1 p.2 _
  | .items schema => by
    rw [causesOf, causesOf, List.flatMap_eq_nil_iff, List.flatMap_eq_nil_iff]
    exact h.items schema location
  | .allOf schemas => by
    rw [causesOf, causesOf, ValidationError.gather_eq_nil_iff, ValidationError.gather_eq_nil_iff]
    exact causesAll_alike h schemas
  | .ifThen test consequence => by
    rw [causesOf, causesOf]
    simp only [List.isEmpty_iff]
    by_cases htest : causes v location test = []
    · rw [if_pos htest, if_pos ((causes_alike h test).1 htest)]
      exact causes_alike h consequence
    · rw [if_neg htest, if_neg (mt (causes_alike h test).2 htest)]
  | .type _ | .enum _ | .const _ | .minimumZero | .minLength _ | .pattern _ | .required _
  | .patternProperties _ | .noAdditionalProperties => by
    rw [causesOf, causesOf]
    · exact causesOf_own_eq_nil_iff h
    all_goals simp

theorem causesAll_alike (h : v.Alike v') : ∀ schemas : List Schema,
    causesAll v location schemas = [] ↔ causesAll v' location schemas = []
  | [] => Iff.rfl
  | s :: rest => by
    rw [causesAll, causesAll, List.append_eq_nil_iff, List.append_eq_nil_iff,
      causes_alike h s, causesAll_alike h rest]

end

theorem subschema_causes_alike (h : v.Alike v') (s : Subschema) :
    s.causes v location = [] ↔ s.causes v' location = [] := by
  cases s with
  | inPlace schema => exact causes_alike h schema
  | ref target =>
    rw [Subschema.causes, Subschema.causes, ValidationError.gather_eq_nil_iff,
      ValidationError.gather_eq_nil_iff]
    exact causes_alike h target.schema

/-! ### Members in order -/

theorem Keyword.halt?_ordered (k : Keyword) (j : Json) : k.halt? j.ordered = k.halt? j := by
  cases j with
  | array items | object members =>
    cases k with
    | type wanted => cases wanted <;> rfl
    | _ => rfl
  | _ => rfl

theorem Keyword.own?_ordered_eq_none_iff (all : List Keyword) (k : Keyword) (j : Json) :
    k.own? all j.ordered = none ↔ k.own? all j = none := by
  cases j with
  | object members =>
    have hmember : ∀ name, (∃ k, member? name (Json.object members).ordered.membersOf = some k) ↔
        ∃ k, member? name members = some k := by
      intro name
      rw [Json.member?_ordered]
      simp [Json.membersOf]
    cases k with
    | required names =>
      show missing? names (Json.object members).ordered.membersOf = none ↔
        missing? names members = none
      rw [missing?_eq_none_iff, missing?_eq_none_iff]
      exact forall₂_congr fun name _ ↦ hmember name
    | noAdditionalProperties =>
      show additional? all (Json.object members).ordered.membersOf = none ↔
        additional? all members = none
      rw [additional?_eq_none_iff, additional?_eq_none_iff]
      -- the names are the same, however often and wherever they stand
      have hnames : ∀ members' : List (String × Json),
          (∀ m ∈ members', all.any (Keyword.covers m.1) = true) ↔
            ∀ name, (∃ k, member? name members' = some k) →
              all.any (Keyword.covers name) = true := by
        intro members'
        constructor
        · rintro h name ⟨k, hk⟩
          exact h _ (Json.mem_of_member? hk)
        · intro h m hm
          exact h m.1 (Json.hasMember_iff.1 (List.any_eq_true.2 ⟨m, hm, by simp⟩))
      rw [hnames, hnames]
      exact forall_congr' fun name ↦ imp_congr_left (hmember name)
    | _ => exact Iff.rfl
  | array items => cases k <;> exact Iff.rfl
  | _ => exact Iff.rfl

/-- A value and the value with its members in order are told apart by no schema. -/
theorem look_ordered_eq_nil_iff (j : Json) : ∀ s location,
    look j.ordered s location = [] ↔ look j s location = [] := by
  induction j using Json.childInduction with
  | step j ih =>
  intro s location
  rw [look_eq, look_eq]
  refine subschema_causes_alike ⟨fun k ↦ ?_, fun all k ↦ ?_, fun name s location ↦ ?_,
    fun s location ↦ ?_⟩ s
  · rw [show (View.of j.ordered).value = j.ordered from rfl, Keyword.halt?_ordered]
    rfl
  · exact Keyword.own?_ordered_eq_none_iff all k j
  · have hmember : member? name (View.of j.ordered).members =
        (member? name j.membersOf).map fun k ↦ look k.ordered := by
      rw [View.of, member?_lookMembers, Json.member?_ordered, Option.map_map]
      rfl
    have hmember' : member? name (View.of j).members = (member? name j.membersOf).map look :=
      member?_lookMembers _ _
    rw [hmember, hmember']
    cases hk : member? name j.membersOf with
    | none => simp
    | some k => simpa using ih k (.of_membersOf hk) s location
  · have hitems : (View.of j.ordered).items = j.itemsOf.map fun k ↦ look k.ordered := by
      rw [View.of, lookItems_eq_map, Json.itemsOf_ordered, List.map_map]
      rfl
    have hitems' : (View.of j).items = j.itemsOf.map look := lookItems_eq_map _
    rw [hitems, hitems', List.zipIdx_map, List.zipIdx_map, List.forall_mem_map,
      List.forall_mem_map]
    refine forall₂_congr fun p hp ↦ ?_
    exact ih p.1 (.of_itemsOf (List.fst_mem_of_mem_zipIdx hp)) s _

/-- **Normalising keeps** whether a document fails nothing. -/
theorem failures_normalize_eq_nil_iff {s : Subschema} {doc : Json} :
    failures s (normalize doc) location = [] ↔ failures s doc location = [] := by
  rcases normalize_cases doc with h | h
  · rw [h]
  · rw [h, failures_eq_nil_iff, failures_eq_nil_iff, look_ordered_eq_nil_iff]

end Questionnaire.Schema
