import Questionnaire.Proofs.Schema.Failures
import Questionnaire.Proofs.Schema.Grammar

/-!
# What keywords ask for

A value fails nothing by a schema exactly when every keyword holds of it
(`failures_mk_eq_nil_iff`). For each keyword, what this asks is said in terms of the value: its type
and text, its members, its items, and what these fail by their own schemas.
-/

namespace Questionnaire.Schema

open Json (member? hasMember)
open ValidationError

variable {integer : Json.Numeral → Prop} {all keywords : List Keyword} {location : List String}
  {j : Json} {members : List (String × Json)}

/-- A value is what a keyword among others asks for. -/
def Keyword.Holds (all : List Keyword) (j : Json) (location : List String) (k : Keyword) : Prop :=
  k.halt? j = none ∧ causesOf (.of j) location all k = []

theorem causesEach_eq_nil_iff {v : View} :
    causesEach v location all keywords = [] ↔ ∀ k ∈ keywords, causesOf v location all k = [] := by
  induction keywords with
  | nil => simp [causesEach]
  | cons k rest ih => rw [causesEach, List.append_eq_nil_iff, ih, List.forall_mem_cons]

theorem causesAll_eq_nil_iff {v : View} {schemas : List Schema} :
    causesAll v location schemas = [] ↔ ∀ s ∈ schemas, causes v location s = [] := by
  induction schemas with
  | nil => simp [causesAll]
  | cons s rest ih => rw [causesAll, List.append_eq_nil_iff, ih, List.forall_mem_cons]

theorem causes_mk_eq_nil_iff {v : View} :
    causes v location (.mk keywords) = [] ↔
      ∀ k ∈ keywords, k.halt? v.value = none ∧ causesOf v location keywords k = [] := by
  rw [causes]
  cases hhalt : keywords.findSome? (Keyword.halt? v.value) with
  | none =>
    rw [causesEach_eq_nil_iff]
    exact forall₂_congr fun k hk ↦ (and_iff_right (List.findSome?_eq_none_iff.1 hhalt k hk)).symm
  | some kind =>
    obtain ⟨k, hk, hkind⟩ := List.exists_of_findSome?_eq_some hhalt
    exact iff_of_false (List.cons_ne_nil _ _) fun h ↦ by simp [(h k hk).1] at hkind

theorem failures_eq_nil_iff {s : Subschema} : failures s j location = [] ↔ look j s location = [] :=
  leavesAll_eq_nil_iff

/-- **A value fails nothing** by a schema when every keyword holds of it. -/
theorem failures_mk_eq_nil_iff :
    failures (.inPlace (.mk keywords)) j location = [] ↔
      ∀ k ∈ keywords, k.Holds keywords j location := by
  rw [failures_inPlace_eq, leavesAll_eq_nil_iff, causes_mk_eq_nil_iff]
  rfl

/-! ### Keywords on the value itself -/

theorem Keyword.holds_type_iff {t : TypeName} :
    Keyword.Holds all j location (.type t) ↔ t.admits j = true := by
  simp [Keyword.Holds, Keyword.halt?, causesOf, Keyword.own?]

theorem Keyword.holds_enum_iff {words : List String} :
    Keyword.Holds all j location (.enum words) ↔ ∃ s ∈ words, j = .string s := by
  cases j <;> simp [Keyword.Holds, Keyword.halt?, causesOf, Keyword.own?]

theorem Keyword.holds_const_iff {word : String} :
    Keyword.Holds all j location (.const word) ↔ j = .string word := by
  cases j <;> simp [Keyword.Holds, Keyword.halt?, causesOf, Keyword.own?]

theorem Keyword.holds_minimumZero_iff {n : Json.Numeral} :
    Keyword.Holds all (.number n) location .minimumZero ↔ 0 ≤ n.value := by
  have hnegative := Json.Numeral.isNegative_iff (n := n)
  simp [Keyword.Holds, Keyword.halt?, causesOf, View.of, Keyword.own?, hnegative]

theorem Keyword.holds_minLength_iff {s : String} {least : Nat} :
    Keyword.Holds all (.string s) location (.minLength least) ↔ least ≤ s.length := by
  simp [Keyword.Holds, Keyword.halt?, causesOf, View.of, Keyword.own?]

theorem Keyword.holds_pattern_iff {s : String} {p : Pattern} :
    Keyword.Holds all (.string s) location (.pattern p) ↔ p.admits s = true := by
  simp [Keyword.Holds, Keyword.halt?, causesOf, View.of, Keyword.own?]

/-! ### Keywords on members and items -/

theorem missing?_eq_none_iff {names : List String} :
    missing? names members = none ↔ ∀ name ∈ names, ∃ k, member? name members = some k := by
  have hfilter : (names.filter fun n ↦ !hasMember n members) = [] ↔
      ∀ name ∈ names, ∃ k, member? name members = some k := by
    simp [List.filter_eq_nil_iff, Json.hasMember_iff]
  rw [← hfilter, missing?]
  split
  · next h => exact iff_of_true rfl h
  · next h => exact iff_of_false (by simp) h

theorem additional?_eq_none_iff :
    additional? keywords members = none ↔
      ∀ m ∈ members, keywords.any (Keyword.covers m.1) = true := by
  have hfilter : (((Json.lastMembers members).map Prod.fst).filter fun n ↦
      !keywords.any (Keyword.covers n)) = [] ↔
        ∀ m ∈ members, keywords.any (Keyword.covers m.1) = true := by
    refine Iff.trans ?_
      (Json.forall_mem_lastMembers_iff (P := fun n ↦ keywords.any (Keyword.covers n) = true))
    simp [List.filter_eq_nil_iff]
  rw [← hfilter, additional?]
  split
  · next h => exact iff_of_true rfl h
  · next h => exact iff_of_false (by simp) h

theorem Keyword.holds_required_iff {names : List String} :
    Keyword.Holds all (.object members) location (.required names) ↔
      ∀ name ∈ names, ∃ k, member? name members = some k := by
  rw [← missing?_eq_none_iff]
  simp [Keyword.Holds, Keyword.halt?, causesOf, View.of, Keyword.own?]

theorem Keyword.holds_noAdditionalProperties_iff :
    Keyword.Holds all (.object members) location .noAdditionalProperties ↔
      ∀ m ∈ members, all.any (Keyword.covers m.1) = true := by
  rw [← additional?_eq_none_iff]
  simp [Keyword.Holds, Keyword.halt?, causesOf, View.of, Keyword.own?]

theorem Keyword.holds_patternProperties {p : Pattern} :
    Keyword.Holds all j location (.patternProperties p) := by
  simp [Keyword.Holds, Keyword.halt?, causesOf, Keyword.own?]

theorem causesOf_properties_eq_nil_iff {v : View} {schemas : List (String × Subschema)} :
    causesOf v location all (.properties schemas) = [] ↔
      ∀ p ∈ schemas, ∀ look ∈ member? p.1 v.members, look p.2 (location ++ [p.1]) = [] := by
  rw [causesOf, List.flatMap_eq_nil_iff]
  refine forall₂_congr ?_
  rintro ⟨name, s⟩ -
  cases hmember : member? name v.members <;> simp [hmember]

theorem Keyword.holds_properties_iff {schemas : List (String × Subschema)} :
    Keyword.Holds all (.object members) location (.properties schemas) ↔
      ∀ p ∈ schemas, ∀ k, member? p.1 members = some k →
        failures p.2 k (location ++ [p.1]) = [] := by
  simp only [Keyword.Holds, Keyword.halt?, true_and, causesOf_properties_eq_nil_iff,
    failures_eq_nil_iff]
  refine forall₂_congr fun p _ ↦ ?_
  rw [View.of, member?_lookMembers]
  simp [Json.membersOf]

theorem Keyword.holds_items_iff {items : List Json} {schema : Subschema} :
    Keyword.Holds all (.array items) location (.items schema) ↔
      ∀ p ∈ items.zipIdx, failures schema p.1 (location ++ [toString p.2]) = [] := by
  have hitems : (View.of (.array items)).items = items.map look := lookItems_eq_map _
  simp only [Keyword.Holds, Keyword.halt?, causesOf, true_and, hitems, List.zipIdx_map,
    List.flatMap_map, List.flatMap_eq_nil_iff, failures_eq_nil_iff]
  rfl

/-! ### Keywords that ask in place -/

theorem Keyword.holds_allOf_iff {schemas : List Schema} :
    Keyword.Holds all j location (.allOf schemas) ↔
      ∀ s ∈ schemas, failures (.inPlace s) j location = [] := by
  simp only [failures_inPlace_eq, leavesAll_eq_nil_iff]
  rw [← causesAll_eq_nil_iff, Keyword.Holds, causesOf, gather_eq_nil_iff]
  exact and_iff_right rfl

theorem Keyword.holds_ifThen_iff {test consequence : Schema} :
    Keyword.Holds all j location (.ifThen test consequence) ↔
      (failures (.inPlace test) j location = [] →
        failures (.inPlace consequence) j location = []) := by
  simp only [failures_inPlace_eq, leavesAll_eq_nil_iff]
  simp [Keyword.Holds, Keyword.halt?, causesOf]

/-! ### Members by their schemas -/

/-- The object has a member with a name, and the member fails nothing by a schema. -/
def Obeys (location : List String) (members : List (String × Json)) (name : String)
    (s : Subschema) : Prop :=
  ∃ k, member? name members = some k ∧ failures s k (location ++ [name]) = []

/-- What is required has to be there and to be what its schema asks for. -/
theorem obeys_iff_holds {schemas : List (String × Subschema)} :
    (∀ p ∈ schemas, Obeys location members p.1 p.2) ↔
      Keyword.Holds all (.object members) location (.required (schemas.map Prod.fst)) ∧
        Keyword.Holds all (.object members) location (.properties schemas) := by
  rw [Keyword.holds_required_iff, Keyword.holds_properties_iff, List.forall_mem_map,
    ← forall₂_and]
  refine forall₂_congr fun p _ ↦ ?_
  constructor
  · rintro ⟨k, hk, hfailures⟩
    refine ⟨⟨k, hk⟩, fun k' hk' ↦ ?_⟩
    rwa [Option.some.inj (hk'.symm.trans hk)]
  · rintro ⟨⟨k, hk⟩, h⟩
    exact ⟨k, hk, h k hk⟩

/-- The test for a member that is some word. -/
theorem failures_memberIs_eq_nil_iff {name word : String} :
    failures (.inPlace (memberIs name word)) (.object members) location = [] ↔
      member? name members = some (.string word) := by
  have hobeys : failures (.inPlace (memberIs name word)) (.object members) location = [] ↔
      ∀ p ∈ [(name, Subschema.inPlace (.mk [.const word]))], Obeys location members p.1 p.2 := by
    rw [memberIs, failures_mk_eq_nil_iff, obeys_iff_holds, List.forall_mem_cons,
      List.forall_mem_singleton]
    rfl
  rw [hobeys, List.forall_mem_singleton, Obeys]
  simp [failures_mk_eq_nil_iff, Keyword.holds_const_iff]

/-- What is asked where a member is some word. -/
theorem failures_whereMember_eq_nil_iff {name word : String} {asked : List Keyword} :
    failures (.inPlace (whereMember name word asked)) (.object members) location = [] ↔
      (member? name members = some (.string word) →
        failures (.inPlace (.mk asked)) (.object members) location = []) := by
  rw [whereMember, failures_mk_eq_nil_iff, List.forall_mem_singleton, Keyword.holds_ifThen_iff,
    failures_memberIs_eq_nil_iff]

end Questionnaire.Schema
