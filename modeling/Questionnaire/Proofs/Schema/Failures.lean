import Questionnaire.Proofs.Json.Ordered
import Questionnaire.Schema.Evaluate

/-!
# What a value fails by a schema

The errors of a value form trees. What they come down to are the errors at the ends of the causes
(`ValidationError.leaves`), each a place and a broken keyword: the failures of the value by the
schema (`failures`). How the errors are gathered on the way does not matter to them.

Schemas that are asked in place, by `allOf` and `ifThen`, dissolve in this: of a schema those
keywords are left that apply to the value (`applied`), and the failures of the value are what these
find, one after the other (`failures_inPlace`).
-/

namespace Questionnaire.Schema

open Json (member? hasMember)

/-! ### The ends of errors -/

/-- A keyword that is broken at some place. -/
structure Failure where
  location : List String
  kind : ErrorKind
  deriving DecidableEq

namespace ValidationError

mutual

/-- The failures at the ends of the causes of an error. -/
def leaves : ValidationError → List Failure
  | mk location kind [] => [⟨location, kind⟩]
  | mk _ _ (cause :: rest) => leavesAll (cause :: rest)

/-- The failures at the ends of the causes of some errors. -/
def leavesAll : List ValidationError → List Failure
  | [] => []
  | e :: rest => e.leaves ++ leavesAll rest

end

theorem leavesAll_eq_flatMap (l : List ValidationError) : leavesAll l = l.flatMap leaves := by
  induction l with
  | nil => rfl
  | cons e rest ih => rw [leavesAll, ih, List.flatMap_cons]

theorem leaves_of_causes (location : List String) (kind : ErrorKind)
    {causes : List ValidationError} (h : causes ≠ []) :
    leaves (mk location kind causes) = leavesAll causes := by
  cases causes with
  | nil => exact absurd rfl h
  | cons _ _ => rw [leaves]

theorem leavesAll_append (l l' : List ValidationError) :
    leavesAll (l ++ l') = leavesAll l ++ leavesAll l' := by
  simp only [leavesAll_eq_flatMap, List.flatMap_append]

theorem leavesAll_flatMap {α : Type} (l : List α) (f : α → List ValidationError) :
    leavesAll (l.flatMap f) = l.flatMap fun a ↦ leavesAll (f a) := by
  simp only [leavesAll_eq_flatMap, List.flatMap_assoc]

/-- Gathering errors keeps the failures at their ends. -/
theorem leavesAll_gather (location : List String) (kind : ErrorKind) (l : List ValidationError) :
    leavesAll (gather location kind l) = leavesAll l := by
  cases l with
  | nil => rfl
  | cons e rest => rw [gather, leavesAll, leaves, leavesAll, List.append_nil]

theorem gather_eq_nil_iff {location : List String} {kind : ErrorKind}
    {l : List ValidationError} : gather location kind l = [] ↔ l = [] := by
  cases l <;> simp [gather]

theorem leaves_ne_nil : ∀ e : ValidationError, e.leaves ≠ []
  | mk _ _ [] => by simp [leaves]
  | mk _ _ (cause :: _) => by
    rw [leaves, leavesAll]
    exact fun h ↦ leaves_ne_nil cause (List.append_eq_nil_iff.1 h).1

theorem leavesAll_eq_nil_iff {l : List ValidationError} : leavesAll l = [] ↔ l = [] := by
  cases l with
  | nil => simp [leavesAll]
  | cons e rest =>
    rw [leavesAll, List.append_eq_nil_iff]
    exact iff_of_false (fun h ↦ e.leaves_ne_nil h.1) (List.cons_ne_nil _ _)

end ValidationError

open ValidationError

/-! ### Values -/

/-- A value with the ways to look at its own parts. -/
def View.of (j : Json) : View :=
  { value := j, members := lookMembers j.membersOf, items := lookItems j.itemsOf }

theorem look_eq (j : Json) (s : Subschema) (location : List String) :
    look j s location = s.causes (.of j) location := by
  cases j <;> rfl

theorem lookItems_eq_map (items : List Json) : lookItems items = items.map look := by
  induction items with
  | nil => rfl
  | cons j rest ih => rw [lookItems, ih, List.map_cons]

theorem lookMembers_eq_map (members : List (String × Json)) :
    lookMembers members = members.map fun m ↦ (m.1, look m.2) := by
  induction members with
  | nil => rfl
  | cons m rest ih => rw [lookMembers, ih, List.map_cons, lookMember]

theorem member?_lookMembers (name : String) (members : List (String × Json)) :
    member? name (lookMembers members) = (member? name members).map look := by
  rw [lookMembers_eq_map, Json.member?_map]

/-- What a value at a place fails by a schema. -/
def failures (s : Subschema) (j : Json) (location : List String) : List Failure :=
  leavesAll (look j s location)

theorem failures_inPlace_eq (s : Schema) (j : Json) (location : List String) :
    failures (.inPlace s) j location = leavesAll (causes (.of j) location s) := by
  rw [failures, look_eq, Subschema.causes]

/-- A reference asks what its schema asks. -/
theorem failures_ref (target : Reference) (j : Json) (location : List String) :
    failures (.ref target) j location = failures (.inPlace target.schema) j location := by
  rw [failures_inPlace_eq, failures, look_eq, Subschema.causes, leavesAll_gather]

/-! ### Keywords -/

/-- A keyword that applies to a value, with the keywords that it stands among. -/
structure Applied where
  among : List Keyword
  keyword : Keyword

/-- How a value itself breaks a keyword that applies to it. -/
def Applied.broken? (a : Applied) (j : Json) : Option ErrorKind :=
  (a.keyword.halt? j).or (a.keyword.own? a.among j)

/-- What a value fails by a keyword that applies to it. -/
def Applied.failures (j : Json) (location : List String) (a : Applied) : List Failure :=
  match a.keyword with
  | .properties schemas =>
    schemas.flatMap fun p ↦
      ((member? p.1 j.membersOf).map fun k ↦ Schema.failures p.2 k (location ++ [p.1])).getD []
  | .items schema =>
    j.itemsOf.zipIdx.flatMap fun p ↦ Schema.failures schema p.1 (location ++ [toString p.2])
  | _ => ((a.broken? j).map (Failure.mk location)).toList

mutual

/-- The keywords of a schema that apply to a value. One that ends the evaluation stands alone. -/
def applied (j : Json) (location : List String) : Schema → List Applied
  | .mk keywords =>
    match keywords.find? fun k ↦ (k.halt? j).isSome with
    | some k => [⟨keywords, k⟩]
    | none => appliedEach j location keywords keywords

/-- The keywords that apply to a value by some that stand among others. -/
def appliedEach (j : Json) (location : List String) (all : List Keyword) :
    List Keyword → List Applied
  | [] => []
  | k :: rest => appliedOf j location all k ++ appliedEach j location all rest

/-- The keywords that apply to a value by one that stands among others. -/
def appliedOf (j : Json) (location : List String) (all : List Keyword) : Keyword → List Applied
  | .allOf schemas => appliedAll j location schemas
  | .ifThen test consequence =>
    if failures (.inPlace test) j location = [] then applied j location consequence else []
  | k => [⟨all, k⟩]

/-- The keywords of some schemas that apply to a value. -/
def appliedAll (j : Json) (location : List String) : List Schema → List Applied
  | [] => []
  | s :: rest => applied j location s ++ appliedAll j location rest

end

theorem findSome?_eq_bind_find? {α β : Type} (f : α → Option β) (l : List α) :
    l.findSome? f = (l.find? fun a ↦ (f a).isSome).bind f := by
  induction l with
  | nil => rfl
  | cons a rest ih =>
    rw [List.findSome?_cons, List.find?_cons]
    cases h : f a with
    | none => simpa using ih
    | some b => simp [h]

/-- A keyword that ends the evaluation gives the one failure that is found. -/
theorem Applied.failures_of_halt {j : Json} {location : List String} {a : Applied}
    {kind : ErrorKind} (h : a.keyword.halt? j = some kind) :
    a.failures j location = [⟨location, kind⟩] := by
  obtain ⟨among, keyword⟩ := a
  have hbroken : Applied.broken? ⟨among, keyword⟩ j = some kind := by
    rw [Applied.broken?, h, Option.some_or]
  cases keyword with
  | type | enum | const => rw [Applied.failures, hbroken]; rfl
  | _ => simp [Keyword.halt?] at h

/-- What a keyword finds that only looks at the value itself. -/
theorem leavesAll_own {j : Json} {location : List String} {all : List Keyword} {k : Keyword}
    (h : k.halt? j = none) :
    leavesAll ((k.own? all j).map (.leaf location)).toList =
      ((Applied.broken? ⟨all, k⟩ j).map (Failure.mk location)).toList := by
  rw [Applied.broken?, h, Option.none_or]
  cases k.own? all j <;> rfl

mutual

theorem leavesAll_causes (j : Json) (location : List String) : ∀ s : Schema,
    leavesAll (causes (.of j) location s) =
      (applied j location s).flatMap (Applied.failures j location)
  | .mk keywords => by
    rw [causes, applied, findSome?_eq_bind_find?]
    have hvalue : (View.of j).value = j := rfl
    rw [hvalue]
    cases hfind : keywords.find? fun k ↦ (k.halt? j).isSome with
    | none =>
      refine leavesAll_causesEach j location keywords keywords fun k hk ↦ ?_
      simpa using List.find?_eq_none.1 hfind k hk
    | some k =>
      have hhalt : (k.halt? j).isSome := by simpa using List.find?_some hfind
      obtain ⟨kind, hkind⟩ := Option.isSome_iff_exists.1 hhalt
      have hfailures : Applied.failures j location ⟨keywords, k⟩ = [⟨location, kind⟩] :=
        Applied.failures_of_halt hkind
      rw [Option.bind_some, hkind, List.flatMap_singleton, hfailures]
      rfl

theorem leavesAll_causesEach (j : Json) (location : List String) (all : List Keyword) :
    ∀ keywords : List Keyword, (∀ k ∈ keywords, k.halt? j = none) →
    leavesAll (causesEach (.of j) location all keywords) =
      (appliedEach j location all keywords).flatMap (Applied.failures j location)
  | [], _ => rfl
  | k :: rest, h => by
    obtain ⟨hk, hrest⟩ := List.forall_mem_cons.1 h
    rw [causesEach, appliedEach, leavesAll_append, List.flatMap_append,
      leavesAll_causesOf j location all k hk, leavesAll_causesEach j location all rest hrest]

theorem leavesAll_causesOf (j : Json) (location : List String) (all : List Keyword) :
    ∀ k : Keyword, k.halt? j = none →
    leavesAll (causesOf (.of j) location all k) =
      (appliedOf j location all k).flatMap (Applied.failures j location)
  | .properties schemas, _ => by
    rw [causesOf, appliedOf, List.flatMap_singleton, leavesAll_flatMap]
    · refine List.flatMap_congr ?_
      rintro ⟨name, schema⟩ -
      have hmember : member? name (View.of j).members = (member? name j.membersOf).map look :=
        member?_lookMembers _ _
      simp only [hmember]
      cases member? name j.membersOf <;> rfl
    all_goals simp
  | .items schema, _ => by
    rw [causesOf, appliedOf, List.flatMap_singleton, leavesAll_flatMap]
    · have hitems : (View.of j).items = j.itemsOf.map look := lookItems_eq_map _
      rw [hitems, List.zipIdx_map, List.flatMap_map]
      rfl
    all_goals simp
  | .allOf schemas, _ => by
    rw [causesOf, appliedOf, leavesAll_gather, leavesAll_causesAll j location schemas]
  | .ifThen test consequence, _ => by
    rw [causesOf, appliedOf, failures_inPlace_eq]
    simp only [leavesAll_eq_nil_iff, List.isEmpty_iff]
    split
    · exact leavesAll_causes j location consequence
    · rfl
  | .type _, h | .enum _, h | .const _, h | .minimumZero, h | .minLength _, h | .pattern _, h
  | .required _, h | .patternProperties _, h | .noAdditionalProperties, h => by
    rw [causesOf, appliedOf, List.flatMap_singleton]
    · exact leavesAll_own h
    all_goals simp

theorem leavesAll_causesAll (j : Json) (location : List String) : ∀ schemas : List Schema,
    leavesAll (causesAll (.of j) location schemas) =
      (appliedAll j location schemas).flatMap (Applied.failures j location)
  | [] => rfl
  | s :: rest => by
    rw [causesAll, appliedAll, leavesAll_append, List.flatMap_append,
      leavesAll_causes j location s, leavesAll_causesAll j location rest]

end

/-- **What a value fails** by a schema is what the keywords find that apply to it. -/
theorem failures_inPlace (s : Schema) (j : Json) (location : List String) :
    failures (.inPlace s) j location =
      (applied j location s).flatMap (Applied.failures j location) := by
  rw [failures_inPlace_eq, leavesAll_causes]

end Questionnaire.Schema
