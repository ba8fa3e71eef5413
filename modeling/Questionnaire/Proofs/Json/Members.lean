import Mathlib.Data.List.Nodup
import Mathlib.Logic.Relation
import Questionnaire.Json.Fields

/-!
# Members and parts of JSON values

Of the members of an object that have the same name, the last one counts. `Json.member?` finds it,
and the parts of a value (`Json.PartOf`) are what is found by such members and by the items of
arrays, at any depth.

Records are read from an object by names whose case does not matter. `Json.matching?` finds the last
member that has a name in this looser sense. The two agree where every member with a name in some
case has it exactly (`matching?_eq_member?`), and only the second one sees the members of the object
as they are written.
-/

namespace Questionnaire.Json

/-! ### The last member with a name -/

section

variable {α : Type} {name : String} {members : List (String × α)} {j : α}

theorem member?_cons (m : String × α) (rest : List (String × α)) :
    member? name (m :: rest) = (member? name rest).or (if m.1 = name then some m.2 else none) := by
  rw [member?]
  cases member? name rest <;> rfl

theorem mem_of_member? (h : member? name members = some j) : (name, j) ∈ members := by
  induction members with
  | nil => exact absurd h (by simp [member?])
  | cons m rest ih =>
    rw [member?_cons, Option.or_eq_some_iff] at h
    rcases h with h | ⟨-, h⟩
    · exact List.mem_cons_of_mem _ (ih h)
    · obtain ⟨rfl, hj⟩ := Option.ite_none_right_eq_some.1 h
      rw [← Option.some.inj hj]
      exact List.mem_cons_self

theorem member?_eq_none_iff : member? name members = none ↔ ∀ m ∈ members, m.1 ≠ name := by
  induction members with
  | nil => simp [member?]
  | cons m rest ih =>
    rw [member?_cons, Option.or_eq_none_iff, ih, List.forall_mem_cons, and_comm]
    simp

theorem hasMember_iff : hasMember name members ↔ ∃ j, member? name members = some j := by
  rw [← Option.isSome_iff_exists, Option.isSome_iff_ne_none, ne_eq, member?_eq_none_iff, hasMember,
    List.any_eq_true]
  simp

/-- Where no name is repeated, every member is the last one with its name. -/
theorem member?_of_mem (hnodup : (members.map Prod.fst).Nodup) (h : (name, j) ∈ members) :
    member? name members = some j := by
  induction members with
  | nil => exact absurd h List.not_mem_nil
  | cons m rest ih =>
    rw [List.map_cons, List.nodup_cons] at hnodup
    rw [member?_cons]
    rcases List.mem_cons.1 h with rfl | h
    · have hlater : member? name rest = none :=
        member?_eq_none_iff.2 fun m hm hname ↦ hnodup.1 (List.mem_map.2 ⟨m, hm, hname⟩)
      rw [hlater, if_pos rfl]
      rfl
    · rw [ih hnodup.2 h]
      rfl

end

variable {name : String} {members : List (String × Json)} {j k : Json}

/-! ### The last member that matches a name -/

/-- The value of the last member with a name, whatever the case of either. -/
def matching? (name : String) : List (String × Json) → Option Json
  | [] => none
  | (n, value) :: rest =>
    match matching? name rest with
    | some later => some later
    | none => if foldName n = foldName name then some value else none

theorem matching?_cons (m : String × Json) (rest : List (String × Json)) :
    matching? name (m :: rest) =
      (matching? name rest).or (if foldName m.1 = foldName name then some m.2 else none) := by
  rw [matching?]
  cases matching? name rest <;> rfl

/-- Members that have a name exactly as soon as they have it in some case are found either way. -/
theorem matching?_eq_member?
    (h : ∀ m ∈ members, foldName m.1 = foldName name → m.1 = name) :
    matching? name members = member? name members := by
  induction members with
  | nil => rfl
  | cons m rest ih =>
    obtain ⟨hm, hrest⟩ := List.forall_mem_cons.1 h
    have hiff : foldName m.1 = foldName name ↔ m.1 = name := ⟨hm, fun heq ↦ by rw [heq]⟩
    rw [matching?_cons, member?_cons, ih hrest]
    simp only [hiff]

/-- Under some names the members of an object are found whether case counts or not. -/
def NamesExact (names : List String) (members : List (String × Json)) : Prop :=
  ∀ name ∈ names, matching? name members = member? name members

/-- Members that have no names but some, which differ in more than case, are found under these. -/
theorem namesExact_of_forall_mem {names : List String} (hnames : (names.map foldName).Nodup)
    (h : ∀ m ∈ members, m.1 ∈ names) : NamesExact names members :=
  fun _ hname ↦ matching?_eq_member? fun m hm hfold ↦
    List.inj_on_of_nodup_map hnames (h m hm) hname hfold

/-- Members in whatever order are found by their names, when these differ in more than case. -/
theorem matching?_of_perm {parts : List (String × Json)} (hperm : members.Perm parts)
    (hnames : ((parts.map Prod.fst).map foldName).Nodup) (hmem : (name, j) ∈ parts) :
    matching? name members = some j := by
  have hnodup : (members.map Prod.fst).Nodup := (hperm.map Prod.fst).nodup_iff.2 hnames.of_map
  have honly : ∀ m ∈ members, m.1 ∈ parts.map Prod.fst := fun m hm ↦
    List.mem_map_of_mem (hperm.mem_iff.1 hm)
  rw [namesExact_of_forall_mem hnames honly name (List.mem_map_of_mem hmem)]
  exact member?_of_mem hnodup (hperm.mem_iff.2 hmem)

theorem matching?_eq_none (h : ∀ m ∈ members, foldName m.1 ≠ foldName name) :
    matching? name members = none := by
  induction members with
  | nil => rfl
  | cons m rest ih =>
    obtain ⟨hm, hrest⟩ := List.forall_mem_cons.1 h
    rw [matching?_cons, ih hrest, if_neg hm]
    rfl

/-! ### Parts -/

/-- The value `k` is an item of an array, or what the last member with some name of an object is. -/
inductive ChildOf : Json → Json → Prop
  | item {items : List Json} {k : Json} (h : k ∈ items) : ChildOf k (.array items)
  | member {members : List (String × Json)} {name : String} {k : Json}
      (h : member? name members = some k) : ChildOf k (.object members)

/-- The value `k` is a part of `j` at any depth, or `j` itself. -/
def PartOf (k j : Json) : Prop :=
  Relation.ReflTransGen ChildOf k j

theorem PartOf.refl (j : Json) : PartOf j j :=
  Relation.ReflTransGen.refl

theorem PartOf.of_childOf (h : ChildOf k j) : PartOf k j :=
  Relation.ReflTransGen.single h

theorem PartOf.trans {i : Json} (h : PartOf i j) (h' : PartOf j k) : PartOf i k :=
  Relation.ReflTransGen.trans h h'

theorem sizeOf_lt_of_childOf (h : ChildOf k j) : sizeOf k < sizeOf j := by
  cases h with
  | item h =>
    have hitem := List.sizeOf_lt_of_mem h
    simp only [Json.array.sizeOf_spec]
    omega
  | member h =>
    have hmember := List.sizeOf_lt_of_mem (mem_of_member? h)
    simp only [Prod.mk.sizeOf_spec] at hmember
    simp only [Json.object.sizeOf_spec]
    omega

/-- Induction over a value by what is directly in it. -/
@[elab_as_elim]
theorem childInduction {motive : Json → Prop}
    (step : ∀ j, (∀ k, ChildOf k j → motive k) → motive j) (j : Json) : motive j :=
  step j fun k hk ↦
    have := sizeOf_lt_of_childOf hk
    childInduction step k
termination_by sizeOf j

mutual

/-- A value and all that is written in it, at any depth. -/
def parts : Json → List Json
  | .array items => .array items :: itemParts items
  | .object members => .object members :: memberParts members
  | j => [j]

/-- What is written in items. -/
def itemParts : List Json → List Json
  | [] => []
  | j :: rest => j.parts ++ itemParts rest

/-- What is written in members. -/
def memberParts : List (String × Json) → List Json
  | [] => []
  | m :: rest => valueParts m ++ memberParts rest

/-- What is written in a member. -/
def valueParts : String × Json → List Json
  | (_, j) => j.parts

end

theorem mem_itemParts {items : List Json} (hj : j ∈ items) (hk : k ∈ j.parts) :
    k ∈ itemParts items := by
  induction items with
  | nil => exact absurd hj List.not_mem_nil
  | cons i rest ih =>
    rw [itemParts, List.mem_append]
    rcases List.mem_cons.1 hj with rfl | hj
    · exact Or.inl hk
    · exact Or.inr (ih hj)

theorem mem_memberParts (hj : (name, j) ∈ members) (hk : k ∈ j.parts) :
    k ∈ memberParts members := by
  induction members with
  | nil => exact absurd hj List.not_mem_nil
  | cons m rest ih =>
    rw [memberParts, List.mem_append]
    rcases List.mem_cons.1 hj with rfl | hj
    · exact Or.inl (by rwa [valueParts])
    · exact Or.inr (ih hj)

/-- **Parts are written** in the value they are parts of. -/
theorem mem_parts_of_partOf (h : PartOf k j) : k ∈ j.parts := by
  induction h with
  | refl => cases k <;> simp [parts]
  | tail _ hchild ih =>
    cases hchild with
    | item h =>
      rw [parts]
      exact List.mem_cons_of_mem _ (mem_itemParts h ih)
    | member h =>
      rw [parts]
      exact List.mem_cons_of_mem _ (mem_memberParts (mem_of_member? h) ih)

/-- The numbers written in a value. -/
def numerals (j : Json) : List Numeral :=
  j.parts.filterMap fun
    | .number n => some n
    | _ => none

theorem mem_numerals_of_partOf {n : Numeral} (h : PartOf (.number n) j) : n ∈ j.numerals :=
  List.mem_filterMap.2 ⟨_, mem_parts_of_partOf h, rfl⟩

/-- The objects written in a value. -/
def objects (j : Json) : List (List (String × Json)) :=
  j.parts.filterMap fun
    | .object members => some members
    | _ => none

theorem mem_objects_of_partOf (h : PartOf (.object members) j) : members ∈ j.objects :=
  List.mem_filterMap.2 ⟨_, mem_parts_of_partOf h, rfl⟩

end Questionnaire.Json
