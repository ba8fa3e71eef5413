import Questionnaire.Proofs.Schema.Acceptance
import Questionnaire.Proofs.Schema.Sites

/-!
# The layout of the schemas of forms

In all that the schemas of forms ask of one object they ask for different members, and by one
keyword at most for no others. Which keywords apply to an object depends on its kind, and for a
literal on its type. Of what is asked for different kinds one part applies at most
(`exists_appliedAll_eq`), so there are few lists of keywords to look at, and that each is laid out
is a matter of computation (`Keyword.isApart`, `Keyword.isLettered`). So the schemas are laid out
for every value (`laid_used`).
-/

namespace Questionnaire.Schema

open Json (member?)

/-! ### Keywords on objects -/

/-- Keywords by which nothing is wrong with an object itself. -/
def Keyword.isSilent : Keyword → Bool
  | .properties _ => true
  | .patternProperties _ => true
  | .type .object => true
  | _ => false

/-- Two keywords that look at different members of an object, and say different things of it. -/
def Keyword.isApart : Keyword → Keyword → Bool
  | .properties schemas, .properties schemas' =>
    (schemas.map Prod.fst).all fun n ↦ !(schemas'.map Prod.fst).contains n
  | .required names, .required names' => names.all fun n ↦ !names'.contains n
  | .required _, .noAdditionalProperties => true
  | .noAdditionalProperties, .required _ => true
  | k, k' => k.isSilent || k'.isSilent

variable {members : List (String × Json)} {location : List String} {P : Subschema → Prop} {j : Json}

theorem disjoint_of_all {names names' : List String}
    (h : (names.all fun n ↦ !names'.contains n) = true) : names.Disjoint names' := by
  intro n hn hn'
  simpa [hn'] using List.all_eq_true.1 h n hn

theorem Applied.broken?_of_isSilent {a : Applied} (h : a.keyword.isSilent = true) :
    a.broken? (.object members) = none := by
  obtain ⟨among, k⟩ := a
  simp only at h
  unfold Keyword.isSilent at h
  split at h
  · rfl
  · rfl
  · rfl
  · exact absurd h (by simp)

theorem Applied.apart_of_isApart {a a' : Applied} (h : a.keyword.isApart a'.keyword = true) :
    a.Apart (.object members) a' := by
  refine ⟨fun schemas schemas' hk hk' ↦ ?_, fun s s' hk hk' ↦ ?_, fun kind kind' hb hb' ↦ ?_⟩
  · rw [hk, hk'] at h
    exact disjoint_of_all h
  · rw [hk, hk'] at h
    exact absurd h (by simp [Keyword.isApart, Keyword.isSilent])
  · obtain ⟨among, k⟩ := a
    obtain ⟨among', k'⟩ := a'
    simp only at h
    unfold Keyword.isApart at h
    split at h
    · exact absurd (hb.symm.trans (Applied.broken?_of_isSilent (by rfl))) (by simp)
    · obtain ⟨names, rfl, -, hsubset⟩ := missing?_eq_some hb
      obtain ⟨names', rfl, -, hsubset'⟩ := missing?_eq_some hb'
      exact fun n hn hn' ↦ disjoint_of_all h (hsubset hn) (hsubset' hn')
    · obtain ⟨names, rfl, -⟩ := missing?_eq_some hb
      obtain ⟨names', rfl⟩ := additional?_eq_some hb'
      trivial
    · obtain ⟨names, rfl⟩ := additional?_eq_some hb
      obtain ⟨names', rfl, -⟩ := missing?_eq_some hb'
      trivial
    · rcases Bool.or_eq_true_iff.1 h with h | h
      · exact absurd (hb.symm.trans (Applied.broken?_of_isSilent h)) (by simp)
      · exact absurd (hb'.symm.trans (Applied.broken?_of_isSilent h)) (by simp)

/-- Whether the members that a keyword names are named by letters, each once. -/
def Keyword.isLettered : Keyword → Bool
  | .required names => names.all fun n ↦ n.toList.all Char.isAlpha
  | .properties schemas =>
    decide (schemas.map Prod.fst).Nodup && schemas.all fun p ↦ p.1.toList.all Char.isAlpha
  | _ => true

/-- The schemas of members and items in a keyword. -/
def Keyword.subschemas : Keyword → List Subschema
  | .properties schemas => schemas.map Prod.snd
  | .items s => [s]
  | _ => []

theorem Keyword.plain_of_isLettered {k : Keyword} (h : k.isLettered = true)
    (hP : ∀ s ∈ k.subschemas, P s) : k.Plain P := by
  cases k with
  | required names =>
    intro n hn
    exact List.all_eq_true.1 (List.all_eq_true.1 h n hn)
  | properties schemas =>
    obtain ⟨hnodup, hletters⟩ := Bool.and_eq_true_iff.1 h
    refine ⟨of_decide_eq_true hnodup, fun p hp ↦ ⟨?_, hP _ (List.mem_map_of_mem hp)⟩⟩
    exact List.all_eq_true.1 (List.all_eq_true.1 hletters p hp)
  | items s => exact hP s List.mem_cons_self
  | _ => trivial

/-- Keywords that are laid out on any object. -/
structure ObjectLaid (P : Subschema → Prop) (keywords : List Keyword) : Prop where
  lettered : ∀ k ∈ keywords, k.isLettered = true
  apart : keywords.Pairwise fun k k' ↦ k.isApart k' = true
  schemas : ∀ k ∈ keywords, ∀ s ∈ k.subschemas, P s

theorem laid_of_objectLaid {l : List Applied} (h : ObjectLaid P (l.map Applied.keyword)) :
    Laid P (.object members) l where
  plain a ha :=
    have hkeyword : a.keyword ∈ l.map Applied.keyword := List.mem_map_of_mem ha
    Keyword.plain_of_isLettered (h.lettered _ hkeyword) (h.schemas _ hkeyword)
  apart := (List.pairwise_map.1 h.apart).imp Applied.apart_of_isApart

/-! ### Keywords that apply -/

theorem applied_of_halt_none {keywords : List Keyword} (h : ∀ k ∈ keywords, k.halt? j = none) :
    applied j location (.mk keywords) = appliedEach j location keywords keywords := by
  have hfind : (keywords.find? fun k ↦ (k.halt? j).isSome) = none :=
    List.find?_eq_none.2 fun k hk ↦ by simp [h k hk]
  rw [applied, hfind]

/-- What is asked where a member is some word applies if it is this word. -/
theorem applied_whereMember {name word : String} {asked : List Keyword}
    (h : member? name members = some (.string word)) :
    applied (.object members) location (whereMember name word asked) =
      applied (.object members) location (.mk asked) := by
  rw [whereMember, applied_of_halt_none (by simp [Keyword.halt?]), appliedEach, appliedEach,
    appliedOf, List.append_nil, if_pos (failures_memberIs_eq_nil_iff.2 h)]

theorem applied_whereMember_of_ne {name word : String} {asked : List Keyword}
    (h : member? name members ≠ some (.string word)) :
    applied (.object members) location (whereMember name word asked) = [] := by
  rw [whereMember, applied_of_halt_none (by simp [Keyword.halt?]), appliedEach, appliedEach,
    appliedOf, List.append_nil, if_neg (mt failures_memberIs_eq_nil_iff.1 h)]

/-- Of what is asked by the word that a member is, one part applies at most. -/
theorem exists_appliedAll_eq (members : List (String × Json)) (location : List String)
    (name : String) (kinds : List (String × List Keyword)) (h : (kinds.map Prod.fst).Nodup) :
    ∃ branch ∈ [] :: kinds.map fun p ↦ applied (.object members) location (.mk p.2),
      appliedAll (.object members) location (kinds.map fun p ↦ whereMember name p.1 p.2) =
        branch := by
  have hnone : ∀ {rest : List (String × List Keyword)} {word},
      member? name members = some (.string word) → word ∉ rest.map Prod.fst →
      appliedAll (.object members) location (rest.map fun p ↦ whereMember name p.1 p.2) = [] := by
    intro rest word hword hrest
    induction rest with
    | nil => rfl
    | cons p rest ih =>
      rw [List.map_cons, List.mem_cons, not_or] at hrest
      have hp : member? name members ≠ some (.string p.1) := by simpa [hword] using hrest.1
      rw [List.map_cons, appliedAll, applied_whereMember_of_ne hp, ih hrest.2, List.append_nil]
  induction kinds with
  | nil => exact ⟨[], List.mem_cons_self, rfl⟩
  | cons p rest ih =>
    rw [List.map_cons, List.nodup_cons] at h
    have hcons : appliedAll (.object members) location
        ((p :: rest).map fun p ↦ whereMember name p.1 p.2) =
          applied (.object members) location (whereMember name p.1 p.2) ++
            appliedAll (.object members) location (rest.map fun p ↦ whereMember name p.1 p.2) := by
      rw [List.map_cons, appliedAll]
    rw [hcons]
    by_cases hp : member? name members = some (.string p.1)
    · rw [applied_whereMember hp, hnone hp h.1, List.append_nil]
      exact ⟨_, by simp, rfl⟩
    · rw [applied_whereMember_of_ne hp, List.nil_append]
      obtain ⟨branch, hbranch, heq⟩ := ih h.2
      refine ⟨branch, ?_, heq⟩
      rcases List.mem_cons.1 hbranch with rfl | hbranch
      · exact List.mem_cons_self
      · exact List.mem_cons_of_mem _ (List.mem_cons_of_mem _ hbranch)

/-! ### The schemas of forms -/

/-- A keyword that asks nothing in place. -/
def Keyword.isDirect : Keyword → Bool
  | .allOf _ => false
  | .ifThen _ _ => false
  | _ => true

theorem appliedOf_of_isDirect {all : List Keyword} {k : Keyword} (h : k.isDirect = true) :
    appliedOf j location all k = [⟨all, k⟩] := by
  cases k with
  | allOf | ifThen => exact absurd h (by simp [Keyword.isDirect])
  | _ => rw [appliedOf]; all_goals simp

theorem appliedEach_of_isDirect {all keywords : List Keyword}
    (h : ∀ k ∈ keywords, k.isDirect = true) :
    appliedEach j location all keywords = keywords.map (⟨all, ·⟩) := by
  induction keywords with
  | nil => rfl
  | cons k rest ih =>
    obtain ⟨hk, hrest⟩ := List.forall_mem_cons.1 h
    rw [appliedEach, appliedOf_of_isDirect hk, ih hrest, List.map_cons, List.singleton_append]

theorem laid_singleton {a : Applied} (h : a.keyword.Plain P) : Laid P j [a] :=
  ⟨List.forall_mem_singleton.2 h, List.pairwise_singleton _ _⟩

/-- One keyword alone is laid out. -/
theorem laid_mk_singleton {k : Keyword} (hdirect : k.isDirect = true) (hk : k.Plain P) :
    Laid P j (applied j location (.mk [k])) := by
  have happlied : applied j location (.mk [k]) = [⟨[k], k⟩] := by
    rw [applied]
    cases hhalt : (k.halt? j).isSome with
    | true => simp [hhalt]
    | false =>
      simp only [List.find?_cons, hhalt, List.find?_nil]
      rw [appliedEach, appliedEach, appliedOf_of_isDirect hdirect, List.append_nil]
  rw [happlied]
  exact laid_singleton hk

/-- A type and one keyword that is about values of this type are laid out. -/
theorem laid_mk_type {t : TypeName} {k : Keyword} (hdirect : k.isDirect = true) (hk : k.Plain P) :
    Laid P j (applied j location (.mk [.type t, k])) := by
  by_cases hhalt : ∀ k' ∈ [.type t, k], k'.halt? j = none
  · rw [applied_of_halt_none hhalt, appliedEach, appliedEach, appliedEach,
      appliedOf_of_isDirect rfl, appliedOf_of_isDirect hdirect]
    have hsilent : Applied.broken? ⟨[.type t, k], .type t⟩ j = none := by
      rw [Applied.broken?, hhalt (.type t) List.mem_cons_self]
      cases j <;> rfl
    refine ⟨List.forall_mem_cons.2 ⟨trivial, List.forall_mem_singleton.2 hk⟩,
      List.pairwise_pair.2 ⟨by simp, by simp, ?_⟩⟩
    intro kind _ hbroken
    exact absurd (hbroken.symm.trans hsilent) (by simp)
  · -- the one that ends the evaluation stands alone
    have hfind : ∃ k', (k' = .type t ∨ k' = k) ∧
        applied j location (.mk [.type t, k]) = [⟨[.type t, k], k'⟩] := by
      rw [applied]
      cases hfound : [Keyword.type t, k].find? fun k ↦ (k.halt? j).isSome with
      | none =>
        refine absurd (fun k' hk' ↦ ?_) hhalt
        simpa using List.find?_eq_none.1 hfound k' hk'
      | some k' =>
        exact ⟨k', by simpa using List.mem_of_find?_eq_some hfound, rfl⟩
    obtain ⟨k', rfl | rfl, happlied⟩ := hfind
    · rw [happlied]
      exact laid_singleton trivial
    · rw [happlied]
      exact laid_singleton hk

/-- What asks for an object is laid out if it is on objects. -/
theorem laid_mk_object {keywords : List Keyword}
    (h : ∀ members, Laid P (.object members)
      (applied (.object members) location (.mk (.type .object :: keywords)))) :
    Laid P j (applied j location (.mk (.type .object :: keywords))) := by
  have hother : (∀ members, j ≠ .object members) →
      Laid P j (applied j location (.mk (.type .object :: keywords))) := by
    intro hj
    have hadmits : TypeName.object.admits j = false := by
      cases j with
      | object members => exact absurd rfl (hj members)
      | _ => rfl
    have happlied : applied j location (.mk (.type .object :: keywords)) =
        [⟨.type .object :: keywords, .type .object⟩] := by
      rw [applied]
      simp [Keyword.halt?, hadmits]
    rw [happlied]
    exact laid_singleton trivial
  cases j with
  | object members => exact h members
  | _ => exact hother (by simp)

/-- The schemas that are looked at in forms. -/
inductive Used : Subschema → Prop
  | ref (target : Reference) : Used (.ref target)
  | form : Used (.inPlace formSchema)
  | statements : Used (.inPlace statementsSchema)
  | words (l : List String) : Used (.inPlace (.mk [.enum l]))
  | typed (t : TypeName) : Used (.inPlace (.mk [.type t]))
  | someText : Used (.inPlace (.mk [.type .string, .minLength 1]))

/-- Keywords that are asked of an object directly apply as they stand. -/
theorem map_keyword_applied {keywords : List Keyword} (hdirect : ∀ k ∈ keywords, k.isDirect = true)
    (hhalt : ∀ k ∈ keywords, k.halt? (.object members) = none) :
    (applied (.object members) location (.mk keywords)).map Applied.keyword = keywords := by
  rw [applied_of_halt_none hhalt, appliedEach_of_isDirect hdirect, List.map_map]
  exact List.map_id _

/-- A keyword that asks nothing in place and does not end the evaluation. -/
def Keyword.isOpen : Keyword → Bool
  | .type _ => false
  | .enum _ => false
  | .const _ => false
  | k => k.isDirect

theorem map_keyword_applied_of_isOpen {keywords : List Keyword}
    (h : ∀ k ∈ keywords, k.isOpen = true) :
    (applied (.object members) location (.mk keywords)).map Applied.keyword = keywords := by
  refine map_keyword_applied (fun k hk ↦ ?_) (fun k hk ↦ ?_)
  · have hopen := h k hk
    cases k with
    | allOf | ifThen => exact absurd hopen (by simp [Keyword.isOpen, Keyword.isDirect])
    | _ => rfl
  · have hopen := h k hk
    cases k with
    | type | enum | const => exact absurd hopen (by simp [Keyword.isOpen])
    | _ => rfl

theorem laid_form : Laid Used j (applied j location formSchema) := by
  refine laid_mk_object fun members ↦ laid_of_objectLaid ?_
  rw [map_keyword_applied (by simp [Keyword.isDirect])
    (by simp [Keyword.halt?, TypeName.admits, TypeName.ofJson])]
  exact ⟨by decide +kernel, by decide +kernel,
    by simp [Keyword.subschemas, Used.typed, Used.statements]⟩

/-! ### Kinds -/

/-- What is asked of what has one of some kinds, whichever it is. -/
def headKeywords (kinds : List String) : List Keyword :=
  [.type .object, .required ["kind", "line", "column"],
    .properties [("kind", .inPlace (.mk [.enum kinds])), ("line", .ref .coordinate),
      ("column", .ref .coordinate)]]

theorem used_of_mem_headKeywords {kinds : List String} :
    ∀ k ∈ headKeywords kinds, ∀ s ∈ k.subschemas, Used s := by
  simp [headKeywords, Keyword.subschemas, Used.words, Used.ref]

/-- What has a kind is laid out if it is with all that can apply for its kind. -/
theorem laid_kindKeywords {kinds : List (String × List Keyword)} (lists : List (List Keyword))
    (hkinds : (kinds.map Prod.fst).Nodup)
    (hlists : ∀ members, ∀ p ∈ kinds,
      (applied (.object members) location (.mk p.2)).map Applied.keyword ∈ lists)
    (hlettered : ∀ l ∈ [] :: lists, ∀ k ∈ headKeywords (kinds.map Prod.fst) ++ l,
      k.isLettered = true)
    (hapart : ∀ l ∈ [] :: lists, (headKeywords (kinds.map Prod.fst) ++ l).Pairwise
      fun k k' ↦ k.isApart k' = true)
    (hused : ∀ l ∈ lists, ∀ k ∈ l, ∀ s ∈ k.subschemas, Used s) :
    Laid Used j (applied j location (.mk (kindKeywords kinds))) := by
  refine laid_mk_object fun members ↦ laid_of_objectLaid ?_
  obtain ⟨branch, hbranch, happlied⟩ := exists_appliedAll_eq members location "kind" kinds hkinds
  have hkeywords : (applied (.object members) location (.mk (kindKeywords kinds))).map
      Applied.keyword = headKeywords (kinds.map Prod.fst) ++ branch.map Applied.keyword := by
    have hhalt : ∀ k ∈ kindKeywords kinds, k.halt? (.object members) = none := by
      simp [kindKeywords, Keyword.halt?, TypeName.admits, TypeName.ofJson]
    rw [applied_of_halt_none hhalt, ← happlied]
    simp [kindKeywords, headKeywords, appliedEach, appliedOf]
  have hmem : branch.map Applied.keyword ∈ [] :: lists := by
    rcases List.mem_cons.1 hbranch with rfl | hbranch
    · exact List.mem_cons_self
    · obtain ⟨p, hp, rfl⟩ := List.mem_map.1 hbranch
      exact List.mem_cons_of_mem _ (hlists members p hp)
  have hschemas : ∀ l ∈ [] :: lists, ∀ k ∈ headKeywords (kinds.map Prod.fst) ++ l,
      ∀ s ∈ k.subschemas, Used s := by
    intro l hl
    rw [List.forall_mem_append]
    refine ⟨used_of_mem_headKeywords, ?_⟩
    rcases List.mem_cons.1 hl with rfl | hl
    · exact fun k hk ↦ absurd hk List.not_mem_nil
    · exact hused l hl
  have hlaid : ObjectLaid Used (headKeywords (kinds.map Prod.fst) ++ branch.map Applied.keyword) :=
    ⟨hlettered _ hmem, hapart _ hmem, hschemas _ hmem⟩
  rwa [← hkeywords] at hlaid

theorem laid_statement : Laid Used j (applied j location statementSchema) := by
  show Laid Used j (applied j location (.mk (kindKeywords statementKinds)))
  refine laid_kindKeywords (statementKinds.map Prod.snd) (by decide)
    (fun members p hp ↦ ?_) (by decide +kernel) (by decide +kernel) ?_
  · have hopen : ∀ p ∈ statementKinds, ∀ k ∈ p.2, k.isOpen = true := by decide
    rw [map_keyword_applied_of_isOpen (hopen p hp)]
    exact List.mem_map_of_mem hp
  · simp [statementKinds, statementKeywords, questionProperties, Keyword.subschemas, Used.ref,
      Used.typed, Used.statements]

/-- The keywords that apply to a literal: its type decides on the one for its value. -/
theorem map_keyword_literal (members : List (String × Json)) (location : List String) :
    ∃ extra ∈ [] :: literalTypes.map fun p ↦
        [Keyword.properties [("value", .inPlace (.mk [.type p.2]))]],
      (applied (.object members) location (.mk literalKeywords)).map Applied.keyword =
        [.required ["type", "value"], .properties [("type", .ref .type)]] ++ extra := by
  -- the keyword on the value, by the word for the type
  let kinds : List (String × List Keyword) :=
    literalTypes.map fun p ↦ (p.1, [.properties [("value", .inPlace (.mk [.type p.2]))]])
  obtain ⟨branch, hbranch, happlied⟩ :=
    exists_appliedAll_eq members location "type" kinds (by simp [kinds, literalTypes])
  refine ⟨branch.map Applied.keyword, ?_, ?_⟩
  · rcases List.mem_cons.1 hbranch with rfl | hbranch
    · exact List.mem_cons_self
    · obtain ⟨p, hp, rfl⟩ := List.mem_map.1 hbranch
      obtain ⟨q, hq, rfl⟩ := List.mem_map.1 hp
      refine List.mem_cons_of_mem _ (List.mem_map.2 ⟨q, hq, ?_⟩)
      rw [map_keyword_applied_of_isOpen (by simp [Keyword.isOpen, Keyword.isDirect])]
  · have hhalt : ∀ k ∈ literalKeywords, k.halt? (.object members) = none := by
      simp [literalKeywords, Keyword.halt?]
    have hwhere : (kinds.map fun p ↦ whereMember "type" p.1 p.2) =
        literalTypes.map fun p ↦ whereType p.1 p.2 := List.map_map
    rw [applied_of_halt_none hhalt, ← happlied, hwhere]
    simp [literalKeywords, appliedEach, appliedOf]

/-- The keywords that can apply to expressions by their kinds. -/
def expressionKeywords : List (List Keyword) :=
  (([] :: literalTypes.map fun p ↦
    [Keyword.properties [("value", .inPlace (.mk [.type p.2]))]]).map fun extra ↦
      [.required ["type", "value"], .properties [("type", .ref .type)]] ++ extra) ++
    expressionKinds.tail.map Prod.snd

theorem laid_expression : Laid Used j (applied j location expressionSchema) := by
  show Laid Used j (applied j location (.mk (kindKeywords expressionKinds)))
  refine laid_kindKeywords expressionKeywords (by decide)
    (fun members p hp ↦ ?_) (by decide +kernel) (by decide +kernel) ?_
  · rw [expressionKeywords, List.mem_append]
    rcases List.mem_cons.1 hp with rfl | hp
    · obtain ⟨extra, hextra, hkeywords⟩ := map_keyword_literal members location
      exact Or.inl (List.mem_map.2 ⟨extra, hextra, hkeywords.symm⟩)
    · have hopen : ∀ p ∈ expressionKinds.tail, ∀ k ∈ p.2, k.isOpen = true := by decide
      rw [map_keyword_applied_of_isOpen (hopen p hp)]
      exact Or.inr (List.mem_map_of_mem hp)
  · simp [expressionKeywords, expressionKinds, literalTypes, Keyword.subschemas, Used.ref,
      Used.typed, Used.words, Used.someText]

/-- **The schemas of forms are laid out**, for every value and with all schemas of members and
items. -/
theorem laid_used (s : Subschema) (hs : Used s) (j : Json) (location : List String) :
    Laid Used j (applied j location s.schema) := by
  cases hs with
  | ref target =>
    cases target with
    | statement => exact laid_statement
    | identifier => exact laid_mk_type rfl trivial
    | expression => exact laid_expression
    | coordinate => exact laid_mk_type rfl trivial
    | type => exact laid_mk_singleton rfl trivial
  | form => exact laid_form
  | statements => exact laid_mk_type rfl (Used.ref .statement)
  | words l => exact laid_mk_singleton rfl trivial
  | typed t => exact laid_mk_singleton rfl trivial
  | someText => exact laid_mk_type rfl trivial

end Questionnaire.Schema
