import Questionnaire.Proofs.Schema.Layout

/-!
# Where schema errors point

The pointer of an error is made of segments, names of members and indices of items, each behind a
slash and without any escaping. It can be followed all the same: the names that the schemas of forms
look at are made of letters, so that splitting a pointer at its slashes gives its segments back
(`splitOn_pointerTo`), and these lead to a value of the document (`Json.LeadsTo`).

No error is reported twice: what the schemas of forms find is apart (`points_failures`,
`laid_used`), and texts tell what is apart.
-/

namespace Questionnaire.Schema

open Json (member? LeadsTo)

/-! ### Segments -/

theorem toList_pointerTo {location : List String} (h : location ≠ []) :
    (pointerTo location).toList = '/' :: ['/'].intercalate (location.map String.toList) := by
  rw [pointerTo, if_neg (by simpa using h), String.toList_append, String.toList_intercalate]
  rfl

/-- **A pointer is split into its segments** at the slashes, if no segment has one. -/
theorem splitOn_pointerTo {location : List String} (h : ∀ s ∈ location, '/' ∉ s.toList) :
    pointerTo location = "" ∧ location = [] ∨
      ∃ cs, (pointerTo location).toList = '/' :: cs ∧
        (cs.splitOn '/').map String.ofList = location := by
  by_cases hempty : location = []
  · exact Or.inl ⟨by rw [hempty]; rfl, hempty⟩
  · refine Or.inr ⟨_, toList_pointerTo hempty, ?_⟩
    rw [List.splitOn_intercalate '/' _ (by simpa using hempty), List.map_map]
    · simp
    · intro l hl
      obtain ⟨t, ht, rfl⟩ := List.mem_map.1 hl
      exact h t ht

theorem eq_of_pointerTo_eq {p q : List String} (hp : ∀ s ∈ p, '/' ∉ s.toList)
    (hq : ∀ s ∈ q, '/' ∉ s.toList) (h : pointerTo p = pointerTo q) : p = q := by
  rcases splitOn_pointerTo hp with ⟨hempty, hnone⟩ | ⟨cs, hcs, hsplit⟩
  · rcases splitOn_pointerTo hq with ⟨-, hnone'⟩ | ⟨ds, hds, -⟩
    · rw [hnone, hnone']
    · rw [← h, hempty] at hds
      exact absurd hds (by simp)
  · rcases splitOn_pointerTo hq with ⟨hempty, -⟩ | ⟨ds, hds, hsplit'⟩
    · rw [h, hempty] at hcs
      exact absurd hcs (by simp)
    · rw [h, hds] at hcs
      rw [← hsplit, ← hsplit', (List.cons.inj hcs).2]

/-! ### Schema errors -/

variable {location : List String} {j : Json}

theorem ErrorKind.Apart.symm {kind kind' : ErrorKind} (h : kind.Apart kind') :
    kind'.Apart kind := by
  cases kind <;> cases kind' <;> first | exact h | exact List.Disjoint.symm h

/-- Kinds that are the same but for the order of names are apart from the same kinds. -/
theorem ErrorKind.Same.apart {k k' l l' : ErrorKind} (hk : k.Same l) (hk' : k'.Same l')
    (h : l.Apart l') : k.Apart k' := by
  cases hk with
  | refl =>
    cases hk' with
    | refl => exact h
    | additionalProperties => cases k <;> exact h
  | additionalProperties =>
    cases hk' with
    | refl => cases k' <;> exact h
    | additionalProperties => exact h

/-- In whatever order failures are given, they are apart and lie in the value. -/
theorem Points.of_sameAll {l l' : List Failure} (h : Points location j l')
    (hsame : Failure.SameAll l l') : Points location j l where
  apart := by
    obtain ⟨between, hrelated, hperm⟩ := hsame
    have hbetween : between.Pairwise Failure.Apart :=
      hperm.symm.pairwise h.apart fun hapart heq ↦ (hapart heq.symm).symm
    refine pairwise_of_forall₂ (fun hf hf' hapart heq ↦ ?_) hrelated hbetween
    exact hf.kind.apart hf'.kind (hapart (hf.location.symm.trans (heq.trans hf'.location)))
  leads f hf := by
    obtain ⟨f', hf', hff'⟩ := hsame.exists_of_mem hf
    rw [hff'.location]
    exact h.leads f' hf'
  lettered f hf names hnames := by
    obtain ⟨f', hf', hff'⟩ := hsame.exists_of_mem hf
    have hkind := hff'.kind
    rw [hnames] at hkind
    refine h.lettered f' hf' names ?_
    generalize f'.kind = kind' at hkind
    cases hkind
    rfl

/-- Errors of one object that are apart have different texts. -/
theorem text_ne_of_apart {v : Validator} (h : v.Tells) {kind kind' : ErrorKind}
    (hlettered : ∀ names, kind = .required names → names ≠ [] ∧ ∀ n ∈ names, Lettered n)
    (hlettered' : ∀ names, kind' = .required names → names ≠ [] ∧ ∀ n ∈ names, Lettered n)
    (hapart : kind.Apart kind') : v.text (.leaf location kind) ≠ v.text (.leaf location kind') := by
  unfold ErrorKind.Apart at hapart
  split at hapart
  · next names names' =>
    obtain ⟨hne, hnames⟩ := hlettered names rfl
    obtain ⟨hne', hnames'⟩ := hlettered' names' rfl
    exact h.required location names names' hne hne' hnames hnames' hapart
  · next names names' =>
    obtain ⟨hne, hnames⟩ := hlettered names rfl
    exact h.additionalProperties location names names' hne hnames
  · next names names' =>
    obtain ⟨hne', hnames'⟩ := hlettered' names' rfl
    exact (h.additionalProperties location names' names hne' hnames').symm
  · exact hapart.elim

/-- What leads into the document as it is validated leads into the document. -/
theorem exists_leadsTo_of_normalize {doc w : Json} {steps : List String}
    (h : LeadsTo (normalize doc) steps w) : ∃ w', LeadsTo doc steps w' := by
  rcases normalize_cases doc with hdoc | hdoc
  · exact ⟨w, hdoc ▸ h⟩
  · exact (hdoc ▸ h).of_ordered

/-- **Schema errors point into the document**, and no two of them are the same. A pointer that is
not empty is split at its slashes into names of members and indices of items, which lead from the
document to a value in it. -/
theorem validate_points_into {v : Validator} (h : v.Implements formSchema) (htells : v.Tells)
    (doc : Json) :
    (∀ e ∈ v.validateDocument doc, e.path = "" ∨ ∃ cs w, e.path.toList = '/' :: cs ∧
      doc.LeadsTo ((cs.splitOn '/').map String.ofList) w) ∧
    ((v.validateDocument doc).map fun e ↦ (e.path, e.message)).Nodup := by
  obtain ⟨l, hsame, herrors⟩ := Validator.exists_validateDocument_eq h doc
  have hpoints : Points [] (normalize doc) l :=
    (points_failures laid_used _ _ .form []).of_sameAll hsame
  have hleads : ∀ f ∈ l, (∀ s ∈ f.location, '/' ∉ s.toList) ∧ ∃ w, doc.LeadsTo f.location w := by
    intro f hf
    obtain ⟨steps, w, hsteps, hslash, hw⟩ := hpoints.leads f hf
    rw [List.nil_append] at hsteps
    rw [hsteps]
    exact ⟨hslash, exists_leadsTo_of_normalize hw⟩
  rw [herrors]
  constructor
  · intro e he
    obtain ⟨f, hf, rfl⟩ := List.mem_map.1 he
    obtain ⟨hslash, w, hw⟩ := hleads f hf
    rcases splitOn_pointerTo hslash with ⟨hempty, -⟩ | ⟨cs, hcs, hsplit⟩
    · exact Or.inl hempty
    · exact Or.inr ⟨cs, w, hcs, hsplit ▸ hw⟩
  · rw [List.map_map, List.Nodup, List.pairwise_map]
    refine hpoints.apart.imp_of_mem fun {f f'} hf hf' hapart heq ↦ ?_
    obtain ⟨hpath, hmessage⟩ := Prod.mk.inj heq
    have hlocation : f.location = f'.location :=
      eq_of_pointerTo_eq (hleads f hf).1 (hleads f' hf').1 hpath
    have htext : v.text (.leaf f'.location f.kind) = v.text (.leaf f'.location f'.kind) := by
      simpa only [Validator.error, hlocation] using hmessage
    exact text_ne_of_apart htells (hpoints.lettered f hf) (hpoints.lettered f' hf')
      (hapart hlocation) htext

/-- A document in which two objects are at fault several times, one of them by a member with a slash
in its name. -/
def slashedDocument : Json :=
  .object [("statements", .array
    [.object [("kind", .string "condition"), ("line", .int 1), ("column", .int 2),
      ("guard", .object
        [("kind", .string "unary"), ("line", .int (-1)), ("operator", .string "?")]),
      ("body", .array [.object [("kind", .string "question"), ("a/b", .null)]])]])]

/-- The member with a slash is an error of the object that it stands in. -/
def slashedError : SchemaError :=
  Validator.standard.error ⟨["statements", "0", "body", "0"], .additionalProperties ["a/b"]⟩

theorem validate_points_slashedDocument :
    Validator.standard.Implements formSchema ∧ Validator.standard.Tells ∧
      slashedError ∈ Validator.standard.validateDocument slashedDocument ∧
      (Validator.standard.validateDocument slashedDocument).length = 7 ∧
      (slashedError.path = "" ∨ ∃ cs w, slashedError.path.toList = '/' :: cs ∧
        slashedDocument.LeadsTo ((cs.splitOn '/').map String.ofList) w) ∧
      ((Validator.standard.validateDocument slashedDocument).map
        fun e ↦ (e.path, e.message)).Nodup := by
  have hmem : slashedError ∈ Validator.standard.validateDocument slashedDocument := by
    decide +kernel
  obtain ⟨hpoints, hnodup⟩ :=
    validate_points_into standard_implements standard_tells slashedDocument
  exact ⟨standard_implements, standard_tells, hmem, by decide +kernel, hpoints slashedError hmem,
    hnodup⟩

end Questionnaire.Schema
