import Mathlib.Data.List.Perm.Basic
import Questionnaire.Proofs.Lists
import Questionnaire.Proofs.Schema.Normalized
import Questionnaire.Proofs.Text.Quoting
import Questionnaire.Schema.Standard

/-!
# What is taken of a validator

A validator implements a schema if it accepts the values that fail nothing, and of any other value
gives an error whose causes end in what the value fails (`Validator.Implements`). It may gather
these as it likes and give them in any order, and so with the names of additional members
(`Failure.SameAll`). That its texts tell some errors apart is asked for on its own
(`Validator.Tells`).

From such a validator a document has one schema error for each of its failures
(`exists_validateDocument_eq`), and none exactly when it is what the schema asks for
(`validateDocument_eq_nil_iff`). The validator that is at hand is one of this sort
(`standard_implements`, `standard_tells`).
-/

namespace Questionnaire.Schema

/-! ### The same failures -/

/-- The same error, but for the order of names. -/
inductive ErrorKind.Same : ErrorKind → ErrorKind → Prop
  | refl (kind : ErrorKind) : Same kind kind
  | additionalProperties {names names' : List String} (h : names.Perm names') :
      Same (.additionalProperties names) (.additionalProperties names')

theorem ErrorKind.Same.symm {kind kind' : ErrorKind} (h : kind.Same kind') : kind'.Same kind := by
  cases h with
  | refl => exact .refl _
  | additionalProperties h => exact .additionalProperties h.symm

theorem ErrorKind.Same.trans {kind kind' kind'' : ErrorKind} (h : kind.Same kind')
    (h' : kind'.Same kind'') : kind.Same kind'' := by
  cases h with
  | refl => exact h'
  | additionalProperties h =>
    cases h' with
    | refl => exact .additionalProperties h
    | additionalProperties h' => exact .additionalProperties (h.trans h')

/-- The same failure, but for the order of names. -/
structure Failure.Same (f f' : Failure) : Prop where
  location : f.location = f'.location
  kind : f.kind.Same f'.kind

theorem Failure.Same.symm {f f' : Failure} (h : f.Same f') : f'.Same f :=
  ⟨h.location.symm, h.kind.symm⟩

theorem Failure.Same.trans {f f' f'' : Failure} (h : f.Same f') (h' : f'.Same f'') : f.Same f'' :=
  ⟨h.location.trans h'.location, h.kind.trans h'.kind⟩

/-- The same failures in any order. -/
def Failure.SameAll (l l' : List Failure) : Prop :=
  ∃ between, List.Forall₂ Failure.Same l between ∧ between.Perm l'

namespace Failure.SameAll

variable {l l' m : List Failure}

theorem refl (l : List Failure) : SameAll l l :=
  ⟨l, List.forall₂_same.2 fun _ _ ↦ ⟨rfl, .refl _⟩, .refl l⟩

theorem length_eq (h : SameAll l m) : l.length = m.length := by
  obtain ⟨between, hsame, hperm⟩ := h
  rw [hsame.length_eq, hperm.length_eq]

theorem eq_nil_iff (h : SameAll l m) : l = [] ↔ m = [] := by
  rw [← List.length_eq_zero_iff, ← List.length_eq_zero_iff, h.length_eq]

theorem exists_of_mem (h : SameAll l m) {f : Failure} (hf : f ∈ l) : ∃ f' ∈ m, f.Same f' := by
  obtain ⟨between, hsame, hperm⟩ := h
  obtain ⟨f', hf', hff'⟩ := exists_of_mem_forall₂ hsame hf
  exact ⟨f', hperm.mem_iff.1 hf', hff'⟩

/-- Two lists of the failures of a value are the same failures. -/
theorem of_common (h : SameAll l m) (h' : SameAll l' m) : SameAll l l' := by
  obtain ⟨between, hsame, hperm⟩ := h
  obtain ⟨between', hsame', hperm'⟩ := h'
  have hback : List.Forall₂ Failure.Same between' l' :=
    (hsame'.imp fun _ _ h ↦ h.symm).flip
  obtain ⟨middle, hmiddle, hpermuted⟩ :=
    List.perm_comp_forall₂ (hperm.trans hperm'.symm) hback
  exact ⟨middle, forall₂_comp (fun _ _ _ _ h h' ↦ h.trans h') hsame hmiddle, hpermuted⟩

end Failure.SameAll

/-! ### Laws -/

/-- A name that is made of letters. -/
def Lettered (name : String) : Prop :=
  ∀ c ∈ name.toList, c.isAlpha

namespace Validator

/-- The validator finds what values fail by a schema, and has a text for everything. -/
structure Implements (v : Validator) (s : Schema) : Prop where
  valid : ∀ j, failures (.inPlace s) j [] = [] → v.validate j = .valid
  invalid : ∀ j, failures (.inPlace s) j [] ≠ [] →
    ∃ e, v.validate j = .invalid e ∧ Failure.SameAll e.leaves (failures (.inPlace s) j [])
  text : ∀ location kind, v.text (.leaf location kind) ≠ ""

/-- The texts of the validator tell what is said of one object: which members are missing, as long
as their names are made of letters, and that there are members too many. -/
structure Tells (v : Validator) : Prop where
  required : ∀ location names names', names ≠ [] → names' ≠ [] → (∀ n ∈ names, Lettered n) →
    (∀ n ∈ names', Lettered n) → names.Disjoint names' →
    v.text (.leaf location (.required names)) ≠ v.text (.leaf location (.required names'))
  additionalProperties : ∀ location names names', names ≠ [] → (∀ n ∈ names, Lettered n) →
    v.text (.leaf location (.required names)) ≠
      v.text (.leaf location (.additionalProperties names'))

/-! ### Schema errors -/

/-- The schema error of a failure. -/
def error (v : Validator) (f : Failure) : SchemaError :=
  { path := pointerTo f.location, message := v.text (.leaf f.location f.kind) }

variable {v : Validator} {s : Schema}

mutual

theorem collectErrors_eq (h : ∀ location kind, v.text (.leaf location kind) ≠ "") :
    ∀ e : ValidationError, v.collectErrors e = e.leaves.map v.error
  | .mk location kind [] => by
    have hmessage : (v.text (.mk location kind [])).isEmpty = false :=
      Bool.eq_false_iff.2 fun hempty ↦ h location kind (String.isEmpty_iff.1 hempty)
    simp only [collectErrors, hmessage, ValidationError.leaves, Bool.false_eq_true, if_false]
    rfl
  | .mk _ _ (cause :: rest) => by
    rw [collectErrors, ValidationError.leaves, collectAll_eq h (cause :: rest)]

theorem collectAll_eq (h : ∀ location kind, v.text (.leaf location kind) ≠ "") :
    ∀ l : List ValidationError, v.collectAll l = (ValidationError.leavesAll l).map v.error
  | [] => rfl
  | e :: rest => by
    rw [collectAll, ValidationError.leavesAll, List.map_append, collectErrors_eq h e,
      collectAll_eq h rest]

end

/-- **A document has one schema error** for each of its failures. -/
theorem exists_validateDocument_eq (h : v.Implements s) (doc : Json) :
    ∃ l, Failure.SameAll l (failures (.inPlace s) (normalize doc) []) ∧
      v.validateDocument doc = l.map v.error := by
  by_cases hvalid : failures (.inPlace s) (normalize doc) [] = []
  · refine ⟨[], hvalid ▸ .refl [], ?_⟩
    rw [validateDocument, h.valid _ hvalid, List.map_nil]
  · obtain ⟨e, he, hleaves⟩ := h.invalid _ hvalid
    refine ⟨e.leaves, hleaves, ?_⟩
    rw [validateDocument, he]
    exact collectErrors_eq h.text e

/-- **A document has no schema error** when it fails nothing. -/
theorem validateDocument_eq_nil_iff (h : v.Implements s) {doc : Json} :
    v.validateDocument doc = [] ↔ failures (.inPlace s) doc [] = [] := by
  obtain ⟨l, hl, herrors⟩ := exists_validateDocument_eq h doc
  rw [herrors, List.map_eq_nil_iff, hl.eq_nil_iff, failures_normalize_eq_nil_iff]

end Validator

/-! ### The validator at hand -/

theorem toList_quote {name : String} (h : Lettered name) :
    (quote name).toList = '\'' :: (name.toList ++ ['\'']) := by
  have hlast : name.toList.getLast? ≠ some '\\' := fun hlast ↦
    absurd (h _ (List.mem_of_getLast? hlast)) (by decide)
  rw [quote, String.toList_ofList, if_neg hlast, Text.quoteChars_of_isAlpha (by decide) h]

/-- What is said of missing members starts with the first of their names. -/
theorem toList_text_required {n : String} (hn : Lettered n) (ns : List String) :
    ∃ r, (ErrorKind.required (n :: ns)).text.toList =
      (if ns.isEmpty then "missing property " else "missing properties ").toList ++
        '\'' :: (n.toList ++ '\'' :: r) := by
  cases ns with
  | nil =>
    refine ⟨[], ?_⟩
    show ("missing property " ++ quote n).toList = _
    rw [String.toList_append, toList_quote hn, List.isEmpty_nil, if_pos rfl]
  | cons m ns =>
    refine ⟨", ".toList ++
      ", ".toList.intercalate ((quote m :: ns.map quote).map String.toList), ?_⟩
    show ("missing properties " ++ quoteAll (n :: m :: ns)).toList = _
    rw [String.toList_append, quoteAll, String.toList_intercalate, List.isEmpty_cons]
    simp [toList_quote hn]

theorem eq_of_text_required_eq {n n' : String} {ns ns' : List String} (hn : Lettered n)
    (hn' : Lettered n')
    (h : (ErrorKind.required (n :: ns)).text = (ErrorKind.required (n' :: ns')).text) : n = n' := by
  obtain ⟨r, hr⟩ := toList_text_required hn ns
  obtain ⟨r', hr'⟩ := toList_text_required hn' ns'
  have hquote : ∀ {name : String}, Lettered name → ∀ c ∈ name.toList, c ≠ '\'' := by
    intro name hname c hc heq
    exact absurd (heq ▸ hname c hc) (by decide)
  rw [h, hr'] at hr
  -- one name or several: the wordings differ before the names
  cases hone : ns.isEmpty <;> cases hone' : ns'.isEmpty
  all_goals
    rw [hone, hone'] at hr
    simp at hr
  all_goals
    obtain ⟨hname, -⟩ := Text.run_unique (hquote hn') (hquote hn) (by simp) (by simp) hr
    exact (String.toList_inj.1 hname).symm

theorem text_required_ne_additionalProperties {n : String} (hn : Lettered n)
    (ns names : List String) :
    (ErrorKind.required (n :: ns)).text ≠ (ErrorKind.additionalProperties names).text := by
  intro heq
  obtain ⟨r, hr⟩ := toList_text_required hn ns
  have hadditional : (ErrorKind.additionalProperties names).text.toList.head? = some 'a' := by
    show ("additional properties " ++ quoteAll names ++ " not allowed").toList.head? = some 'a'
    simp
  rw [← heq, hr] at hadditional
  revert hadditional
  split <;> simp

theorem text_eq_of_message_eq {location : List String} {kind kind' : ErrorKind}
    (h : (ValidationError.leaf location kind).message =
      (ValidationError.leaf location kind').message) : kind.text = kind'.text :=
  String.append_right_inj _ |>.1 h

theorem standard_implements : Validator.standard.Implements formSchema where
  valid j h := by
    rw [failures_eq_nil_iff] at h
    simp only [Validator.standard, h]
  invalid j h := by
    have hcauses : look j (.inPlace formSchema) [] ≠ [] := mt failures_eq_nil_iff.2 h
    refine ⟨.mk [] .schema (look j (.inPlace formSchema) []), ?_, ?_⟩
    · simp only [Validator.standard]
    · rw [ValidationError.leaves_of_causes _ _ hcauses]
      exact .refl _
  text location kind := by
    intro hempty
    have hchars := congrArg String.toList hempty
    simp [Validator.standard, ValidationError.leaf, ValidationError.message] at hchars

theorem standard_tells : Validator.standard.Tells where
  required location names names' hne hne' hnames hnames' hdisjoint heq := by
    obtain ⟨n, ns, rfl⟩ := List.exists_cons_of_ne_nil hne
    obtain ⟨n', ns', rfl⟩ := List.exists_cons_of_ne_nil hne'
    have hn : n = n' := eq_of_text_required_eq (hnames n List.mem_cons_self)
      (hnames' n' List.mem_cons_self) (text_eq_of_message_eq heq)
    exact hdisjoint List.mem_cons_self (hn ▸ List.mem_cons_self)
  additionalProperties location names names' hne hnames heq := by
    obtain ⟨n, ns, rfl⟩ := List.exists_cons_of_ne_nil hne
    exact text_required_ne_additionalProperties (hnames n List.mem_cons_self) ns names'
      (text_eq_of_message_eq heq)

end Questionnaire.Schema
