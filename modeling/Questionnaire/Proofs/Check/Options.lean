import Questionnaire.Proofs.Check.Stages
import Questionnaire.Proofs.Document.Canonical
import Questionnaire.Proofs.Lists

/-!
# Options of checks

Of the options of a check, those that are about the lint passes select warnings, and how many
documents are checked at a time is of no matter to any of them (`Disk.check_options`).

The errors of two checks are the same list when both are made with the same tools. A validator does
not fix the order in which it gives what it finds, though, and may choose another one the next time
(`Toolkit.Alike`). Then the errors of the document format may be listed in another order, and so may
the names in one of them (`SameErrors`); all else is the same. This holds of lint passes that only
warn. A pass that finds errors adds them to the report when it runs
(`Disk.errors_not_fixed_by_document`).
-/

namespace Questionnaire

/-! ### Selected warnings -/

/-- Only the built-in passes have kinds. -/
theorem LintPass.mem_names_of_mem_kindsOf {pass : String} {k : Kind}
    (h : k ∈ kindsOf pass) : pass ∈ builtin.map (·.name) := by
  unfold kindsOf at h
  split at h
  · decide
  · decide
  · decide
  · exact absurd h List.not_mem_nil

/-- No kind of warning belongs to two passes. -/
theorem LintPass.eq_of_mem_kindsOf {a b : String} {k : Kind} (ha : k ∈ kindsOf a)
    (hb : k ∈ kindsOf b) : a = b := by
  have hapart : ∀ a ∈ builtin.map (·.name), ∀ b ∈ builtin.map (·.name),
      ∀ k ∈ kindsOf a, k ∈ kindsOf b → a = b := by decide
  exact hapart a (mem_names_of_mem_kindsOf ha) b (mem_names_of_mem_kindsOf hb) k ha hb

/-- Whether a finding is of a kind that one of some passes warns of. -/
def Finding.isOf (passes : List String) (e : Finding) : Bool :=
  passes.any fun pass ↦ decide (e.kind ∈ LintPass.kindsOf pass)

/-- A warning is of the kinds of some passes exactly when the pass that found it is among them. -/
theorem Finding.WarnedBy.isOf_eq {pass : String} {e : Finding} (h : e.WarnedBy pass)
    (passes : List String) : e.isOf passes = passes.contains pass := by
  rw [Finding.isOf, Bool.eq_iff_iff, List.any_eq_true, List.contains_iff_mem]
  constructor
  · rintro ⟨other, hother, hkind⟩
    rwa [LintPass.eq_of_mem_kindsOf h.kind (of_decide_eq_true hkind)]
  · exact fun hpass ↦ ⟨pass, hpass, decide_eq_true h.kind⟩

/-- To run only some passes is to keep only their warnings. -/
theorem Ending.warnings_eq_filter (e : Ending) {o : CheckOptions} (hsome : o.passes ≠ []) :
    e.warnings LintPass.builtin o =
      (e.warnings LintPass.builtin { o with passes := [] }).filter (Finding.isOf o.passes) := by
  cases e with
  | analysed form v =>
    rw [warnings, warnings, lintFindings, lintFindings]
    split
    · rfl
    · -- without names of passes all of them run
      have hall : (LintPass.builtin.filter fun p ↦
          { o with passes := [] }.selects p.name) = LintPass.builtin := rfl
      rw [hall]
      refine flatMap_filter_eq_filter_flatMap fun p hp e he ↦ ?_
      rw [(LintPass.warnedBy_of_mem_builtin hp he).isOf_eq, CheckOptions.selects,
        List.isEmpty_eq_false_iff.2 hsome, Bool.false_or]
  | refused | malformed | validated | undecoded => rfl

/-! ### Two runs -/

/-- The tools of two runs. They are the same, but that the validators, which both find what values
fail by the schema of forms, may give it in different orders. -/
structure Toolkit.Alike (kit kit' : Toolkit) : Prop where
  implements : kit.validator.Implements Schema.formSchema
  implements' : kit'.validator.Implements Schema.formSchema
  text : kit'.validator.text = kit.validator.text
  complaint : kit'.validator.complaint = kit.validator.complaint
  readYaml : kit'.readYaml = kit.readYaml
  readEnvironment : kit'.readEnvironment = kit.readEnvironment

/-- The same errors in two reports, but for the order of those of the document format and that of
the names in them. -/
inductive SameErrors (v : Schema.Validator) (path : String) : List Finding → List Finding → Prop
  | refl (es : List Finding) : SameErrors v path es es
  | rearranged {l l' : List Schema.Failure} (h : Schema.Failure.SameAll l l') :
      SameErrors v path (l.map fun f ↦ schemaFinding path (v.error f))
        (l'.map fun f ↦ schemaFinding path (v.error f))

theorem SameErrors.length_eq {v : Schema.Validator} {path : String} {es es' : List Finding}
    (h : SameErrors v path es es') : es'.length = es.length := by
  cases h with
  | refl => rfl
  | rearranged h => rw [List.length_map, List.length_map, h.length_eq]

namespace Toolkit.Alike

variable {kit kit' : Toolkit} {d : Disk} {path : String} {schemaOnly : Bool} {e : Ending}

theorem readDocument_eq (h : kit.Alike kit') (d : Disk) (path : String) :
    d.readDocument kit' path = d.readDocument kit path := by
  rw [Disk.readDocument, Disk.readDocument, h.readYaml]

theorem loadForm_eq (h : kit.Alike kit') (d : Disk) (path : String) :
    d.loadForm kit' path = d.loadForm kit path := by
  rw [Disk.loadForm, Disk.loadForm, h.readDocument_eq]

/-- The errors of the document format are the same, or those of the same failures. -/
theorem schemaErrors_cases (h : kit.Alike kit') (d : Disk) (path : String) :
    d.schemaErrors kit' path = d.schemaErrors kit path ∨
      ∃ l l', Schema.Failure.SameAll l l' ∧ d.schemaErrors kit path = l.map kit.validator.error ∧
        d.schemaErrors kit' path = l'.map kit.validator.error := by
  rw [Disk.schemaErrors, Disk.schemaErrors, h.readDocument_eq]
  cases d.readDocument kit path with
  | error e => exact Or.inl rfl
  | ok text =>
    dsimp only
    rw [Schema.Validator.validateText, Schema.Validator.validateText, h.complaint]
    cases Json.parseChars text with
    | none => exact Or.inl rfl
    | some doc =>
      obtain ⟨l, hl, herrors⟩ := Schema.Validator.exists_validateDocument_eq h.implements doc
      obtain ⟨l', hl', herrors'⟩ := Schema.Validator.exists_validateDocument_eq h.implements' doc
      have herror : kit'.validator.error = kit.validator.error := by
        funext f
        rw [Schema.Validator.error, Schema.Validator.error, h.text]
      exact Or.inr ⟨l, l', hl.of_common hl', herrors, herror ▸ herrors'⟩

/-- Whether the document format is kept does not depend on the run. -/
theorem schemaErrors_eq_nil (h : kit.Alike kit') (hvalid : d.schemaErrors kit path = []) :
    d.schemaErrors kit' path = [] := by
  rcases h.schemaErrors_cases d path with heq | ⟨l, l', hsame, herrors, herrors'⟩
  · rw [heq, hvalid]
  · rw [herrors, List.map_eq_nil_iff, hsame.eq_nil_iff] at hvalid
    rw [herrors', hvalid, List.map_nil]

/-- **Two runs end alike**: at the same stage, with the same errors but for their order, and with
the same warnings. -/
theorem exists_ends (h : kit.Alike kit') (hends : d.Ends kit path schemaOnly e) :
    ∃ e', d.Ends kit' path schemaOnly e' ∧ e'.schemaValid = e.schemaValid ∧
      SameErrors kit.validator path (e.errors path) (e'.errors path) ∧
      ∀ passes o, e'.warnings passes o = e.warnings passes o := by
  cases hends with
  | refused refuses => exact ⟨_, .refused refuses, rfl, .refl _, fun _ _ ↦ rfl⟩
  | @malformed err rest there invalid =>
    rcases h.schemaErrors_cases d path with heq | ⟨l, l', hsame, herrors, herrors'⟩
    · exact ⟨_, .malformed there (heq.trans invalid), rfl, .refl _, fun _ _ ↦ rfl⟩
    · -- both runs list the same failures, so the other one lists some too
      rw [invalid] at herrors
      have hne : l' ≠ [] := by
        rw [ne_eq, ← hsame.eq_nil_iff]
        rintro rfl
        exact absurd herrors (List.cons_ne_nil _ _)
      obtain ⟨f, fs, rfl⟩ := List.exists_cons_of_ne_nil hne
      refine ⟨_, .malformed there herrors', rfl, ?_, fun _ _ ↦ rfl⟩
      rw [Ending.errors, Ending.errors, herrors, ← List.map_cons, List.map_map, List.map_map]
      exact .rearranged hsame
  | validated there valid stops =>
    exact ⟨_, .validated there (h.schemaErrors_eq_nil valid) stops, rfl, .refl _, fun _ _ ↦ rfl⟩
  | undecoded there valid goesOn fails =>
    exact ⟨_, .undecoded there (h.schemaErrors_eq_nil valid) goesOn
      ((h.loadForm_eq d path).trans fails), rfl, .refl _, fun _ _ ↦ rfl⟩
  | analysed there valid goesOn loads verdict =>
    exact ⟨_, .analysed there (h.schemaErrors_eq_nil valid) goesOn
      ((h.loadForm_eq d path).trans loads) verdict, rfl, .refl _, fun _ _ ↦ rfl⟩

end Toolkit.Alike

/-! ### Another order -/

namespace Schema.Validator

/-- A validator that gives the causes of an error from the last to the first. -/
def backwards : Validator where
  validate j :=
    match look j (.inPlace formSchema) [] with
    | [] => .valid
    | causes => .invalid (.mk [] .schema causes.reverse)
  text := standard.text
  complaint := standard.complaint

theorem backwards_implements : backwards.Implements formSchema where
  valid j h := by
    rw [failures_eq_nil_iff] at h
    simp only [backwards, h]
  invalid j h := by
    have hcauses : look j (.inPlace formSchema) [] ≠ [] := mt failures_eq_nil_iff.2 h
    refine ⟨.mk [] .schema (look j (.inPlace formSchema) []).reverse, ?_, ?_⟩
    · simp only [backwards]
    · rw [ValidationError.leaves_of_causes _ _ (mt List.reverse_eq_nil_iff.1 hcauses),
        ValidationError.leavesAll_eq_flatMap]
      refine ⟨_, List.forall₂_same.2 fun _ _ ↦ ⟨rfl, .refl _⟩, ?_⟩
      rw [failures, ValidationError.leavesAll_eq_flatMap]
      exact (List.reverse_perm _).flatMap_right _
  text := standard_implements.text

end Schema.Validator

/-- The tools at hand with that validator. -/
def Toolkit.backwards : Toolkit where
  validator := .backwards
  readYaml := standard.readYaml
  readEnvironment := standard.readEnvironment

theorem Toolkit.standard_alike_backwards : standard.Alike backwards :=
  ⟨Schema.standard_implements, Schema.Validator.backwards_implements, rfl, rfl, rfl, rfl⟩

/-! ### Options -/

/-- How many documents are checked at a time is of no matter to any of them. -/
theorem Disk.check_jobs (d : Disk) (kit : Toolkit) (passes : List LintPass) (o : CheckOptions)
    (jobs : Int64) (path : String) :
    d.check kit passes { o with jobs } path = d.check kit passes o path :=
  rfl

/-- **Options on lint passes select warnings** and do nothing else, where the passes only warn. Take
any two options that go equally far. Two runs agree on the document format, and on the errors but
for the order of those of the document format and of the names in them; with the same tools the
errors are the same list. The warnings of some of the built-in passes, in whatever order and however
often they are named, are those among the warnings of all of them that are of their kinds. -/
theorem Disk.check_options {kit kit' : Toolkit} {passes : List LintPass} (hkits : kit.Alike kit')
    (hwarn : LintPass.OnlyWarn passes) (d : Disk) (path : String) :
    (∀ o o' : CheckOptions, o.schemaOnly = o'.schemaOnly →
      (d.check kit passes o path).schemaValid = (d.check kit' passes o' path).schemaValid ∧
        (d.check kit passes o path).errors = (d.check kit passes o' path).errors ∧
        SameErrors kit.validator path (d.check kit passes o path).errors
          (d.check kit' passes o' path).errors) ∧
    ∀ o : CheckOptions, o.passes ≠ [] →
      (d.check kit LintPass.builtin o path).warnings =
        (d.check kit' LintPass.builtin { o with passes := [] } path).warnings.filter
          (Finding.isOf o.passes) := by
  constructor
  · intro o o' hgoes
    obtain ⟨e, he⟩ := d.exists_ends kit path o.schemaOnly
    have heOther : d.Ends kit path o'.schemaOnly e := hgoes ▸ he
    obtain ⟨e', he', hvalid, herrors, -⟩ := hkits.exists_ends heOther
    refine ⟨?_, ?_, ?_⟩
    · rw [he.schemaValid_check, he'.schemaValid_check, hvalid]
    · rw [he.errors_check hwarn, heOther.errors_check hwarn]
    · rw [he.errors_check hwarn, he'.errors_check hwarn]
      exact herrors
  · intro o hsome
    obtain ⟨e, he⟩ := d.exists_ends kit path o.schemaOnly
    obtain ⟨e', he', -, -, hwarnings⟩ := hkits.exists_ends he
    have heAll : d.Ends kit' path { o with passes := [] }.schemaOnly e' := he'
    rw [he.warnings_check LintPass.onlyWarn_builtin,
      heAll.warnings_check LintPass.onlyWarn_builtin, hwarnings]
    exact e.warnings_eq_filter hsome

-- a text is read one call deeper for each of its characters
set_option maxRecDepth 4000

/-- A condition that is always true and shows nothing, and a calculated question that is the same
always. -/
def idleText : String :=
  "\x7b\"statements\":[\x7b\"kind\":\"condition\",\"line\":1,\"column\":1,
   \"guard\":\x7b\"kind\":\"literal\",\"line\":1,\"column\":4,\"type\":\"boolean\",
   \"value\":true\x7d,\"body\":[]\x7d,
   \x7b\"kind\":\"calculated\",\"line\":2,\"column\":1,\"id\":\"n\",
   \"type\":\"integer\",\"label\":\"N\",\"expression\":\x7b\"kind\":\"literal\",
   \"line\":2,\"column\":5,\"type\":\"integer\",\"value\":1\x7d\x7d]\x7d"

/-- Some options for it, which name one of the passes twice. -/
def idleOptions : CheckOptions where
  passes := ["conditions", "labels", "conditions"]

/-- A document whose name and file are numbers. -/
def numberedText : String :=
  "\x7b\"name\":1,\"file\":2,\"statements\":[]\x7d"

theorem Disk.check_options_idleText :
    Toolkit.standard.Alike .backwards ∧ LintPass.OnlyWarn LintPass.builtin ∧
      SameErrors .standard "form.json"
        ((diskOf numberedText.toList).check .standard LintPass.builtin {} "form.json").errors
        ((diskOf numberedText.toList).check .backwards LintPass.builtin idleOptions
          "form.json").errors ∧
      ((diskOf idleText.toList).check .backwards LintPass.builtin {} "idle.json").warnings.map
        (·.kind) = [.emptyCondition, .constantCondition, .constantCalculation] ∧
      idleOptions.passes ≠ [] ∧
      ((diskOf idleText.toList).check .standard LintPass.builtin idleOptions
        "idle.json").warnings =
        ((diskOf idleText.toList).check .backwards LintPass.builtin {}
          "idle.json").warnings.filter (Finding.isOf idleOptions.passes) := by
  have hkits := Toolkit.standard_alike_backwards
  have hwarn := LintPass.onlyWarn_builtin
  have hwarnings :
      ((diskOf idleText.toList).check .backwards LintPass.builtin {} "idle.json").warnings.map
        (·.kind) = [.emptyCondition, .constantCondition, .constantCalculation] := by
    rw [idleText, String.toList_ofList]
    decide +kernel
  have hsome : idleOptions.passes ≠ [] := by decide
  have herrors := (check_options hkits hwarn (diskOf numberedText.toList) "form.json").1
  have hselects := (check_options hkits hwarn (diskOf idleText.toList) "idle.json").2
  exact ⟨hkits, hwarn, (herrors {} idleOptions rfl).2.2, hwarnings, hsome,
    hselects idleOptions hsome⟩

/-- A form without statements. -/
def bareText : String :=
  "\x7b\"statements\":[]\x7d"

/-- A pass that finds an error in every form. -/
def reviewPass : LintPass where
  name := "review"
  run f _ := [.error ⟨"review"⟩ "not reviewed" { file := f.file }]

/-- **Errors are not fixed by the document.** With the same options, two runs list the errors of the
document format in different orders. And where a pass is there that finds errors, options that go
equally far make a difference to the errors. -/
theorem Disk.errors_not_fixed_by_document :
    (Toolkit.standard.Alike .backwards ∧
      ((diskOf numberedText.toList).check .standard LintPass.builtin {} "form.json").errors ≠
        ((diskOf numberedText.toList).check .backwards LintPass.builtin {} "form.json").errors) ∧
    ((diskOf bareText.toList).check .standard (LintPass.builtin ++ [reviewPass]) {}
        "form.json").errors ≠
      ((diskOf bareText.toList).check .standard (LintPass.builtin ++ [reviewPass])
        { noWarnings := true } "form.json").errors := by
  refine ⟨⟨Toolkit.standard_alike_backwards, ?_⟩, ?_⟩
  · rw [numberedText, String.toList_ofList]
    decide +kernel
  · rw [bareText, String.toList_ofList]
    decide +kernel

end Questionnaire
