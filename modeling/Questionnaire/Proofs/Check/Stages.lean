import Questionnaire.Proofs.Document.Decoded
import Questionnaire.Proofs.Findings

/-!
# How checks end

A check goes through its stages until one of them ends it. `Disk.Ends` says by rules which stage
that is and with what (`Ending`), in terms of what is found before the lint passes and of nothing
else: of the options only `schemaOnly` matters. Every check ends in some way (`Disk.exists_ends`),
and the report follows from it (`Disk.Ends.check_eq`).

What holds of every report is then read off five reports. With lint passes that only warn
(`LintPass.OnlyWarn`), as those that are built in do, the errors are those of the last stage and the
warnings those of the passes.
-/

namespace Questionnaire

/-! ### Reports -/

namespace Report

variable {r : Report}

theorem addAll_append (r : Report) (es es' : List Finding) :
    r.addAll (es ++ es') = (r.addAll es).addAll es' :=
  List.foldl_append

theorem schemaValid_add (r : Report) (e : Finding) : (r.add e).schemaValid = r.schemaValid := by
  rw [add]
  split <;> rfl

theorem schemaValid_addAll (es : List Finding) :
    ∀ r : Report, (r.addAll es).schemaValid = r.schemaValid := by
  induction es with
  | nil => exact fun r ↦ rfl
  | cons e rest ih => exact fun r ↦ (ih (r.add e)).trans (r.schemaValid_add e)

theorem errors_add (r : Report) (e : Finding) :
    (r.add e).errors = r.errors ++ [e].filter (·.severity = .error) := by
  rw [add]
  cases h : e.severity <;> simp [h]

/-- Of some findings, a report lists the errors under its errors. -/
theorem errors_addAll (es : List Finding) :
    ∀ r : Report, (r.addAll es).errors = r.errors ++ es.filter (·.severity = .error) := by
  induction es with
  | nil => exact fun r ↦ (List.append_nil _).symm
  | cons e rest ih =>
    intro r
    have hrest := ih (r.add e)
    rw [errors_add, List.append_assoc, ← List.filter_append] at hrest
    exact hrest

theorem warnings_add (r : Report) (e : Finding) :
    (r.add e).warnings = r.warnings ++ [e].filter (·.severity = .warning) := by
  rw [add]
  cases h : e.severity <;> simp [h]

/-- Of some findings, a report lists the warnings under its warnings. -/
theorem warnings_addAll (es : List Finding) :
    ∀ r : Report, (r.addAll es).warnings = r.warnings ++ es.filter (·.severity = .warning) := by
  induction es with
  | nil => exact fun r ↦ (List.append_nil _).symm
  | cons e rest ih =>
    intro r
    have hrest := ih (r.add e)
    rw [warnings_add, List.append_assoc, ← List.filter_append] at hrest
    exact hrest

theorem filter_severity_eq_self {severity : Severity} {es : List Finding}
    (h : ∀ e ∈ es, e.severity = severity) : es.filter (·.severity = severity) = es :=
  List.filter_eq_self.2 (by simpa using h)

theorem filter_severity_eq_nil {severity severity' : Severity} {es : List Finding}
    (h : ∀ e ∈ es, e.severity = severity') (hne : severity' ≠ severity) :
    es.filter (·.severity = severity) = [] :=
  List.filter_eq_nil_iff.2 fun e he ↦ by simp [h e he, hne]

/-- Errors and warnings that are added to a report without any are its errors and warnings. -/
theorem errors_warnings_addAll {es ws : List Finding} (hes : ∀ e ∈ es, e.severity = .error)
    (hws : ∀ e ∈ ws, e.severity = .warning) (file : String) (schemaValid : Bool) :
    (addAll { file, schemaValid } (es ++ ws)).errors = es ∧
      (addAll { file, schemaValid } (es ++ ws)).warnings = ws := by
  constructor
  · rw [errors_addAll, List.filter_append, filter_severity_eq_self hes,
      filter_severity_eq_nil hws (by decide), List.append_nil]
    rfl
  · rw [warnings_addAll, List.filter_append, filter_severity_eq_self hws,
      filter_severity_eq_nil hes (by decide)]
    rfl

/-- A report whose findings are listed by their severity, and counted. -/
structure Tallied (r : Report) : Prop where
  errorCount : r.errorCount = Int64.ofNat r.errors.length
  warningCount : r.warningCount = Int64.ofNat r.warnings.length
  errors : ∀ e ∈ r.errors, e.severity = .error
  warnings : ∀ e ∈ r.warnings, e.severity = .warning

theorem Tallied.add (h : r.Tallied) (e : Finding) : (r.add e).Tallied := by
  rw [Report.add]
  split
  · next hseverity =>
    refine ⟨?_, h.warningCount, ?_, h.warnings⟩
    · rw [List.length_append, Int64.ofNat_add, ← h.errorCount]
      rfl
    · exact List.forall_mem_append.2 ⟨h.errors, List.forall_mem_singleton.2 hseverity⟩
  · next hseverity =>
    refine ⟨h.errorCount, ?_, h.errors, ?_⟩
    · rw [List.length_append, Int64.ofNat_add, ← h.warningCount]
      rfl
    · exact List.forall_mem_append.2 ⟨h.warnings, List.forall_mem_singleton.2 hseverity⟩
  · exact h

theorem Tallied.addAll (es : List Finding) : ∀ {r : Report}, r.Tallied → (r.addAll es).Tallied := by
  induction es with
  | nil => exact fun h ↦ h
  | cons e rest ih => exact fun h ↦ ih (h.add e)

theorem tallied_empty (file : String) (schemaValid : Bool) :
    ({ file, schemaValid } : Report).Tallied :=
  ⟨rfl, rfl, fun _ he ↦ absurd he List.not_mem_nil, fun _ he ↦ absurd he List.not_mem_nil⟩

end Report

/-! ### Schema errors -/

namespace Schema.Validator

variable {v : Validator}

mutual

theorem parseError_of_mem_collectErrors : ∀ {e : ValidationError} {err : SchemaError},
    err ∈ v.collectErrors e → err.parseError = false
  | .mk _ _ [], err, h => by
    rw [collectErrors] at h
    split at h
    · exact absurd h List.not_mem_nil
    · rw [List.mem_singleton.1 h]
  | .mk _ _ (_ :: _), err, h => by
    rw [collectErrors] at h
    exact parseError_of_mem_collectAll h

theorem parseError_of_mem_collectAll : ∀ {l : List ValidationError} {err : SchemaError},
    err ∈ v.collectAll l → err.parseError = false
  | [], err, h => absurd h (by simp [collectAll])
  | _ :: _, err, h => by
    rw [collectAll, List.mem_append] at h
    rcases h with h | h
    · exact parseError_of_mem_collectErrors h
    · exact parseError_of_mem_collectAll h

end

/-- What is wrong with a document is found once it was read. -/
theorem parseError_of_mem_validateDocument {doc : Json} {err : SchemaError}
    (h : err ∈ v.validateDocument doc) : err.parseError = false := by
  rw [validateDocument] at h
  split at h
  · exact absurd h List.not_mem_nil
  · exact parseError_of_mem_collectErrors h
  · rw [List.mem_singleton.1 h]

end Schema.Validator

/-! ### Endings -/

/-- What ends the stages of a check before the lint passes. -/
inductive Ending where
  /-- Nothing can be told of the path. -/
  | refused (error : FileError)
  /-- The document format is broken. -/
  | malformed (first : Schema.SchemaError) (rest : List Schema.SchemaError)
  /-- No more than the document format was to be checked. -/
  | validated
  /-- The document is no form. -/
  | undecoded (error : LoadError)
  /-- The form has a verdict. -/
  | analysed (form : Form) (verdict : Verdict)

/-- The check of a document ends in some way. A stage is reached only when those before it have
found nothing. -/
inductive Disk.Ends (d : Disk) (kit : Toolkit) (path : String) (schemaOnly : Bool) : Ending → Prop
  | refused {e : FileError} (refuses : d.refusal? path = some e) :
      Ends d kit path schemaOnly (.refused e)
  | malformed {e : Schema.SchemaError} {es : List Schema.SchemaError}
      (there : d.refusal? path = none) (invalid : d.schemaErrors kit path = e :: es) :
      Ends d kit path schemaOnly (.malformed e es)
  | validated (there : d.refusal? path = none) (valid : d.schemaErrors kit path = [])
      (stops : schemaOnly = true) : Ends d kit path schemaOnly .validated
  | undecoded {e : LoadError} (there : d.refusal? path = none)
      (valid : d.schemaErrors kit path = []) (goesOn : schemaOnly = false)
      (fails : d.loadForm kit path = .error e) :
      Ends d kit path schemaOnly (.undecoded e)
  | analysed {f : Form} {v : Verdict} (there : d.refusal? path = none)
      (valid : d.schemaErrors kit path = []) (goesOn : schemaOnly = false)
      (loads : d.loadForm kit path = .ok f) (verdict : f.check = some v) :
      Ends d kit path schemaOnly (.analysed f v)

/-- Whatever the form, some passes give nothing but warnings. -/
def LintPass.OnlyWarn (passes : List LintPass) : Prop :=
  ∀ p ∈ passes, ∀ (f : Form) (symbols : SymbolTable), ∀ e ∈ p.run f symbols, e.severity = .warning

theorem LintPass.onlyWarn_builtin : OnlyWarn builtin :=
  fun _ hp _ _ _ he ↦ (warnedBy_of_mem_builtin hp he).severity

namespace Ending

/-- The warnings of the lint passes that some options select, on a form that has passed. -/
def lintFindings (passes : List LintPass) (o : CheckOptions) (f : Form) (v : Verdict) :
    List Finding :=
  if !v.errors.isEmpty || o.noWarnings then []
  else (passes.filter fun p ↦ o.selects p.name).flatMap fun p ↦ p.run f v.symbols

/-- Whether the document format was found to be kept. -/
def schemaValid : Ending → Bool
  | refused _ | malformed .. => false
  | validated | undecoded _ | analysed .. => true

/-- The errors that the last stage found. -/
def errors (path : String) : Ending → List Finding
  | refused e => [inputFinding path ("cannot access file: " ++ e.message)]
  | malformed e es => (e :: es).map (schemaFinding path)
  | validated => []
  | undecoded e => [inputFinding path ("failed to load form: " ++ e.message)]
  | analysed _ v => v.errors

/-- What the lint passes found. -/
def warnings (passes : List LintPass) (o : CheckOptions) : Ending → List Finding
  | analysed f v => lintFindings passes o f v
  | _ => []

/-- The report on a check. -/
def report (passes : List LintPass) (o : CheckOptions) (path : String) (e : Ending) : Report :=
  Report.addAll { file := path, schemaValid := e.schemaValid }
    (e.errors path ++ e.warnings passes o)

theorem severity_warnings (e : Ending) (o : CheckOptions) {passes : List LintPass}
    (h : LintPass.OnlyWarn passes) : ∀ f ∈ e.warnings passes o, f.severity = .warning := by
  intro f hf
  cases e with
  | analysed form v =>
    rw [warnings, lintFindings] at hf
    split at hf
    · exact absurd hf List.not_mem_nil
    · obtain ⟨p, hp, hf⟩ := List.mem_flatMap.1 hf
      exact h p (List.mem_filter.1 hp).1 form v.symbols f hf
  | refused | malformed | validated | undecoded => exact absurd hf List.not_mem_nil

end Ending

namespace Disk

variable {d : Disk} {kit : Toolkit} {path : String} {passes : List LintPass} {o : CheckOptions}
  {e : Ending}

/-- A form that was loaded was decoded, so it has a verdict. -/
theorem exists_check_of_loadForm {f : Form} (h : d.loadForm kit path = .ok f) :
    ∃ v, f.check = some v := by
  rw [loadForm] at h
  split at h
  · exact absurd h (by simp)
  · split at h
    · exact absurd h (by simp)
    · next decoded hdecode =>
      have hpresent := (Form.whole_of_decode hdecode).proper.operandsPresent
      have hstatements : f.statementsAll = decoded.statementsAll := by
        rw [← Except.ok.inj h]
        split <;> rfl
      apply Form.exists_check_of_operandsPresent
      intro s hs
      exact hpresent s (hstatements ▸ hs)

/-- **Every check ends** in one of these ways. -/
theorem exists_ends (d : Disk) (kit : Toolkit) (path : String) (schemaOnly : Bool) :
    ∃ e, d.Ends kit path schemaOnly e := by
  cases there : d.refusal? path with
  | some err => exact ⟨_, .refused there⟩
  | none =>
    cases valid : d.schemaErrors kit path with
    | cons err rest => exact ⟨_, .malformed there valid⟩
    | nil =>
      cases schemaOnly with
      | true => exact ⟨_, .validated there valid rfl⟩
      | false =>
        cases loads : d.loadForm kit path with
        | error err => exact ⟨_, .undecoded there valid rfl loads⟩
        | ok f =>
          obtain ⟨v, verdict⟩ := exists_check_of_loadForm loads
          exact ⟨_, .analysed there valid rfl loads verdict⟩

theorem report_lint (f : Form) (symbols : SymbolTable) (c : Checked) :
    (lint passes o f symbols c).report = c.report.addAll
      ((passes.filter fun p ↦ o.selects p.name).flatMap fun p ↦ p.run f symbols) := by
  unfold lint
  induction passes.filter fun p ↦ o.selects p.name generalizing c with
  | nil => rfl
  | cons p rest ih => rw [List.foldl_cons, ih, List.flatMap_cons, Report.addAll_append]

theorem report_analyse {f : Form} {v : Verdict} (h : f.check = some v) (c : Checked) :
    (analyse passes o f c).report =
      c.report.addAll (v.errors ++ Ending.lintFindings passes o f v) := by
  rw [analyse, h, Report.addAll_append, Ending.lintFindings]
  dsimp only
  split
  · rfl
  · rw [report_lint]

/-- **The report on a document** follows from how its check ends. -/
theorem Ends.check_eq (h : d.Ends kit path o.schemaOnly e) :
    d.check kit passes o path = e.report passes o path := by
  unfold check checked
  cases h with
  | refused refuses =>
    rw [refuses]
    rfl
  | malformed there invalid =>
    rw [there]
    simp only [invalid, List.isEmpty_cons, Bool.not_false, Bool.true_or, if_true, Ending.report,
      Ending.warnings, List.append_nil]
    rfl
  | validated there valid stops =>
    rw [there]
    simp only [valid, stops, Bool.or_true, if_true]
    rfl
  | undecoded there valid goesOn fails =>
    rw [there]
    simp only [valid, goesOn, load, fails, List.isEmpty_nil, Bool.not_true, Bool.or_self,
      Bool.false_eq_true, if_false]
    rfl
  | analysed there valid goesOn loads verdict =>
    rw [there]
    simp only [valid, goesOn, load, loads, List.isEmpty_nil, Bool.not_true, Bool.or_self,
      Bool.false_eq_true, if_false, report_analyse verdict]
    rfl

/-! ### The lists of a report -/

theorem Ends.severity_errors {schemaOnly : Bool} (h : d.Ends kit path schemaOnly e) :
    ∀ f ∈ e.errors path, f.severity = .error := by
  intro f hf
  cases h with
  | refused | undecoded =>
    rw [List.mem_singleton.1 hf]
    rfl
  | malformed =>
    obtain ⟨err, -, rfl⟩ := List.mem_map.1 hf
    rfl
  | validated => exact absurd hf List.not_mem_nil
  | analysed _ _ _ _ verdict => exact (Form.foundBy_of_check verdict f hf).severity

theorem Ends.schemaValid_check (h : d.Ends kit path o.schemaOnly e) :
    (d.check kit passes o path).schemaValid = e.schemaValid := by
  rw [h.check_eq, Ending.report, Report.schemaValid_addAll]

/-- The findings of a report are listed by their severity and counted, whatever the passes. -/
theorem tallied_check (d : Disk) (kit : Toolkit) (passes : List LintPass) (o : CheckOptions)
    (path : String) : (d.check kit passes o path).Tallied := by
  obtain ⟨e, he⟩ := d.exists_ends kit path o.schemaOnly
  rw [he.check_eq]
  exact (Report.tallied_empty _ _).addAll _

section OnlyWarn

variable (h : d.Ends kit path o.schemaOnly e) (hwarn : LintPass.OnlyWarn passes)

include h hwarn

/-- The errors of a report are those of the stage that ended the check. -/
theorem Ends.errors_check : (d.check kit passes o path).errors = e.errors path := by
  rw [h.check_eq]
  exact (Report.errors_warnings_addAll h.severity_errors (e.severity_warnings o hwarn) _ _).1

/-- The warnings of a report are those of the lint passes. -/
theorem Ends.warnings_check : (d.check kit passes o path).warnings = e.warnings passes o := by
  rw [h.check_eq]
  exact (Report.errors_warnings_addAll h.severity_errors (e.severity_warnings o hwarn) _ _).2

end OnlyWarn

/-- **The stages of a check.** An error in the report on a document stems from the access to its
file, from the document format, from decoding or from the analysis of the form, each of which is
reached only when those before it find nothing. -/
theorem mem_errors_check {f : Finding} (hf : f ∈ (d.check kit LintPass.builtin o path).errors) :
    (∃ err, d.refusal? path = some err ∧
      f = inputFinding path ("cannot access file: " ++ err.message)) ∨
    (d.refusal? path = none ∧ ∃ err ∈ d.schemaErrors kit path, f = schemaFinding path err) ∨
    (d.refusal? path = none ∧ d.schemaErrors kit path = [] ∧
      ((∃ err, d.loadForm kit path = .error err ∧
          f = inputFinding path ("failed to load form: " ++ err.message)) ∨
        ∃ form v, d.loadForm kit path = .ok form ∧ form.check = some v ∧ f ∈ v.errors)) := by
  obtain ⟨e, he⟩ := d.exists_ends kit path o.schemaOnly
  rw [he.errors_check LintPass.onlyWarn_builtin] at hf
  cases he with
  | @refused err refuses => exact Or.inl ⟨err, refuses, List.mem_singleton.1 hf⟩
  | malformed there invalid =>
    obtain ⟨err, herr, rfl⟩ := List.mem_map.1 hf
    exact Or.inr (Or.inl ⟨there, err, invalid ▸ herr, rfl⟩)
  | validated => exact absurd hf List.not_mem_nil
  | @undecoded err there valid _ fails =>
    exact Or.inr (Or.inr ⟨there, valid, Or.inl ⟨err, fails, List.mem_singleton.1 hf⟩⟩)
  | @analysed form v there valid _ loads verdict =>
    exact Or.inr (Or.inr ⟨there, valid, Or.inr ⟨form, v, loads, verdict, hf⟩⟩)

/-- The document format has nothing but one error on a document that cannot be read, or only errors
of a document that was read. -/
theorem schemaErrors_cases (d : Disk) (kit : Toolkit) (path : String) :
    (∃ e, e.parseError = true ∧ d.schemaErrors kit path = [e]) ∨
      ∀ e ∈ d.schemaErrors kit path, e.parseError = false := by
  rw [schemaErrors]
  split
  · exact Or.inl ⟨_, rfl, rfl⟩
  · rw [Schema.Validator.validateText]
    split
    · exact Or.inr fun e he ↦ Schema.Validator.parseError_of_mem_validateDocument he
    · exact Or.inl ⟨_, rfl, rfl⟩

end Disk

end Questionnaire
