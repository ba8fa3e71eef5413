import Questionnaire.Command.Run
import Questionnaire.Proofs.Check.Options
import Questionnaire.Proofs.Command.Arguments

/-!
# The exit code

The code of a report is read off the kinds of its findings and off their counts. `Disk.ExitsWith`
says what the code means for the file: whether it cannot be used, has a fault, or neither. The two
agree (`exitsWith_exitCode`) because a check ends with the findings of one stage, and only the
findings of a document that cannot be used are of the kind `input`. The counts are integers of 64
bits, so they tell whether there are findings as long as there are not too many
(`Report.Countable`).

`exit_summarises` is the law of the command: its exit code is the greatest of those that the same
flags have on the files one by one. What it does not depend on follows from that: the order of the
files, how often they are named, and the flags that are about the output. Nor does it depend on the
order in which the validator gives what it finds.
-/

namespace Questionnaire

/-! ### What is wrong with a file -/

/-- A document that cannot be used: its file is out of reach or cannot be read, its text is no JSON,
or it keeps the document format and is no form. Only a check that goes on behind the document format
finds the last. -/
inductive Disk.Unusable (d : Disk) (kit : Toolkit) (schemaOnly : Bool) (path : String) : Prop
  | refused {e : FileError} (refuses : d.refusal? path = some e)
  | unread {e : ReadError} (fails : d.readDocument kit path = .error e)
  | unparsed {text : List Char} (reads : d.readDocument kit path = .ok text)
      (fails : Json.parseChars text = none)
  | undecoded {text : List Char} {e : FormError} (goesOn : schemaOnly = false)
      (reads : d.readDocument kit path = .ok text)
      (valid : kit.validator.validateText text = []) (fails : Form.decode text = .error e)

/-- A document with a fault: it breaks the document format, its form has an error or, where warnings
count, a pass that is to run warns of it. -/
inductive Disk.Faulty (d : Disk) (kit : Toolkit) (o : CheckOptions) (path : String) : Prop
  | malformed {text : List Char} {j : Json} (reads : d.readDocument kit path = .ok text)
      (parses : Json.parseChars text = some j) (invalid : kit.validator.validateDocument j ≠ [])
  | illFormed {f : Form} {v : Verdict} (goesOn : o.schemaOnly = false)
      (loads : d.loadForm kit path = .ok f) (verdict : f.check = some v) (errors : v.errors ≠ [])
  | warned {f : Form} {v : Verdict} {p : LintPass} (counts : o.strict = true)
      (goesOn : o.schemaOnly = false) (loads : d.loadForm kit path = .ok f)
      (verdict : f.check = some v) (lints : o.noWarnings = false) (builtin : p ∈ LintPass.builtin)
      (selected : o.selects p.name = true) (warns : p.run f v.symbols ≠ [])

/-- The exit code for one file. -/
inductive Disk.ExitsWith (d : Disk) (kit : Toolkit) (o : CheckOptions) (path : String) :
    Nat → Prop
  | unusable (unusable : d.Unusable kit o.schemaOnly path) : ExitsWith d kit o path 2
  | faulty (usable : ¬ d.Unusable kit o.schemaOnly path) (faulty : d.Faulty kit o path) :
      ExitsWith d kit o path 1
  | clean (usable : ¬ d.Unusable kit o.schemaOnly path) (clean : ¬ d.Faulty kit o path) :
      ExitsWith d kit o path 0

/-! ### The code of a report -/

namespace Report

/-- A report with no more findings than its counts can tell. -/
structure Countable (r : Report) : Prop where
  errors : r.errors.length < Nat.pow 2 63
  warnings : r.warnings.length < Nat.pow 2 63

theorem ofNat_pos_iff {n : Nat} (h : n < Nat.pow 2 63) : 0 < Int64.ofNat n ↔ n ≠ 0 := by
  rw [Int64.lt_iff_toInt_lt, Int64.toInt_ofNat_of_lt h]
  simp [Nat.pos_iff_ne_zero]

variable {r : Report}

theorem Tallied.hasErrors_iff (h : r.Tallied) (hcount : r.Countable) :
    r.hasErrors = true ↔ r.errors ≠ [] := by
  rw [hasErrors, decide_eq_true_iff, h.errorCount, ofNat_pos_iff hcount.errors, ne_eq,
    List.length_eq_zero_iff]

theorem Tallied.hasWarnings_iff (h : r.Tallied) (hcount : r.Countable) :
    r.hasWarnings = true ↔ r.warnings ≠ [] := by
  rw [hasWarnings, decide_eq_true_iff, h.warningCount, ofNat_pos_iff hcount.warnings, ne_eq,
    List.length_eq_zero_iff]

end Report

namespace Command

variable {strict : Bool} {r : Report}

theorem exitCode_of_input {f : Finding} (h : r.errors = [f]) (hkind : f.kind = .input) :
    exitCode strict r = 2 := by
  have hinput : hasInputError r = true := by
    rw [hasInputError, h, List.any_eq_true]
    exact ⟨f, List.mem_singleton_self f, beq_iff_eq.2 hkind⟩
  rw [exitCode, if_pos hinput]

/-- Without a finding of the kind `input` the code tells whether anything was found that counts. -/
theorem exitCode_of_ne_input (htallied : r.Tallied) (hcount : r.Countable)
    (h : ∀ f ∈ r.errors, f.kind ≠ .input) :
    exitCode strict r =
      if r.errors ≠ [] ∨ (strict = true ∧ r.warnings ≠ []) then 1 else 0 := by
  have hinput : hasInputError r = false := by
    rw [hasInputError, List.any_eq_false]
    exact fun f hf ↦ fun hkind ↦ h f hf (beq_iff_eq.1 hkind)
  simp only [exitCode, hinput, ← htallied.hasErrors_iff hcount, ← htallied.hasWarnings_iff hcount]
  cases r.hasErrors <;> cases strict <;> cases r.hasWarnings <;> rfl

end Command

/-! ### Files one by one -/

namespace Disk

open Command (exitCode exitCode_of_input exitCode_of_ne_input)

variable {d : Disk} {kit : Toolkit} {path : String} {schemaOnly : Bool} {o : CheckOptions}
  {e : Ending}

theorem not_unusable {text : List Char} {j : Json} (there : d.refusal? path = none)
    (reads : d.readDocument kit path = .ok text) (parses : Json.parseChars text = some j)
    (decodes : schemaOnly = false → kit.validator.validateDocument j = [] →
      ∃ f, Form.decode text = .ok f) : ¬ d.Unusable kit schemaOnly path := by
  intro h
  cases h with
  | refused refuses => cases there.symm.trans refuses
  | unread fails => cases reads.symm.trans fails
  | unparsed reads' fails =>
    cases reads.symm.trans reads'
    cases parses.symm.trans fails
  | undecoded goesOn reads' valid fails =>
    cases reads.symm.trans reads'
    rw [Schema.Validator.validateText, parses] at valid
    obtain ⟨f, hf⟩ := decodes goesOn valid
    cases hf.symm.trans fails

/-- What a document is when nothing is wrong with its format. -/
theorem exists_text_of_schemaErrors (h : d.schemaErrors kit path = []) :
    ∃ text j, d.readDocument kit path = .ok text ∧ Json.parseChars text = some j ∧
      kit.validator.validateDocument j = [] := by
  rw [schemaErrors] at h
  split at h
  · exact absurd h (List.cons_ne_nil _ _)
  · next text reads =>
    rw [Schema.Validator.validateText] at h
    split at h
    · next j parses => exact ⟨text, j, reads, parses, h⟩
    · exact absurd h (List.cons_ne_nil _ _)

theorem validate_eq_nil {text : List Char} {j : Json} (valid : d.schemaErrors kit path = [])
    (reads : d.readDocument kit path = .ok text) (parses : Json.parseChars text = some j) :
    kit.validator.validateDocument j = [] := by
  simpa only [schemaErrors, reads, Schema.Validator.validateText, parses] using valid

theorem exists_decode_error {text : List Char} (reads : d.readDocument kit path = .ok text)
    {err : LoadError} (fails : d.loadForm kit path = .error err) :
    ∃ err', Form.decode text = .error err' := by
  cases hdecode : Form.decode text with
  | error err' => exact ⟨err', rfl⟩
  | ok f =>
    simp only [loadForm, reads, hdecode] at fails
    cases fails

theorem exists_decode {text : List Char} (reads : d.readDocument kit path = .ok text) {f : Form}
    (loads : d.loadForm kit path = .ok f) : ∃ f', Form.decode text = .ok f' := by
  cases hdecode : Form.decode text with
  | error err =>
    simp only [loadForm, reads, hdecode] at loads
    cases loads
  | ok f' => exact ⟨f', rfl⟩

/-- A document with a broken format. -/
theorem exitsWith_of_malformed {err : Schema.SchemaError} {rest : List Schema.SchemaError}
    (hcount : (d.check kit LintPass.builtin o path).Countable) (there : d.refusal? path = none)
    (invalid : d.schemaErrors kit path = err :: rest) :
    d.ExitsWith kit o path (exitCode o.strict (d.check kit LintPass.builtin o path)) := by
  have hends : d.Ends kit path o.schemaOnly (.malformed err rest) := .malformed there invalid
  have herrors : (d.check kit LintPass.builtin o path).errors =
      (d.schemaErrors kit path).map (schemaFinding path) := by
    rw [hends.errors_check LintPass.onlyWarn_builtin, invalid]
    rfl
  cases reads : d.readDocument kit path with
  | error err' =>
    rw [schemaErrors, reads] at herrors
    rw [exitCode_of_input herrors rfl]
    exact .unusable (.unread reads)
  | ok text =>
    cases parses : Json.parseChars text with
    | none =>
      simp only [schemaErrors, reads, Schema.Validator.validateText, parses] at herrors
      rw [exitCode_of_input herrors rfl]
      exact .unusable (.unparsed reads parses)
    | some j =>
      simp only [schemaErrors, reads, Schema.Validator.validateText, parses] at herrors invalid
      have hkinds : ∀ f ∈ (d.check kit LintPass.builtin o path).errors, f.kind ≠ .input := by
        intro f hf
        rw [herrors] at hf
        obtain ⟨err', herr', rfl⟩ := List.mem_map.1 hf
        rw [schemaFinding, Schema.Validator.parseError_of_mem_validateDocument herr']
        show Kind.schema ≠ Kind.input
        decide
      have hfaulty : kit.validator.validateDocument j ≠ [] := invalid ▸ List.cons_ne_nil err rest
      rw [exitCode_of_ne_input (d.tallied_check kit _ o path) hcount hkinds, herrors,
        if_pos (.inl (mt List.map_eq_nil_iff.1 hfaulty))]
      exact .faulty (not_unusable there reads parses fun _ valid ↦ absurd valid hfaulty)
        (.malformed reads parses hfaulty)

/-- A document that nothing but the format is checked of. -/
theorem exitsWith_of_validated (hcount : (d.check kit LintPass.builtin o path).Countable)
    (there : d.refusal? path = none) (valid : d.schemaErrors kit path = [])
    (stops : o.schemaOnly = true) :
    d.ExitsWith kit o path (exitCode o.strict (d.check kit LintPass.builtin o path)) := by
  have hends : d.Ends kit path o.schemaOnly .validated := .validated there valid stops
  have hcode : exitCode o.strict (d.check kit LintPass.builtin o path) = 0 := by
    have herrors : (d.check kit LintPass.builtin o path).errors = [] :=
      hends.errors_check LintPass.onlyWarn_builtin
    have hwarnings : (d.check kit LintPass.builtin o path).warnings = [] :=
      hends.warnings_check LintPass.onlyWarn_builtin
    have hkinds : ∀ f ∈ (d.check kit LintPass.builtin o path).errors, f.kind ≠ .input := by
      simp [herrors]
    rw [exitCode_of_ne_input (d.tallied_check kit _ o path) hcount hkinds, herrors, hwarnings]
    simp
  obtain ⟨text, j, reads, parses, -⟩ := exists_text_of_schemaErrors valid
  rw [hcode]
  refine .clean (not_unusable there reads parses fun goesOn _ ↦ ?_) fun hfaulty ↦ ?_
  · cases stops.symm.trans goesOn
  · cases hfaulty with
    | malformed reads parses invalid => exact invalid (validate_eq_nil valid reads parses)
    | illFormed goesOn => cases stops.symm.trans goesOn
    | warned _ goesOn => cases stops.symm.trans goesOn

theorem lintFindings_ne_nil_iff {f : Form} {v : Verdict} (hclean : v.errors = []) :
    Ending.lintFindings LintPass.builtin o f v ≠ [] ↔
      o.noWarnings = false ∧
        ∃ p ∈ LintPass.builtin, o.selects p.name = true ∧ p.run f v.symbols ≠ [] := by
  rw [Ending.lintFindings, hclean]
  cases o.noWarnings with
  | true => simp
  | false => simp

/-- A form that was analysed is at fault when it has errors, or warnings that count. -/
theorem faulty_iff_of_analysed {f : Form} {v : Verdict} (valid : d.schemaErrors kit path = [])
    (goesOn : o.schemaOnly = false) (loads : d.loadForm kit path = .ok f)
    (verdict : f.check = some v) :
    d.Faulty kit o path ↔ v.errors ≠ [] ∨
      (o.strict = true ∧ Ending.lintFindings LintPass.builtin o f v ≠ []) := by
  constructor
  · intro h
    cases h with
    | malformed reads parses invalid => exact absurd (validate_eq_nil valid reads parses) invalid
    | illFormed _ loads' verdict' errors =>
      cases loads.symm.trans loads'
      cases verdict.symm.trans verdict'
      exact .inl errors
    | warned counts _ loads' verdict' lints builtin selected warns =>
      cases loads.symm.trans loads'
      cases verdict.symm.trans verdict'
      by_cases hclean : v.errors = []
      · exact .inr ⟨counts, (lintFindings_ne_nil_iff hclean).2
          ⟨lints, _, builtin, selected, warns⟩⟩
      · exact .inl hclean
  · intro h
    by_cases hclean : v.errors = []
    · obtain ⟨counts, hlint⟩ := h.resolve_left (not_not_intro hclean)
      obtain ⟨lints, p, builtin, selected, warns⟩ := (lintFindings_ne_nil_iff hclean).1 hlint
      exact .warned counts goesOn loads verdict lints builtin selected warns
    · exact .illFormed goesOn loads verdict hclean

/-- **The code of the report on a file** says what is wrong with the file. -/
theorem exitsWith_exitCode (hcount : (d.check kit LintPass.builtin o path).Countable) :
    d.ExitsWith kit o path (exitCode o.strict (d.check kit LintPass.builtin o path)) := by
  obtain ⟨e, he⟩ := d.exists_ends kit path o.schemaOnly
  have herrors := he.errors_check LintPass.onlyWarn_builtin
  have hwarnings := he.warnings_check LintPass.onlyWarn_builtin
  cases he with
  | refused refuses =>
    rw [exitCode_of_input herrors rfl]
    exact .unusable (.refused refuses)
  | malformed there invalid => exact exitsWith_of_malformed hcount there invalid
  | validated there valid stops => exact exitsWith_of_validated hcount there valid stops
  | undecoded there valid goesOn fails =>
    rw [exitCode_of_input herrors rfl]
    obtain ⟨text, j, reads, parses, hvalid⟩ := exists_text_of_schemaErrors valid
    obtain ⟨err, hdecode⟩ := exists_decode_error reads fails
    refine .unusable (.undecoded goesOn reads ?_ hdecode)
    rw [Schema.Validator.validateText, parses]
    exact hvalid
  | @analysed f v there valid goesOn loads verdict =>
    obtain ⟨text, j, reads, parses, -⟩ := exists_text_of_schemaErrors valid
    have husable : ¬ d.Unusable kit o.schemaOnly path :=
      not_unusable there reads parses fun _ _ ↦ exists_decode reads loads
    have hkinds : ∀ f ∈ (d.check kit LintPass.builtin o path).errors, f.kind ≠ .input := by
      intro f hf
      rw [herrors] at hf
      exact (Form.foundBy_of_check verdict f hf).kind_ne_input
    rw [exitCode_of_ne_input (d.tallied_check kit _ o path) hcount hkinds, herrors, hwarnings]
    have hiff : d.Faulty kit o path ↔ _ := faulty_iff_of_analysed valid goesOn loads verdict
    split
    · next h => exact .faulty husable (hiff.2 h)
    · next h => exact .clean husable (mt hiff.1 h)

end Disk

/-! ### The command -/

namespace Command

variable {kit : Toolkit} {disk : Disk} {process : List (String × String)} {args : List String}
  {a : Arguments} {j : Job}

/-- A command line that is carried out: its flags can be read, and with the environment they
describe a job. -/
structure Accepted (kit : Toolkit) (disk : Disk) (process : List (String × String))
    (args : List String) (a : Arguments) (j : Job) : Prop where
  parsed : Arguments.parse flags args = .ok a
  described : Job.ofArguments kit disk process a = .ok j

/-- A job does what its flags say, to the files that follow them. -/
structure Job.Follows (j : Job) (a : Arguments) : Prop where
  files : j.files = a.rest
  options : ∃ passes,
    parsePassFilter (a.textOf .passes) (LintPass.builtin.map LintPass.name) = .ok passes ∧
      j.options = { schemaOnly := a.isOn .schemaOnly, passes := passes.getD [],
                    noWarnings := a.isOn .noWarnings, strict := a.isOn .strict,
                    jobs := j.settings.jobs }

/-- When arguments describe a job, and which. -/
theorem Job.ofArguments_eq_ok_iff :
    Job.ofArguments kit disk process a = .ok j ↔
      a.isOn .version = false ∧ a.rest ≠ [] ∧ ∃ vars settings passes,
        readEnvFile kit disk (a.textOf .envFile) = .ok vars ∧
        Settings.resolve a { process, file := vars } = .ok settings ∧
        parsePassFilter (a.textOf .passes) (LintPass.builtin.map LintPass.name) = .ok passes ∧
        { files := a.rest
          settings
          options :=
            { schemaOnly := a.isOn .schemaOnly
              passes := passes.getD []
              noWarnings := a.isOn .noWarnings
              strict := a.isOn .strict
              jobs := settings.jobs }
          quiet := a.isOn .quiet } = j := by
  rw [Job.ofArguments]
  cases a.isOn .version with
  | true => simp
  | false =>
    cases hrest : a.rest with
    | nil => simp
    | cons file files =>
      cases henv : readEnvFile kit disk (a.textOf .envFile) with
      | error e => simp
      | ok vars =>
        cases hsettings : Settings.resolve a { process, file := vars } with
        | error e => simp [hsettings]
        | ok settings =>
          cases hpasses :
            parsePassFilter (a.textOf .passes) (LintPass.builtin.map LintPass.name) with
          | error e => simp [hsettings, hpasses]
          | ok passes => simp [hsettings, hpasses]

theorem Job.follows_of_ofArguments (h : Job.ofArguments kit disk process a = .ok j) :
    j.Follows a := by
  obtain ⟨-, -, vars, settings, passes, -, -, hpasses, rfl⟩ := ofArguments_eq_ok_iff.1 h
  exact ⟨rfl, passes, hpasses, rfl⟩

theorem Job.files_ne_nil_of_ofArguments (h : Job.ofArguments kit disk process a = .ok j) :
    j.files ≠ [] := by
  obtain ⟨-, hfiles, vars, settings, passes, -, -, -, rfl⟩ := ofArguments_eq_ok_iff.1 h
  exact hfiles

theorem Settings.resolve_rest (files : List String) (env : Environment) :
    Settings.resolve { a with rest := files } env = Settings.resolve a env := by
  have hpick : ∀ s, Settings.pick { a with rest := files } env s = Settings.pick a env s :=
    fun _ ↦ rfl
  simp only [Settings.resolve, hpick]

/-- The flags describe a job on other files as well. -/
theorem Job.ofArguments_rest (h : Job.ofArguments kit disk process a = .ok j) {files : List String}
    (hfiles : files ≠ []) :
    Job.ofArguments kit disk process { a with rest := files } = .ok { j with files } := by
  obtain ⟨hversion, -, vars, settings, passes, henv, hsettings, hpasses, rfl⟩ :=
    ofArguments_eq_ok_iff.1 h
  rw [← Settings.resolve_rest files] at hsettings
  exact ofArguments_eq_ok_iff.2
    ⟨hversion, hfiles, vars, settings, passes, henv, hsettings, hpasses, rfl⟩

theorem Accepted.run_eq (h : Accepted kit disk process args a j) :
    run kit disk process args = j.outcome kit disk := by
  rw [run, Job.parse, h.parsed]
  simp only [h.described]

theorem max?_exitCode {strict : Bool} {reports : List Report} (h : reports ≠ []) :
    (reports.map (exitCode strict)).max? = some (exitCodeAll strict reports) := by
  obtain ⟨r, rest, rfl⟩ := List.exists_cons_of_ne_nil h
  rw [List.map_cons, List.max?_cons', exitCodeAll, List.foldl_cons, Nat.zero_max, List.foldl_map]

/-- Nobody cancels the checks of a job, so its code is that of the reports on its files. -/
theorem Job.exit_outcome (j : Job) (kit : Toolkit) (disk : Disk) :
    (j.outcome kit disk).exit = exitCodeAll j.options.strict
      (j.files.map (disk.check kit LintPass.builtin j.options)) := by
  simp only [Job.outcome, Disk.checkedAll, Bool.false_eq_true, if_false, List.map_map]
  rfl

/-- The exit code is the greatest of those of the reports. -/
theorem Accepted.max?_exit (h : Accepted kit disk process args a j) :
    (j.files.map fun file ↦
      exitCode j.options.strict (disk.check kit LintPass.builtin j.options file)).max? =
        some (run kit disk process args).exit := by
  have hreports : j.files.map (disk.check kit LintPass.builtin j.options) ≠ [] :=
    mt List.map_eq_nil_iff.1 (Job.files_ne_nil_of_ofArguments h.described)
  rw [h.run_eq, j.exit_outcome, ← max?_exitCode hreports, List.map_map]
  rfl

/-- The flags in front of a file alone. -/
theorem Accepted.alone (h : Accepted kit disk process args a j) {options : List String}
    (hoptions : a.IsOptions flags [] args options) (file : String) :
    Accepted kit disk process (options ++ ["--", file]) { a with rest := [file] }
      { j with files := [file] } where
  parsed := by
    rw [Arguments.parse, hoptions.read, Arguments.parseAfter_dashes]
  described := Job.ofArguments_rest h.described (List.cons_ne_nil file [])

/-- The arguments that the exit code depends on: some of the flags, and which files there are. -/
structure Arguments.SameTask (a a' : Arguments) : Prop where
  files : ∀ file, file ∈ a.rest ↔ file ∈ a'.rest
  toggles : ∀ f ∈ [Flag.schemaOnly, .noWarnings, .strict], a.isOn f = a'.isOn f
  passes : a.textOf .passes = a'.textOf .passes

theorem Arguments.SameTask.options_eq {a' : Arguments} {j' : Job} (h : a.SameTask a')
    (hj : j.Follows a) (hj' : j'.Follows a') :
    j'.options = { j.options with jobs := j'.settings.jobs } := by
  obtain ⟨passes, hparse, hoptions⟩ := hj.options
  obtain ⟨passes', hparse', hoptions'⟩ := hj'.options
  obtain rfl : passes' = passes := by
    rw [h.passes, hparse', Except.ok.injEq] at hparse
    exact hparse
  rw [hoptions, hoptions', h.toggles .schemaOnly (by simp), h.toggles .noWarnings (by simp),
    h.toggles .strict (by simp)]

/-- Which files there are settles the code, not their order or number, nor how many are checked at a
time. -/
theorem Accepted.exit_eq {process' : List (String × String)} {args' : List String}
    {a' : Arguments} {j' : Job} (h : Accepted kit disk process args a j)
    (h' : Accepted kit disk process' args' a' j')
    (hfiles : ∀ file, file ∈ j.files ↔ file ∈ j'.files)
    (hoptions : j'.options = { j.options with jobs := j'.settings.jobs }) :
    (run kit disk process' args').exit = (run kit disk process args).exit := by
  obtain ⟨hmem, hle⟩ := List.max?_eq_some_iff.1 h.max?_exit
  obtain ⟨hmem', hle'⟩ := List.max?_eq_some_iff.1 h'.max?_exit
  have hcode : ∀ file,
      exitCode j'.options.strict (disk.check kit LintPass.builtin j'.options file) =
        exitCode j.options.strict (disk.check kit LintPass.builtin j.options file) := by
    intro file
    rw [hoptions, disk.check_jobs]
  have hsame : ∀ code, code ∈ (j.files.map fun file ↦
      exitCode j.options.strict (disk.check kit LintPass.builtin j.options file)) ↔
      code ∈ (j'.files.map fun file ↦
        exitCode j'.options.strict (disk.check kit LintPass.builtin j'.options file)) := by
    intro code
    simp only [List.mem_map, hfiles, hcode]
  exact Nat.le_antisymm (hle _ ((hsame _).2 hmem')) (hle' _ ((hsame _).1 hmem))

/-! ### Runs that find things in different orders -/

theorem any_input_of_sameErrors {v : Schema.Validator} {path : String} {es es' : List Finding}
    (h : SameErrors v path es es') :
    es'.any (fun f ↦ f.kind == .input) = es.any fun f ↦ f.kind == .input := by
  cases h with
  | refl => rfl
  | @rearranged l l' _ =>
    -- the errors of a document that was read are all of the kind `schema`
    have hnone : ∀ l : List Schema.Failure, (l.map fun f ↦ schemaFinding path (v.error f)).any
        (fun f ↦ f.kind == .input) = false := by
      intro l
      rw [List.any_map, List.any_eq_false]
      rintro f - ⟨⟩
    rw [hnone, hnone]

/-- The code of a report does not depend on the order in which things are found. -/
theorem exitCode_alike {kit' : Toolkit} (h : kit.Alike kit') (strict : Bool) (disk : Disk)
    (o : CheckOptions) (path : String) :
    exitCode strict (disk.check kit' LintPass.builtin o path) =
      exitCode strict (disk.check kit LintPass.builtin o path) := by
  have hwarn := LintPass.onlyWarn_builtin
  obtain ⟨e, he⟩ := disk.exists_ends kit path o.schemaOnly
  obtain ⟨e', he', -, hsame, hwarnings⟩ := h.exists_ends he
  have hinput : hasInputError (disk.check kit' LintPass.builtin o path) =
      hasInputError (disk.check kit LintPass.builtin o path) := by
    rw [hasInputError, hasInputError, he.errors_check hwarn, he'.errors_check hwarn]
    exact any_input_of_sameErrors hsame
  have herrors : (disk.check kit' LintPass.builtin o path).hasErrors =
      (disk.check kit LintPass.builtin o path).hasErrors := by
    rw [Report.hasErrors, Report.hasErrors, (disk.tallied_check kit' _ o path).errorCount,
      (disk.tallied_check kit _ o path).errorCount, he.errors_check hwarn, he'.errors_check hwarn,
      hsame.length_eq]
  have hwarned : (disk.check kit' LintPass.builtin o path).hasWarnings =
      (disk.check kit LintPass.builtin o path).hasWarnings := by
    rw [Report.hasWarnings, Report.hasWarnings, (disk.tallied_check kit' _ o path).warningCount,
      (disk.tallied_check kit _ o path).warningCount, he.warnings_check hwarn,
      he'.warnings_check hwarn, hwarnings]
  rw [exitCode, exitCode, hinput, herrors, hwarned]

theorem exit_run_alike {kit' : Toolkit} (h : kit.Alike kit') :
    (run kit' disk process args).exit = (run kit disk process args).exit := by
  have hjob : Job.parse kit' disk process args = Job.parse kit disk process args := by
    simp only [Job.parse, Job.ofArguments, readEnvFile, h.readEnvironment]
  rw [run, run, hjob]
  cases Job.parse kit disk process args with
  | error e => rfl
  | ok j =>
    dsimp only
    rw [j.exit_outcome, j.exit_outcome, exitCodeAll, exitCodeAll, List.foldl_map, List.foldl_map]
    simp only [exitCode_alike h]

/-! ### The law -/

/-- **The exit code is a summary** of the files. A command line that is carried out falls into its
flags and its files. In front of one file alone the flags give the code that says what is wrong with
it, and the greatest of these codes is that of the whole. The two dashes in front of the file matter
only where it looks like a flag.

Hence the code does not change with the order of the files, nor with how often they are named, nor
with the environment and the flags that are about the output. It is the same in a run that finds
things in another order. -/
theorem exit_summarises (h : Accepted kit disk process args a j) :
    j.Follows a ∧
    (∃ options, (options ++ j.files = args ∨ options ++ "--" :: j.files = args) ∧
      (∀ file, Argument.ofText file = .ordinary →
        run kit disk process (options ++ [file]) =
          run kit disk process (options ++ ["--", file])) ∧
      (∀ file, (disk.check kit LintPass.builtin j.options file).Countable →
        disk.ExitsWith kit j.options file
          (run kit disk process (options ++ ["--", file])).exit) ∧
      (j.files.map fun file ↦ (run kit disk process (options ++ ["--", file])).exit).max? =
        some (run kit disk process args).exit) ∧
    (∀ process' args' a' j', Accepted kit disk process' args' a' j' → a.SameTask a' →
      (run kit disk process' args').exit = (run kit disk process args).exit) ∧
    ∀ kit', kit.Alike kit' →
      (run kit' disk process args).exit = (run kit disk process args).exit := by
  have hfollows := Job.follows_of_ofArguments h.described
  refine ⟨hfollows, ?_, ?_, fun kit' hkits ↦ exit_run_alike hkits⟩
  · obtain ⟨options, hoptions⟩ := Arguments.exists_isOptions h.parsed
    have halone : ∀ file, (run kit disk process (options ++ ["--", file])).exit =
        exitCode j.options.strict (disk.check kit LintPass.builtin j.options file) :=
      fun file ↦ (Option.some.inj (h.alone hoptions file).max?_exit).symm
    refine ⟨options, hfollows.files ▸ hoptions.split, ?_, ?_, ?_⟩
    · intro file hfile
      rw [run, run, Job.parse, Job.parse, Arguments.parse, Arguments.parse, hoptions.read,
        hoptions.read, Arguments.parseAfter_dashes, Arguments.parseAfter_ordinary hfile]
    · intro file hcount
      rw [halone]
      exact Disk.exitsWith_exitCode hcount
    · simp only [halone]
      exact h.max?_exit
  · intro process' args' a' j' h' hsame
    have hfollows' := Job.follows_of_ofArguments h'.described
    refine h.exit_eq h' ?_ (hsame.options_eq hfollows hfollows')
    intro file
    rw [hfollows.files, hfollows'.files]
    exact hsame.files file

/-- A disk with one file, whose form has no errors and some warnings. -/
def idleDisk : Disk where
  entry path := if path = "idle.json" then (diskOf idleText.toList).entry path else .refused .absent

/-- A file that is named twice, and one that is not there and looks like a flag. -/
def idleLine : List String :=
  ["-strict", "idle.json", "-gone.json", "idle.json"]

/-- The same files in another order, with other flags and the same task. -/
def quietLine : List String :=
  ["--quiet", "-jobs", "3", "--strict=T", "--", "-gone.json", "idle.json"]

theorem exit_summarises_idleLine :
    ∃ a j a' j', Accepted .standard idleDisk [] idleLine a j ∧
      Accepted .standard idleDisk [("QLCHECK_FORMAT", "json")] quietLine a' j' ∧ a.SameTask a' ∧
      (run .standard idleDisk [] ["-strict", "--", "idle.json"]).exit = 1 ∧
      (run .standard idleDisk [] idleLine).exit = 2 ∧
      (∃ options, idleDisk.ExitsWith .standard j.options "-gone.json"
          (run .standard idleDisk [] (options ++ ["--", "-gone.json"])).exit ∧
        (j.files.map fun file ↦
          (run .standard idleDisk [] (options ++ ["--", file])).exit).max? = some 2) ∧
      (run .standard idleDisk [("QLCHECK_FORMAT", "json")] quietLine).exit = 2 ∧
      (run .backwards idleDisk [] idleLine).exit = 2 := by
  let a : Arguments :=
    { given := [("strict", .toggle true)], rest := ["idle.json", "-gone.json", "idle.json"] }
  let a' : Arguments :=
    { given := [("strict", .toggle true), ("jobs", .number 3), ("quiet", .toggle true)],
      rest := ["-gone.json", "idle.json"] }
  let strictly : CheckOptions := { strict := true, jobs := Settings.jobs {} }
  have h : Accepted .standard idleDisk [] idleLine a { files := a.rest, options := strictly } :=
    ⟨by decide +kernel, by decide +kernel⟩
  have h' : Accepted .standard idleDisk [("QLCHECK_FORMAT", "json")] quietLine a'
      { files := a'.rest, settings := { format := .json, jobs := 3 },
        options := { strict := true, jobs := 3 }, quiet := true } :=
    ⟨by decide +kernel, by decide +kernel⟩
  have hsame : a.SameTask a' := ⟨by simp [a, a', or_comm], by decide +kernel, by decide +kernel⟩
  have hcount : (idleDisk.check .standard LintPass.builtin strictly "-gone.json").Countable :=
    ⟨by decide +kernel, by decide +kernel⟩
  have halone : (run .standard idleDisk [] ["-strict", "--", "idle.json"]).exit = 1 := by
    rw [idleDisk, idleText, String.toList_ofList]
    decide +kernel
  have hexit : (run .standard idleDisk [] idleLine).exit = 2 := by
    rw [idleDisk, idleText, String.toList_ofList]
    decide +kernel
  obtain ⟨-, ⟨options, -, -, hexits, hmax⟩, hstable, hother⟩ := exit_summarises h
  exact ⟨a, _, a', _, h, h', hsame, halone, hexit, ⟨options, hexits _ hcount, hexit ▸ hmax⟩,
    (hstable _ _ _ _ h' hsame).trans hexit,
    (hother .backwards Toolkit.standard_alike_backwards).trans hexit⟩

end Command

end Questionnaire
