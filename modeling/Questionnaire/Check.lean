import Questionnaire.Analysis.Lint
import Questionnaire.Analysis.Verdict
import Questionnaire.Files.Document
import Questionnaire.Report

/-!
# Checking documents

A document is checked in stages, each of which ends the check when it finds an error: whether its
file is there, the document format, decoding, the analysis of the form, and last the lint passes,
which can only warn. The report collects what was found, and the trail notes what each stage did.
-/

namespace Questionnaire

/-- A lint pass: what it warns of in a form that has passed the analysis, given its symbols. -/
structure LintPass where
  name : String
  run : Form → SymbolTable → List Finding
  deriving Inhabited

/-- The lint passes there are, in the order they run. -/
def LintPass.builtin : List LintPass :=
  [⟨"labels", fun f _ ↦ Lint.labels f⟩, ⟨"conditions", fun f _ ↦ Lint.conditions f⟩,
    ⟨"calculations", fun f _ ↦ Lint.calculations f⟩]

/-- Which stages and passes run. -/
structure CheckOptions where
  /-- Ends the check after the document format. -/
  schemaOnly : Bool := false
  /-- The passes to run by name; all of them when it is empty. -/
  passes : List String := []
  /-- Runs no pass. -/
  noWarnings : Bool := false
  /-- Makes warnings count as errors for the exit code. -/
  strict : Bool := false
  /-- How many documents are checked at a time; one when it is not positive. -/
  jobs : Int64 := 0
  deriving DecidableEq, Inhabited

/-- Whether a pass is to run. -/
def CheckOptions.selects (o : CheckOptions) (pass : String) : Bool :=
  o.passes.isEmpty || o.passes.contains pass

/-- What a stage did. -/
inductive Step where
  | refused (message : String)
  | validated (findings : Nat)
  | undecoded (message : String)
  | analysed (phase : Phase) (findings : Nat)
  | linted (pass : String) (findings : Nat)
  deriving DecidableEq

/-- The report on a document and what the stages did, in order. -/
structure Checked where
  report : Report
  trail : List Step := []
  deriving Inhabited

/-- The finding on a document that cannot be used. -/
def inputFinding (path message : String) : Finding :=
  .error .input message { file := path }

/-- The finding on an error of the document format. -/
def schemaFinding (path : String) (e : Schema.SchemaError) : Finding :=
  .error (if e.parseError then .input else .schema) e.message { file := path, path := e.path }

namespace Disk

/-- The errors of the document format in a file. -/
def schemaErrors (d : Disk) (kit : Toolkit) (path : String) : List Schema.SchemaError :=
  match d.readDocument kit path with
  | .error e => [{ message := e.message, parseError := true }]
  | .ok text => kit.validator.validateText text

/-- The stage of the lint passes. -/
def lint (passes : List LintPass) (o : CheckOptions) (f : Form) (symbols : SymbolTable)
    (c : Checked) : Checked :=
  (passes.filter fun p ↦ o.selects p.name).foldl
    (fun c p ↦
      let findings := p.run f symbols
      { report := c.report.addAll findings
        trail := c.trail ++ [.linted p.name findings.length] })
    c

/-- The stages from the analysis of a form on. A form that was decoded lacks no operand, so its
analysis has a result. -/
def analyse (passes : List LintPass) (o : CheckOptions) (f : Form) (c : Checked) : Checked :=
  match f.check with
  | none => c
  | some v =>
    let c : Checked :=
      { report := c.report.addAll v.errors
        trail := c.trail ++ [.analysed v.phase v.errors.length] }
    if !v.errors.isEmpty || o.noWarnings then c else lint passes o f v.symbols c

/-- The stages from decoding on. -/
def load (d : Disk) (kit : Toolkit) (passes : List LintPass) (o : CheckOptions) (path : String)
    (c : Checked) : Checked :=
  match d.loadForm kit path with
  | .error e =>
    { report := c.report.add (inputFinding path ("failed to load form: " ++ e.message))
      trail := c.trail ++ [.undecoded e.message] }
  | .ok f => analyse passes o f c

/-- The check of a document. -/
def checked (d : Disk) (kit : Toolkit) (passes : List LintPass) (o : CheckOptions)
    (path : String) : Checked :=
  let report : Report := { file := path }
  match d.refusal? path with
  | some e =>
    { report := report.add (inputFinding path ("cannot access file: " ++ e.message))
      trail := [.refused e.message] }
  | none =>
    let errors := d.schemaErrors kit path
    let c : Checked :=
      { report := { report with schemaValid := errors.isEmpty }.addAll
          (errors.map (schemaFinding path))
        trail := [.validated errors.length] }
    if !errors.isEmpty || o.schemaOnly then c else d.load kit passes o path c

/-- The report on a document. -/
def check (d : Disk) (kit : Toolkit) (passes : List LintPass) (o : CheckOptions)
    (path : String) : Report :=
  (d.checked kit passes o path).report

end Disk

/-! ### Several documents -/

/-- Why several documents have no reports. -/
inductive BatchError where
  | cancelled
  deriving DecidableEq

/-- What is said of documents without reports. -/
def BatchError.message : BatchError → String
  | cancelled => "context canceled"

/-- The checks of several documents, in their order, unless they were cancelled. -/
def Disk.checkedAll (d : Disk) (kit : Toolkit) (passes : List LintPass) (o : CheckOptions)
    (cancelled : Bool) (paths : List String) : Except BatchError (List Checked) :=
  if cancelled then .error .cancelled else .ok (paths.map (d.checked kit passes o))

end Questionnaire
