import Questionnaire.Finding
import Questionnaire.Json.Fields
import Questionnaire.Json.Read
import Questionnaire.Json.Write

/-!
# Reports

A report collects the findings on one document: errors and warnings apart, each with its count. It
is written as plain text, as text with colours, and as JSON, and it is read back from JSON.

A list that the JSON did not give is written as null again for as long as it is empty.
-/

namespace Questionnaire

/-- The findings on a document. -/
structure Report where
  file : String := ""
  schemaValid : Bool := false
  errors : List Finding := []
  warnings : List Finding := []
  errorCount : Int64 := 0
  warningCount : Int64 := 0
  /-- Whether there is a list of errors at all. -/
  errorsGiven : Bool := true
  /-- Whether there is a list of warnings at all. -/
  warningsGiven : Bool := true
  deriving DecidableEq, Inhabited

namespace Report

/-- A report with one more finding. A finding that is neither an error nor a warning is dropped. -/
def add (r : Report) (f : Finding) : Report :=
  match f.severity with
  | .error => { r with errors := r.errors ++ [f], errorCount := r.errorCount + 1 }
  | .warning => { r with warnings := r.warnings ++ [f], warningCount := r.warningCount + 1 }
  | .unknown _ => r

/-- A report with more findings, in order. -/
def addAll (r : Report) (fs : List Finding) : Report :=
  fs.foldl add r

/-- Whether there are errors; the form must then not be shown. -/
def hasErrors (r : Report) : Bool :=
  decide (0 < r.errorCount)

/-- Whether there are warnings. -/
def hasWarnings (r : Report) : Bool :=
  decide (0 < r.warningCount)

/-! ### Text -/

/-- How the parts of a report's text are set off. -/
structure Style where
  header : String → String
  kind : String → String
  severity : Severity → String → String

namespace Style

/-- No part is set off. -/
def plain : Style :=
  { header := fun s ↦ s, kind := fun s ↦ s, severity := fun _ s ↦ s }

/-- A terminal control sequence with the given codes. -/
def control (codes : String) : String :=
  "\x1b[" ++ codes ++ "m"

/-- A text in bold. -/
def bold (s : String) : String :=
  control "1" ++ s ++ control "22"

/-- A text in bold red. -/
def boldRed (s : String) : String :=
  control "31;1" ++ s ++ control "0;22"

/-- A text in yellow. -/
def yellow (s : String) : String :=
  control "33" ++ s ++ control "0"

/-- The file and the kinds are bold, errors are red and warnings yellow. -/
def coloured : Style :=
  { header := bold
    kind := bold
    severity := fun severity s ↦
      match severity with
      | .error => boldRed s
      | .warning => yellow s
      | .unknown _ => s }

end Style

/-- The lines on a finding. -/
def findingText (style : Style) (f : Finding) : String :=
  "  [" ++ style.kind f.kind.name ++ "] " ++ style.severity f.severity f.severity.text ++ ": " ++
    f.message ++ " at " ++ f.location.text ++ "\n" ++
    match f.related with
    | some l => "      see " ++ l.text ++ "\n"
    | none => ""

/-- A report as text: its file, the errors, the warnings and their numbers. -/
def styledText (style : Style) (r : Report) : String :=
  "File: " ++ style.header r.file ++ "\n" ++
    String.join (r.errors.map (findingText style)) ++
    String.join (r.warnings.map (findingText style)) ++
    s!"\n{r.errorCount.toInt} errors, {r.warningCount.toInt} warnings\n"

/-- A report as plain text. -/
def text (r : Report) : String :=
  r.styledText .plain

/-- A report as text with colours. -/
def colouredText (r : Report) : String :=
  r.styledText .coloured

/-! ### Writing JSON -/

/-- A list of findings as a JSON value. -/
def findingsJson (given : Bool) (fs : List Finding) : Json :=
  if fs.isEmpty && !given then .null else .array (fs.map Finding.toJson)

/-- A report as a JSON value. -/
def toJson (r : Report) : Json :=
  .object
    [("file", .string r.file),
      ("schema_valid", .bool r.schemaValid),
      ("errors", findingsJson r.errorsGiven r.errors),
      ("warnings", findingsJson r.warningsGiven r.warnings),
      ("summary", .object
        [("error_count", .int r.errorCount.toInt),
          ("warning_count", .int r.warningCount.toInt)])]

/-- A report as JSON text. -/
def jsonText (r : Report) : String :=
  r.toJson.indented

/-- Several reports as one JSON text. -/
def jsonTextAll (rs : List Report) : String :=
  (Json.array (rs.map toJson)).indented

/-! ### Reading JSON -/

/-- Why a text is no report. -/
inductive ReadError where
  /-- The text is not JSON. -/
  | syntaxError
  /-- A severity is neither `error` nor `warning`. -/
  | unknownSeverity (word : String)
  /-- The text is a JSON value, but no object. -/
  | notObject (mismatch : Json.Mismatch)
  /-- A member is of the wrong kind. -/
  | wrongKind (mismatch : Json.Mismatch)
  deriving DecidableEq

/-- What is said of a text that is no report. -/
def ReadError.message : ReadError → String
  | syntaxError => "failed to parse report JSON"
  | unknownSeverity s => Severity.unknownMessage s
  | notObject m => m.message
  | wrongKind m => m.message

/-- The members of a location. -/
inductive LocationField where
  | file | path | line | column
  deriving DecidableEq

/-- The members of locations by name. -/
def LocationField.byName : List (String × LocationField) :=
  [("file", file), ("path", path), ("line", line), ("column", column)]

/-- A member of a location, over what was there before. -/
def readLocationMember (l : Location) (member : String × Json) : Except Json.Mismatch Location :=
  match Json.field? LocationField.byName member.1 with
  | none => .ok l
  | some .file => (Json.readText l.file member.2).map fun file ↦ { l with file }
  | some .path => (Json.readText l.path member.2).map fun path ↦ { l with path }
  | some .line => (Json.readInt64 l.line member.2).map fun line ↦ { l with line }
  | some .column => (Json.readInt64 l.column member.2).map fun column ↦ { l with column }

/-- A location, over an earlier one. -/
def readLocation (l : Location) : Json → Except Json.Mismatch Location
  | .null => .ok l
  | .object members =>
    members.foldlM (Json.readIn "Location" LocationField.byName readLocationMember) l
  | j => .error (j.mismatch "report.Location")

/-- A severity, over an earlier one; a word that names none is passed over here. -/
def readSeverity (s : Severity) : Json → Except Json.Mismatch Severity
  | .null => .ok s
  | .string word => .ok ((Severity.ofText? word).getD s)
  | j => .error (j.mismatch "report.Severity")

/-- A finding being read, with what longer earlier cycles left over. -/
structure FindingDraft where
  finding : Finding := { kind := ⟨""⟩, severity := .error, message := "", location := {} }
  spare : List String := []
  deriving Inhabited

/-- The members of a finding. -/
inductive FindingField where
  | kind | severity | message | location | name | operator | expected | actual | left | right
  | cycle | related
  deriving DecidableEq

/-- The members of findings by name. -/
def FindingField.byName : List (String × FindingField) :=
  [("kind", kind), ("severity", severity), ("message", message), ("location", location),
    ("name", name), ("operator", operator), ("expected", expected), ("actual", actual),
    ("left", left), ("right", right), ("cycle", cycle), ("related", related)]

/-- A plain member of a finding, over what was there before. -/
def readFindingField (f : Finding) (field : FindingField) (j : Json) :
    Except Json.Mismatch Finding :=
  match field with
  | .kind =>
    ((Json.readText f.kind.name j).mapError (.wanting "report.Kind")).map
      fun name ↦ { f with kind := ⟨name⟩ }
  | .severity => (readSeverity f.severity j).map fun severity ↦ { f with severity }
  | .message => (Json.readText f.message j).map fun message ↦ { f with message }
  | .location => (readLocation f.location j).map fun location ↦ { f with location }
  | .name => (Json.readText f.name j).map fun name ↦ { f with name }
  | .operator => (Json.readText f.operator j).map fun operator ↦ { f with operator }
  | .expected => (Json.readText f.expected j).map fun expected ↦ { f with expected }
  | .actual => (Json.readText f.actual j).map fun actual ↦ { f with actual }
  | .left => (Json.readText f.left j).map fun left ↦ { f with left }
  | .right => (Json.readText f.right j).map fun right ↦ { f with right }
  | .related =>
    match j with
    | .null => .ok { f with related := none }
    | j => (readLocation (f.related.getD {}) j).map fun l ↦ { f with related := some l }
  | .cycle => .ok f

/-- A member of a finding, over what was there before. -/
def readFindingMember (d : FindingDraft) (member : String × Json) :
    Except Json.Mismatch FindingDraft :=
  match Json.field? FindingField.byName member.1 with
  | none => .ok d
  | some .cycle =>
    (Json.readList "[]string" "" Json.readText ⟨d.finding.cycle, d.spare⟩ member.2).map fun l ↦
      { finding := { d.finding with cycle := l.items }, spare := l.spare }
  | some field =>
    (readFindingField d.finding field member.2).map fun finding ↦ { d with finding }

/-- A finding, over an earlier one. -/
def readFinding (d : FindingDraft) : Json → Except Json.Mismatch FindingDraft
  | .null => .ok d
  | .object members =>
    members.foldlM (Json.readIn "Finding" FindingField.byName readFindingMember) d
  | j => .error (j.mismatch "report.Finding")

/-- A list of findings being read: `none` before an array was given. -/
abbrev FindingsDraft := Option (Json.Overlaid FindingDraft)

/-- A list of findings, over an earlier one. -/
def readFindings (old : FindingsDraft) : Json → Except Json.Mismatch FindingsDraft
  | .null => .ok none
  | j => (Json.readList "[]report.Finding" {} readFinding (old.getD {}) j).map some

/-- A report being read. -/
structure Draft where
  file : String := ""
  schemaValid : Bool := false
  errors : FindingsDraft := none
  warnings : FindingsDraft := none
  errorCount : Int64 := 0
  warningCount : Int64 := 0
  deriving Inhabited

/-- The members of a summary by name; the errors' count is marked. -/
def summaryFields : List (String × Bool) :=
  [("error_count", true), ("warning_count", false)]

/-- A member of a summary, over what was there before. -/
def readSummaryMember (d : Draft) (member : String × Json) : Except Json.Mismatch Draft :=
  match Json.field? summaryFields member.1 with
  | none => .ok d
  | some true => (Json.readInt64 d.errorCount member.2).map fun n ↦ { d with errorCount := n }
  | some false => (Json.readInt64 d.warningCount member.2).map fun n ↦ { d with warningCount := n }

/-- The members of a report. -/
inductive Field where
  | file | schemaValid | errors | warnings | summary
  deriving DecidableEq

/-- The members of reports by name. -/
def Field.byName : List (String × Field) :=
  [("file", file), ("schema_valid", schemaValid), ("errors", errors), ("warnings", warnings),
    ("summary", summary)]

/-- A member of a report, over what was there before. -/
def readMember (d : Draft) (member : String × Json) : Except Json.Mismatch Draft :=
  match Json.field? Field.byName member.1 with
  | none => .ok d
  | some .file => (Json.readText d.file member.2).map fun file ↦ { d with file }
  | some .schemaValid =>
    (Json.readBool d.schemaValid member.2).map fun b ↦ { d with schemaValid := b }
  | some .errors => (readFindings d.errors member.2).map fun errors ↦ { d with errors }
  | some .warnings => (readFindings d.warnings member.2).map fun warnings ↦ { d with warnings }
  | some .summary =>
    match member.2 with
    | .null => .ok d
    | .object members => members.foldlM (Json.readIn "Summary" summaryFields readSummaryMember) d
    | j => .error (j.mismatch "report.Summary")

/-- The findings of a list that has been read. -/
def draftFindings (d : FindingsDraft) : List Finding :=
  (d.getD {}).items.map FindingDraft.finding

/-- The report that has been read. -/
def ofDraft (d : Draft) : Report :=
  { file := d.file
    schemaValid := d.schemaValid
    errors := draftFindings d.errors
    warnings := draftFindings d.warnings
    errorCount := d.errorCount
    warningCount := d.warningCount
    errorsGiven := d.errors.isSome
    warningsGiven := d.warnings.isSome }

/-- The items of an array. -/
def itemsOf : Json → List Json
  | .array items => items
  | _ => []

/-- Whether a member of a report holds findings. -/
def holdsFindings (name : String) : Bool :=
  match Json.field? Field.byName name with
  | some .errors => true
  | some .warnings => true
  | _ => false

/-- The word in a member of a finding, if it stands in the place of a severity and names none. -/
def strangeSeverity? (member : String × Json) : Option String :=
  match Json.field? FindingField.byName member.1, member.2 with
  | some .severity, .string word => if (Severity.ofText? word).isNone then some word else none
  | _, _ => none

/-- The first word in a finding that stands in the place of a severity and names none. -/
def strangeSeverityIn? : Json → Option String
  | .object members => members.findSome? strangeSeverity?
  | _ => none

/-- The first word in a report that stands in the place of a severity and names none. -/
def unknownSeverity? : Json → Option String
  | .object members =>
    members.findSome? fun (name, j) ↦
      if holdsFindings name then (itemsOf j).findSome? strangeSeverityIn? else none
  | _ => none

/-- The report that a JSON value describes. A severity that is none is reported before any value of
the wrong kind. -/
def ofJson (j : Json) : Except ReadError Report :=
  match unknownSeverity? j with
  | some word => .error (.unknownSeverity word)
  | none =>
    match j with
    | .null => .ok (ofDraft {})
    | .object members =>
      match members.foldlM (Json.readIn "Report" Field.byName readMember) ({} : Draft) with
      | .ok d => .ok (ofDraft d)
      | .error m => .error (.wrongKind m)
    | j => .error (.notObject (j.mismatch "report.Report"))

/-- The report that a text describes. -/
def parse (text : String) : Except ReadError Report :=
  match Json.parseChars text.toList with
  | none => .error .syntaxError
  | some j => ofJson j

end Report

end Questionnaire
