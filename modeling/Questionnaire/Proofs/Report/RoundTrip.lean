import Questionnaire.Proofs.Check.Stages
import Questionnaire.Proofs.Json.Indented
import Questionnaire.Proofs.Json.Records

/-!
# Reports are read back from their JSON

A report is written as an object with a member for each of its parts, in which a part that is empty
may be left out, and it is read member by member over a report with nothing in it. A part that was
left out is then as empty as it was. That is the law of every optional member (`foldlM_textMember`,
`foldlM_numberMember`), and records are put together from their members by it: locations, findings
(`readFinding_toJson`), and reports (`ofJson_toJson`).

`json_recovers` is the law of the texts: the JSON of a report, and that of any number of reports,
gives back what it was written from. Only the severities that have a word can be read back. The
findings of a report that was `Built` have such severities, since others are dropped.
-/

namespace Questionnaire

/-! ### Members -/

section Members

variable {ε D : Type} {read : D → String × Json → Except ε D} {d d₁ d₂ : D} {name : String}

theorem foldlM_cons_eq_ok {m : String × Json} {rest : List (String × Json)}
    (h : read d m = .ok d₁) (hrest : rest.foldlM read d₁ = .ok d₂) :
    (m :: rest).foldlM read d = .ok d₂ := by
  rw [List.foldlM_cons, h]
  exact hrest

theorem foldlM_append_eq_ok {l l' : List (String × Json)} (h : l.foldlM read d = .ok d₁)
    (h' : l'.foldlM read d₁ = .ok d₂) : (l ++ l').foldlM read d = .ok d₂ := by
  rw [List.foldlM_append, h]
  exact h'

/-- A text that may be left out is read as it was: it is left out only when there is nothing to
read. -/
theorem foldlM_textMember {s : String} (hread : read d (name, .string s) = .ok d₁)
    (hempty : s = "" → d = d₁) : (Location.textMember name s).foldlM read d = .ok d₁ := by
  unfold Location.textMember
  split
  · next h => exact congrArg Except.ok (hempty (String.isEmpty_iff.1 h))
  · exact foldlM_cons_eq_ok hread rfl

/-- So is a number. -/
theorem foldlM_numberMember {i : Int64} (hread : read d (name, .int i.toInt) = .ok d₁)
    (hzero : i = 0 → d = d₁) : (Location.numberMember name i).foldlM read d = .ok d₁ := by
  unfold Location.numberMember
  split
  · next h => exact congrArg Except.ok (hzero h)
  · exact foldlM_cons_eq_ok hread rfl

end Members

namespace Json

theorem IsTable.field?_eq {F : Type} {table : List (String × F)} (h : IsTable table) (field : F)
    {name : String} (hmem : (name, field) ∈ table) : field? table name = some field :=
  (h.field?_eq_some_iff hmem).2 rfl

/-- Members are read alike whether or not mismatches are told where they are. -/
theorem foldlM_readIn_eq_ok_iff {D F : Type} {record : String} {table : List (String × F)}
    {read : D → String × Json → Except Mismatch D} {d d' : D} {members : List (String × Json)} :
    members.foldlM (readIn record table read) d = .ok d' ↔ members.foldlM read d = .ok d' := by
  induction members generalizing d with
  | nil => exact Iff.rfl
  | cons m rest ih =>
    simp only [List.foldlM_cons, bind_eq_ok_iff, readIn, mapError_eq_ok_iff, ih]

theorem readInt64_int (old i : Int64) : readInt64 old (.int i.toInt) = .ok i := by
  rw [int, readInt64, Numeral.toInt64?_ofInt]

/-- Items that are written one by one are read one by one, each over a fresh one. -/
theorem readItemsOver_map {α β : Type} {fresh : α} {read : α → Json → Except Mismatch α}
    {write : β → Json} {value : β → α} {l : List β}
    (h : ∀ b ∈ l, read fresh (write b) = .ok (value b)) :
    readItemsOver fresh read [] (l.map write) = .ok (l.map value) := by
  induction l with
  | nil => rfl
  | cons b rest ih =>
    obtain ⟨hb, hrest⟩ := List.forall_mem_cons.1 h
    rw [List.map_cons, readItemsOver, List.headD_nil, hb, List.tail_nil, ih hrest]
    rfl

theorem readList_map {α β : Type} {wanted : String} {fresh : α}
    {read : α → Json → Except Mismatch α} {write : β → Json} {value : β → α} {l : List β}
    (h : ∀ b ∈ l, read fresh (write b) = .ok (value b)) :
    readList wanted fresh read {} (.array (l.map write)) = .ok { items := l.map value } := by
  have hspare : spareAfter ([] : List α) (l.map write).length = [] := by
    unfold spareAfter
    split
    · rfl
    · exact List.drop_nil
  simp only [readList, List.append_nil, readItemsOver_map h, hspare]
  rfl

end Json

open Json (IsTable field?)

namespace Report

/-! ### Locations -/

theorem isTable_locationFields : IsTable LocationField.byName where
  names := by decide
  fields := by decide

/-- **A location** is read back. -/
theorem readLocation_toJson (l : Location) : readLocation {} l.toJson = .ok l := by
  have hfield : ∀ field {name}, (name, field) ∈ LocationField.byName →
      field? LocationField.byName name = some field := isTable_locationFields.field?_eq
  rw [Location.toJson, readLocation, Json.foldlM_readIn_eq_ok_iff]
  have hfile : readLocationMember {} ("file", .string l.file) = .ok { file := l.file } := by
    rw [readLocationMember, hfield .file (by simp [LocationField.byName])]
    rfl
  have hpath : readLocationMember { file := l.file } ("path", .string l.path) =
      .ok { file := l.file, path := l.path } := by
    rw [readLocationMember, hfield .path (by simp [LocationField.byName])]
    rfl
  have hline : readLocationMember { file := l.file, path := l.path } ("line", .int l.line.toInt) =
      .ok { file := l.file, path := l.path, line := l.line } := by
    rw [readLocationMember, hfield .line (by simp [LocationField.byName])]
    simp only [Json.readInt64_int]
    rfl
  have hcolumn : readLocationMember { file := l.file, path := l.path, line := l.line }
      ("column", .int l.column.toInt) = .ok l := by
    rw [readLocationMember, hfield .column (by simp [LocationField.byName])]
    simp only [Json.readInt64_int]
    rfl
  refine foldlM_cons_eq_ok hfile (foldlM_append_eq_ok (foldlM_append_eq_ok
    (foldlM_textMember hpath ?_) (foldlM_numberMember hline ?_)) (foldlM_numberMember hcolumn ?_))
  · intro hempty
    rw [hempty]
  · intro hzero
    rw [hzero]
  · intro hzero
    rw [← hzero]

/-! ### Findings -/

theorem isTable_findingFields : IsTable FindingField.byName where
  names := by decide
  fields := by decide

/-- A member of a finding other than its cycle sets a plain field. -/
theorem readFindingMember_eq_ok (field : FindingField) {name : String} {j : Json} {f f' : Finding}
    (hfield : (name, field) ∈ FindingField.byName ∧ field ≠ .cycle)
    (hread : readFindingField f field j = .ok f') :
    readFindingMember { finding := f } (name, j) = .ok { finding := f' } := by
  have hplain : readFindingMember { finding := f } (name, j) =
      (readFindingField f field j).map fun finding ↦ { finding } := by
    rw [readFindingMember, isTable_findingFields.field?_eq field hfield.1]
    cases field with
    | cycle => exact absurd rfl hfield.2
    | _ => rfl
  rw [hplain, hread]
  rfl

/-- A text beside the message, which is left out when it is empty. -/
theorem foldlM_payloadMember (field : FindingField) {name s : String} {f f' : Finding}
    (hfield : (name, field) ∈ FindingField.byName ∧ field ≠ .cycle)
    (hread : readFindingField f field (.string s) = .ok f')
    (hblank : readFindingField f field (.string "") = .ok f) :
    (Location.textMember name s).foldlM readFindingMember { finding := f } =
      .ok { finding := f' } := by
  refine foldlM_textMember (readFindingMember_eq_ok field hfield hread) ?_
  rintro rfl
  rw [Except.ok.inj (hblank.symm.trans hread)]

/-- The ids of a cycle, which are left out when there are none. -/
theorem foldlM_cycleMember {f : Finding} (hnone : f.cycle = []) (cycle : List String) :
    (if cycle.isEmpty then [] else [("cycle", Json.array (cycle.map .string))]).foldlM
      readFindingMember { finding := f } = .ok { finding := { f with cycle } } := by
  split
  · next h =>
    rw [List.isEmpty_iff.1 h, ← hnone]
    rfl
  · have hread : Json.readList "[]string" "" Json.readText {} (.array (cycle.map .string)) =
        .ok { items := cycle.map id } := Json.readList_map fun s _ ↦ rfl
    refine foldlM_cons_eq_ok ?_ rfl
    rw [readFindingMember, isTable_findingFields.field?_eq .cycle (by simp [FindingField.byName])]
    simp only [hnone, hread, List.map_id]
    rfl

/-- Another place, which is left out when there is none. -/
theorem foldlM_relatedMember {f : Finding} (hnone : f.related = none) (related : Option Location) :
    (related.map fun l ↦ ("related", l.toJson)).toList.foldlM readFindingMember { finding := f } =
      .ok { finding := { f with related } } := by
  cases related with
  | none =>
    have hsame : { f with related := none } = f := hnone ▸ rfl
    rw [hsame]
    rfl
  | some l =>
    have hread : readFindingField f .related l.toJson =
        (readLocation (f.related.getD {}) l.toJson).map fun l ↦ { f with related := some l } := rfl
    rw [hnone, Option.getD_none, readLocation_toJson] at hread
    exact foldlM_cons_eq_ok
      (readFindingMember_eq_ok .related (by simp [FindingField.byName]) hread) rfl

theorem readSeverity_text {severity : Severity} (h : severity = .error ∨ severity = .warning)
    (old : Severity) : readSeverity old (.string severity.text) = .ok severity := by
  rcases h with rfl | rfl <;> rfl

/-- The parts of a finding that are always written. -/
theorem foldlM_findingHead (kind : Kind) {severity : Severity}
    (h : severity = .error ∨ severity = .warning) (message : String) (location : Location) :
    [("kind", Json.string kind.name), ("severity", .string severity.text),
        ("message", .string message), ("location", location.toJson)].foldlM readFindingMember {} =
      .ok { finding := { kind, severity, message, location } } := by
  let blank : Finding := ({} : FindingDraft).finding
  have hkind : readFindingField blank .kind (.string kind.name) = .ok { blank with kind } := rfl
  have hseverity : readFindingField { blank with kind } .severity (.string severity.text) =
      .ok { blank with kind, severity } := by
    rw [readFindingField, readSeverity_text h]
    rfl
  have hmessage : readFindingField { blank with kind, severity } .message (.string message) =
      .ok { blank with kind, severity, message } := rfl
  have hlocation : readFindingField { blank with kind, severity, message } .location
      location.toJson = .ok { kind, severity, message, location } := by
    have hread : readLocation blank.location location.toJson = .ok location :=
      readLocation_toJson location
    rw [readFindingField, hread]
    rfl
  refine foldlM_cons_eq_ok (readFindingMember_eq_ok .kind ?_ hkind) <|
    foldlM_cons_eq_ok (readFindingMember_eq_ok .severity ?_ hseverity) <|
    foldlM_cons_eq_ok (readFindingMember_eq_ok .message ?_ hmessage) <|
    foldlM_cons_eq_ok (readFindingMember_eq_ok .location ?_ hlocation) rfl
  all_goals simp [FindingField.byName]

/-- **A finding** with a severity that has a word is read back. -/
theorem readFinding_toJson {f : Finding} (h : f.severity = .error ∨ f.severity = .warning) :
    readFinding {} f.toJson = .ok { finding := f } := by
  rw [Finding.toJson, readFinding, Json.foldlM_readIn_eq_ok_iff]
  simp only [List.append_assoc]
  refine foldlM_append_eq_ok (foldlM_findingHead f.kind h f.message f.location) <|
    foldlM_append_eq_ok (foldlM_payloadMember .name ?_ rfl rfl) <|
    foldlM_append_eq_ok (foldlM_payloadMember .operator ?_ rfl rfl) <|
    foldlM_append_eq_ok (foldlM_payloadMember .expected ?_ rfl rfl) <|
    foldlM_append_eq_ok (foldlM_payloadMember .actual ?_ rfl rfl) <|
    foldlM_append_eq_ok (foldlM_payloadMember .left ?_ rfl rfl) <|
    foldlM_append_eq_ok (foldlM_payloadMember .right ?_ rfl rfl) <|
    foldlM_append_eq_ok (foldlM_cycleMember rfl f.cycle) (foldlM_relatedMember rfl f.related)
  all_goals simp [FindingField.byName]

/-! ### Reports -/

/-- A report whose findings have severities with a word, and whose lists are there. -/
structure Legible (r : Report) : Prop where
  errors : ∀ f ∈ r.errors, f.severity = .error ∨ f.severity = .warning
  warnings : ∀ f ∈ r.warnings, f.severity = .error ∨ f.severity = .warning
  errorsGiven : r.errorsGiven = true
  warningsGiven : r.warningsGiven = true

theorem isTable_fields : IsTable Field.byName where
  names := by decide
  fields := by decide

theorem isTable_summaryFields : IsTable summaryFields where
  names := by decide
  fields := by decide

/-- A list of findings as it is read, with nothing left over. -/
def draftOf (fs : List Finding) : FindingsDraft :=
  some { items := fs.map fun finding ↦ { finding } }

theorem draftFindings_draftOf (fs : List Finding) : draftFindings (draftOf fs) = fs := by
  rw [draftFindings, draftOf, Option.getD_some, List.map_map]
  exact List.map_id fs

theorem readFindings_findingsJson {fs : List Finding}
    (h : ∀ f ∈ fs, f.severity = .error ∨ f.severity = .warning) :
    readFindings none (findingsJson true fs) = .ok (draftOf fs) := by
  have hread : Json.readList "[]report.Finding" {} readFinding {}
      (.array (fs.map Finding.toJson)) = .ok { items := fs.map fun finding ↦ { finding } } :=
    Json.readList_map fun f hf ↦ readFinding_toJson (h f hf)
  rw [findingsJson, Bool.not_true, Bool.and_false, if_neg Bool.false_ne_true]
  simp only [readFindings, Option.getD_none, hread]
  rfl

theorem foldlM_summary (d : Draft) (errorCount warningCount : Int64) :
    [("error_count", Json.int errorCount.toInt), ("warning_count", .int warningCount.toInt)].foldlM
      readSummaryMember d = .ok { d with errorCount, warningCount } := by
  have hcount : ∀ field {name}, (name, field) ∈ summaryFields →
      field? summaryFields name = some field := isTable_summaryFields.field?_eq
  have herrors : readSummaryMember d ("error_count", .int errorCount.toInt) =
      .ok { d with errorCount } := by
    rw [readSummaryMember, hcount true (by simp [summaryFields])]
    simp only [Json.readInt64_int]
    rfl
  have hwarnings : readSummaryMember { d with errorCount }
      ("warning_count", .int warningCount.toInt) = .ok { d with errorCount, warningCount } := by
    rw [readSummaryMember, hcount false (by simp [summaryFields])]
    simp only [Json.readInt64_int]
    rfl
  exact foldlM_cons_eq_ok herrors (foldlM_cons_eq_ok hwarnings rfl)

/-- **The members of a report** give its parts back. -/
theorem foldlM_readMember {r : Report} (h : r.Legible) :
    [("file", Json.string r.file), ("schema_valid", .bool r.schemaValid),
        ("errors", findingsJson r.errorsGiven r.errors),
        ("warnings", findingsJson r.warningsGiven r.warnings),
        ("summary", .object [("error_count", .int r.errorCount.toInt),
          ("warning_count", .int r.warningCount.toInt)])].foldlM readMember {} =
      .ok { file := r.file, schemaValid := r.schemaValid, errors := draftOf r.errors,
            warnings := draftOf r.warnings, errorCount := r.errorCount,
            warningCount := r.warningCount } := by
  have hfield : ∀ field {name}, (name, field) ∈ Field.byName →
      field? Field.byName name = some field := isTable_fields.field?_eq
  let d : Draft := { file := r.file, schemaValid := r.schemaValid }
  have hfile : readMember {} ("file", .string r.file) = .ok { file := r.file } := by
    rw [readMember, hfield .file (by simp [Field.byName])]
    rfl
  have hvalid : readMember { file := r.file } ("schema_valid", .bool r.schemaValid) = .ok d := by
    rw [readMember, hfield .schemaValid (by simp [Field.byName])]
    rfl
  have herrors : readMember d ("errors", findingsJson r.errorsGiven r.errors) =
      .ok { d with errors := draftOf r.errors } := by
    have hread : readFindings d.errors (findingsJson true r.errors) = .ok (draftOf r.errors) :=
      readFindings_findingsJson h.errors
    rw [readMember, hfield .errors (by simp [Field.byName]), h.errorsGiven]
    simp only [hread]
    rfl
  have hwarnings : readMember { d with errors := draftOf r.errors }
      ("warnings", findingsJson r.warningsGiven r.warnings) =
      .ok { d with errors := draftOf r.errors, warnings := draftOf r.warnings } := by
    have hread : readFindings d.warnings (findingsJson true r.warnings) =
        .ok (draftOf r.warnings) := readFindings_findingsJson h.warnings
    rw [readMember, hfield .warnings (by simp [Field.byName]), h.warningsGiven]
    simp only [hread]
    rfl
  refine foldlM_cons_eq_ok hfile (foldlM_cons_eq_ok hvalid (foldlM_cons_eq_ok herrors
    (foldlM_cons_eq_ok hwarnings (foldlM_cons_eq_ok ?_ rfl))))
  rw [readMember, hfield .summary (by simp [Field.byName])]
  exact Json.foldlM_readIn_eq_ok_iff.2 (foldlM_summary _ r.errorCount r.warningCount)

/-! ### What may stand in the JSON of a finding -/

theorem textMember_subset (name s : String) :
    Location.textMember name s ⊆ [(name, .string s)] := by
  unfold Location.textMember
  split
  · exact List.nil_subset _
  · exact List.Subset.refl _

theorem numberMember_subset (name : String) (i : Int64) :
    Location.numberMember name i ⊆ [(name, .int i.toInt)] := by
  unfold Location.numberMember
  split
  · exact List.nil_subset _
  · exact List.Subset.refl _

/-- The members of a finding, with those that may be left out. -/
def findingMembers (f : Finding) : List (String × Json) :=
  [("kind", .string f.kind.name), ("severity", .string f.severity.text),
    ("message", .string f.message), ("location", f.location.toJson), ("name", .string f.name),
    ("operator", .string f.operator), ("expected", .string f.expected),
    ("actual", .string f.actual), ("left", .string f.left), ("right", .string f.right),
    ("cycle", .array (f.cycle.map .string))] ++
    (f.related.map fun l ↦ ("related", l.toJson)).toList

theorem exists_findingMembers (f : Finding) :
    ∃ members ⊆ findingMembers f, f.toJson = .object members := by
  have htext := textMember_subset
  have hcycle : (if f.cycle.isEmpty then [] else [("cycle", Json.array (f.cycle.map .string))]) ⊆
      [("cycle", Json.array (f.cycle.map .string))] := by
    split
    · exact List.nil_subset _
    · exact List.Subset.refl _
  refine ⟨_, fun m hm ↦ ?_, rfl⟩
  simp only [findingMembers, List.mem_append, List.mem_cons, List.not_mem_nil, or_false] at hm ⊢
  grind

theorem strangeSeverity?_eq_none {name : String} {j : Json}
    (h : ∃ field ≠ FindingField.severity, (name, field) ∈ FindingField.byName) :
    strangeSeverity? (name, j) = none := by
  obtain ⟨field, hne, hmem⟩ := h
  rw [strangeSeverity?, isTable_findingFields.field?_eq field hmem]
  cases field with
  | severity => exact absurd rfl hne
  | _ => rfl

/-- The one word in the place of a severity names the severity. -/
theorem strangeSeverityIn?_toJson {f : Finding} (h : f.severity = .error ∨ f.severity = .warning) :
    strangeSeverityIn? f.toJson = none := by
  obtain ⟨members, hsubset, hjson⟩ := exists_findingMembers f
  have hword : strangeSeverity? ("severity", .string f.severity.text) = none := by
    rw [strangeSeverity?,
      isTable_findingFields.field?_eq .severity (by simp [FindingField.byName])]
    rcases h with h | h <;> rw [h] <;> rfl
  rw [hjson, strangeSeverityIn?, List.findSome?_eq_none_iff]
  intro m hm
  obtain hplain | hrelated := List.mem_append.1 (hsubset hm)
  · simp only [List.mem_cons, List.not_mem_nil, or_false] at hplain
    rcases hplain with rfl | rfl | rfl | rfl | rfl | rfl | rfl | rfl | rfl | rfl | rfl
    case inr.inl => exact hword
    all_goals exact strangeSeverity?_eq_none (by simp [FindingField.byName])
  · obtain ⟨l, -, rfl⟩ := Option.map_eq_some_iff.1 (Option.mem_toList.1 hrelated)
    exact strangeSeverity?_eq_none (by simp [FindingField.byName])

theorem unknownSeverity?_toJson {r : Report} (h : r.Legible) :
    unknownSeverity? r.toJson = none := by
  have hlist : ∀ {given} {fs : List Finding},
      (∀ f ∈ fs, f.severity = .error ∨ f.severity = .warning) →
      (itemsOf (findingsJson given fs)).findSome? strangeSeverityIn? = none := by
    intro given fs hfs
    unfold findingsJson
    split
    · rfl
    · rw [itemsOf, List.findSome?_eq_none_iff]
      intro j hj
      obtain ⟨f, hf, rfl⟩ := List.mem_map.1 hj
      exact strangeSeverityIn?_toJson (hfs f hf)
  rw [toJson, unknownSeverity?, List.findSome?_eq_none_iff]
  rintro ⟨name, j⟩ hm
  have hitems : (itemsOf j).findSome? strangeSeverityIn? = none := by
    simp only [List.mem_cons, Prod.mk.injEq, List.not_mem_nil, or_false] at hm
    rcases hm with ⟨-, rfl⟩ | ⟨-, rfl⟩ | ⟨-, rfl⟩ | ⟨-, rfl⟩ | ⟨-, rfl⟩
    · rfl
    · rfl
    · exact hlist h.errors
    · exact hlist h.warnings
    · rfl
  simp only [hitems, ite_self]

/-- **A report** is read back from its JSON. -/
theorem ofJson_toJson {r : Report} (h : r.Legible) : ofJson r.toJson = .ok r := by
  have hseverity := unknownSeverity?_toJson h
  rw [toJson] at hseverity ⊢
  rw [ofJson, hseverity]
  simp only [Json.foldlM_readIn_eq_ok_iff.2 (foldlM_readMember h), ofDraft, draftFindings_draftOf]
  have herrors := h.errorsGiven
  have hwarnings := h.warningsGiven
  obtain ⟨_, _, _, _, _, _, errorsGiven, warningsGiven⟩ := r
  subst herrors hwarnings
  rfl

/-! ### Texts -/

section Texts

open Json (WritableWithin writableWithin_null writableWithin_string writableWithin_bool
  writableWithin_int writableWithin_array writableWithin_object)

theorem writable_location (l : Location) : WritableWithin 1 l.toJson := by
  refine writableWithin_object fun m hm ↦ ?_
  obtain rfl | hrest := List.mem_cons.1 hm
  · exact writableWithin_string l.file
  · simp only [List.mem_append] at hrest
    obtain (hpath | hline) | hcolumn := hrest
    · rw [List.mem_singleton.1 (textMember_subset _ _ hpath)]
      exact writableWithin_string l.path
    · rw [List.mem_singleton.1 (numberMember_subset _ _ hline)]
      exact writableWithin_int l.line.toInt
    · rw [List.mem_singleton.1 (numberMember_subset _ _ hcolumn)]
      exact writableWithin_int l.column.toInt

theorem writable_finding (f : Finding) : WritableWithin 2 f.toJson := by
  obtain ⟨members, hsubset, hjson⟩ := exists_findingMembers f
  rw [hjson]
  refine writableWithin_object fun m hm ↦ ?_
  obtain hplain | hrelated := List.mem_append.1 (hsubset hm)
  · simp only [List.mem_cons, List.not_mem_nil, or_false] at hplain
    rcases hplain with rfl | rfl | rfl | rfl | rfl | rfl | rfl | rfl | rfl | rfl | rfl
    case inr.inr.inr.inl => exact writable_location f.location
    case inr.inr.inr.inr.inr.inr.inr.inr.inr.inr =>
      refine writableWithin_array fun j hj ↦ ?_
      obtain ⟨s, -, rfl⟩ := List.mem_map.1 hj
      exact writableWithin_string s
    all_goals exact writableWithin_string _
  · obtain ⟨l, -, rfl⟩ := Option.map_eq_some_iff.1 (Option.mem_toList.1 hrelated)
    exact writable_location l

theorem writable_findings (given : Bool) (fs : List Finding) :
    WritableWithin 3 (findingsJson given fs) := by
  unfold findingsJson
  split
  · exact writableWithin_null
  · refine writableWithin_array fun j hj ↦ ?_
    obtain ⟨f, -, rfl⟩ := List.mem_map.1 hj
    exact writable_finding f

theorem writable_report (r : Report) : WritableWithin 4 r.toJson := by
  refine writableWithin_object fun m hm ↦ ?_
  simp only [List.mem_cons, List.not_mem_nil, or_false] at hm
  rcases hm with rfl | rfl | rfl | rfl | rfl
  · exact writableWithin_string r.file
  · exact writableWithin_bool r.schemaValid
  · exact writable_findings r.errorsGiven r.errors
  · exact writable_findings r.warningsGiven r.warnings
  · refine writableWithin_object fun m hm ↦ ?_
    simp only [List.mem_cons, List.not_mem_nil, or_false] at hm
    obtain rfl | rfl := hm
    · exact writableWithin_int r.errorCount.toInt
    · exact writableWithin_int r.warningCount.toInt

end Texts

theorem parse_jsonText {r : Report} (h : r.Legible) : parse r.jsonText = .ok r := by
  have hdepth : 4 ≤ Json.maxDepth := by decide
  rw [parse, jsonText, Json.parseChars_indented (writable_report r) hdepth]
  exact ofJson_toJson h

theorem parseChars_jsonTextAll (rs : List Report) :
    Json.parseChars (jsonTextAll rs).toList = some (.array (rs.map toJson)) := by
  have hdepth : 5 ≤ Json.maxDepth := by decide
  have hwritable : Json.WritableWithin 5 (.array (rs.map toJson)) := by
    refine Json.writableWithin_array fun j hj ↦ ?_
    obtain ⟨r, -, rfl⟩ := List.mem_map.1 hj
    exact writable_report r
  exact Json.parseChars_indented hwritable hdepth

theorem mapM_ofJson {rs : List Report} (h : ∀ r ∈ rs, r.Legible) :
    (rs.map toJson).mapM ofJson = .ok rs := by
  induction rs with
  | nil => rfl
  | cons r rest ih =>
    obtain ⟨hr, hrest⟩ := List.forall_mem_cons.1 h
    rw [List.map_cons, List.mapM_cons, ofJson_toJson hr, ih hrest]
    rfl

/-! ### Reports that are built -/

/-- A report that is built from an empty one: its validity is set, and findings are added. -/
inductive Built : Report → Prop
  | empty (file : String) : Built { file }
  | validity {r : Report} (h : Built r) (schemaValid : Bool) : Built { r with schemaValid }
  | add {r : Report} (h : Built r) (f : Finding) : Built (r.add f)

theorem Built.tallied {r : Report} (h : r.Built) : r.Tallied := by
  induction h with
  | empty file => exact tallied_empty file false
  | validity _ _ ih => exact ⟨ih.errorCount, ih.warningCount, ih.errors, ih.warnings⟩
  | add _ f ih => exact ih.add f

theorem Built.given {r : Report} (h : r.Built) :
    r.errorsGiven = true ∧ r.warningsGiven = true := by
  induction h with
  | empty file => exact ⟨rfl, rfl⟩
  | validity _ _ ih => exact ih
  | add _ f ih =>
    rw [Report.add]
    split <;> exact ih

theorem Built.legible {r : Report} (h : r.Built) : r.Legible where
  errors := fun f hf ↦ .inl (h.tallied.errors f hf)
  warnings := fun f hf ↦ .inr (h.tallied.warnings f hf)
  errorsGiven := h.given.1
  warningsGiven := h.given.2

/-- **The JSON of reports loses nothing.** The text of a report that was built is read as that
report, and the text of several is read as all of them, in order. -/
theorem json_recovers :
    (∀ r : Report, r.Built → parse r.jsonText = .ok r) ∧
      ∀ rs : List Report, (∀ r ∈ rs, r.Built) →
        ∃ items, Json.parseChars (jsonTextAll rs).toList = some (.array items) ∧
          items.mapM ofJson = .ok rs := by
  refine ⟨fun r hr ↦ parse_jsonText hr.legible, fun rs hrs ↦ ?_⟩
  exact ⟨rs.map toJson, parseChars_jsonTextAll rs, mapM_ofJson fun r hr ↦ (hrs r hr).legible⟩

/-- Quotes, a backslash, markup, control characters and a line separator, a place without a file,
and a cycle with an empty id. -/
def awkwardFinding : Finding where
  kind := ⟨"\"odd\" \\ kind"⟩
  severity := .warning
  message := "<b>\u2028 & \x01\x7f\n\t"
  location := { file := "", path := "$.body[0]", line := -3 }
  cycle := ["a", "", "a"]
  related := some {}

/-- A report with that finding, and with one that was dropped. -/
def awkwardReport : Report :=
  add ({ add { file := "a\r.json" } { awkwardFinding with severity := .unknown 7 } with
    schemaValid := true }) awkwardFinding

theorem json_recovers_awkward :
    awkwardReport.Built ∧ awkwardReport.warnings = [awkwardFinding] ∧
      parse awkwardReport.jsonText = .ok awkwardReport ∧
      ∃ items, Json.parseChars (jsonTextAll [awkwardReport, {}]).toList = some (.array items) ∧
        items.mapM ofJson = .ok [awkwardReport, {}] := by
  have hbuilt : awkwardReport.Built :=
    .add (.validity (.add (.empty "a\r.json") { awkwardFinding with severity := .unknown 7 }) true)
      awkwardFinding
  refine ⟨hbuilt, rfl, json_recovers.1 awkwardReport hbuilt, json_recovers.2 _ ?_⟩
  exact List.forall_mem_cons.2 ⟨hbuilt, List.forall_mem_singleton.2 (.empty "")⟩

end Report

end Questionnaire
