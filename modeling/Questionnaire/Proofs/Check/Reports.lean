import Questionnaire.Proofs.Check.Stages
import Questionnaire.Proofs.Document.Canonical

/-!
# Reports

What holds of the report on every document, whatever its text and the options.

`Disk.check_consistent`: a report fits together. Its counts are those of its lists, errors and
warnings are kept apart and do not occur together, and the errors are of one stage, namely those
that the stage found. Nothing is asked of the tools that the check is made with.
-/

namespace Questionnaire

/-! ### Consistency -/

/-- The kinds of errors by the stage that finds them. -/
def Kind.stages : List (List Kind) :=
  [[.input], [.schema], Phase.symbols.kinds, Phase.cycles.kinds, Phase.types.kinds]

/-- No kind of error belongs to two stages. -/
theorem Kind.stages_disjoint : Kind.stages.Pairwise List.Disjoint := by
  have hapart : Kind.stages.Pairwise fun kinds kinds' ↦ ∀ k ∈ kinds, k ∉ kinds' := by decide
  exact hapart.imp fun h k hk hk' ↦ h k hk hk'

theorem Phase.kinds_mem_stages (p : Phase) : p.kinds ∈ Kind.stages := by
  cases p <;> decide

/-- A report that fits together. -/
structure Report.Consistent (r : Report) : Prop where
  tallied : r.Tallied
  /-- There are no warnings where there are errors. -/
  apart : r.errors = [] ∨ r.warnings = []
  /-- All errors stem from one stage. -/
  oneStage : ∃ kinds ∈ Kind.stages, ∀ e ∈ r.errors, e.kind ∈ kinds
  /-- A document with a broken format has errors, which say so. -/
  invalid : r.schemaValid = false →
    r.errors ≠ [] ∧ ((∀ e ∈ r.errors, e.kind = .input) ∨ ∀ e ∈ r.errors, e.kind = .schema)

namespace Disk

variable {d : Disk} {kit : Toolkit} {path : String} {schemaOnly : Bool} {o : CheckOptions}
  {e : Ending}

/-- A document with a broken format has errors of one kind. -/
theorem Ends.kinds_of_invalid (h : d.Ends kit path schemaOnly e)
    (hinvalid : e.schemaValid = false) : e.errors path ≠ [] ∧
      ((∀ f ∈ e.errors path, f.kind = .input) ∨ ∀ f ∈ e.errors path, f.kind = .schema) := by
  cases h with
  | refused =>
    refine ⟨List.cons_ne_nil _ _, Or.inl fun f hf ↦ ?_⟩
    rw [List.mem_singleton.1 hf]
    rfl
  | @malformed err rest there invalid =>
    refine ⟨List.cons_ne_nil _ _, ?_⟩
    have hcases := d.schemaErrors_cases kit path
    rw [invalid] at hcases
    rcases hcases with ⟨only, hparse, hone⟩ | hparsed
    · refine Or.inl fun f hf ↦ ?_
      rw [Ending.errors, hone] at hf
      rw [List.mem_singleton.1 hf]
      exact if_pos hparse
    · refine Or.inr fun f hf ↦ ?_
      obtain ⟨err', herr', rfl⟩ := List.mem_map.1 hf
      exact if_neg (by simp [hparsed err' herr'])
  | validated | undecoded | analysed => exact absurd hinvalid (by simp [Ending.schemaValid])

theorem Ends.oneStage (h : d.Ends kit path schemaOnly e) :
    ∃ kinds ∈ Kind.stages, ∀ f ∈ e.errors path, f.kind ∈ kinds := by
  have hinput : [Kind.input] ∈ Kind.stages := by decide
  have hschema : [Kind.schema] ∈ Kind.stages := by decide
  cases hvalid : e.schemaValid with
  | false =>
    rcases (h.kinds_of_invalid hvalid).2 with hkind | hkind
    · exact ⟨_, hinput, fun f hf ↦ List.mem_singleton.2 (hkind f hf)⟩
    · exact ⟨_, hschema, fun f hf ↦ List.mem_singleton.2 (hkind f hf)⟩
  | true =>
    cases h with
    | refused | malformed => exact absurd hvalid (by simp [Ending.schemaValid])
    | validated => exact ⟨_, hinput, fun f hf ↦ absurd hf List.not_mem_nil⟩
    | undecoded =>
      refine ⟨_, hinput, fun f hf ↦ ?_⟩
      rw [List.mem_singleton.1 hf]
      exact List.mem_cons_self
    | @analysed form v _ _ _ _ verdict =>
      exact ⟨_, v.phase.kinds_mem_stages, fun f hf ↦ (Form.foundBy_of_check verdict f hf).kind⟩

theorem Ends.apart (h : d.Ends kit path schemaOnly e) :
    e.errors path = [] ∨ e.warnings LintPass.builtin o = [] := by
  cases h with
  | refused | malformed | validated | undecoded => exact Or.inr rfl
  | @analysed form v =>
    by_cases hclean : v.errors = []
    · exact Or.inl hclean
    · refine Or.inr ?_
      rw [Ending.warnings, Ending.lintFindings, if_pos]
      simp [hclean]

/-- **Reports are consistent**, whatever the files, the tools, the path and the options. No kind of
error belongs to two stages. Once the form is analysed, the errors of the report are those of its
verdict, in their order. -/
theorem check_consistent (d : Disk) (kit : Toolkit) (o : CheckOptions) (path : String) :
    (d.check kit LintPass.builtin o path).Consistent ∧
    Kind.stages.Pairwise List.Disjoint ∧
    ∀ f, d.refusal? path = none → d.schemaErrors kit path = [] → o.schemaOnly = false →
      d.loadForm kit path = .ok f →
        ∃ v, f.check = some v ∧ (d.check kit LintPass.builtin o path).errors = v.errors := by
  have hwarn := LintPass.onlyWarn_builtin
  obtain ⟨e, he⟩ := d.exists_ends kit path o.schemaOnly
  refine ⟨⟨d.tallied_check kit _ o path, ?_, ?_, ?_⟩, Kind.stages_disjoint, ?_⟩
  · rw [he.errors_check hwarn, he.warnings_check hwarn]
    exact he.apart
  · rw [he.errors_check hwarn]
    exact he.oneStage
  · rw [he.schemaValid_check, he.errors_check hwarn]
    exact he.kinds_of_invalid
  · intro f there valid goesOn loads
    obtain ⟨v, hv⟩ := exists_check_of_loadForm loads
    have hends : d.Ends kit path o.schemaOnly (.analysed f v) :=
      .analysed there valid goesOn loads hv
    exact ⟨v, hv, hends.errors_check hwarn⟩

-- a text is read one call deeper for each of its characters
set_option maxRecDepth 4000

/-- The analysis is reached, and its two errors are those of the report. -/
theorem check_consistent_feeText :
    ∃ f v, (diskOf feeText.toList).refusal? "fee.json" = none ∧
      (diskOf feeText.toList).schemaErrors .standard "fee.json" = [] ∧
      (diskOf feeText.toList).loadForm .standard "fee.json" = .ok f ∧ f.check = some v ∧
      v.errors.map (·.kind) = [.undefinedReference, .invalidConditionType] ∧
      ((diskOf feeText.toList).check .standard LintPass.builtin {} "fee.json").errors =
        v.errors := by
  have hvalid : (diskOf feeText.toList).schemaErrors .standard "fee.json" = [] := by
    rw [feeText, String.toList_ofList]
    decide +kernel
  have hkinds :
      (((diskOf feeText.toList).loadForm .standard "fee.json").toOption.bind Form.check).map
        (fun v ↦ v.errors.map (·.kind)) = some [.undefinedReference, .invalidConditionType] := by
    rw [feeText, String.toList_ofList]
    decide +kernel
  cases hload : (diskOf feeText.toList).loadForm .standard "fee.json" with
  | error err =>
    rw [hload] at hkinds
    cases hkinds
  | ok f =>
    rw [hload] at hkinds
    obtain ⟨v, hv, hkinds⟩ := Option.map_eq_some_iff.1 hkinds
    obtain ⟨v', hv', herrors⟩ :=
      (check_consistent (diskOf feeText.toList) .standard {} "fee.json").2.2 f rfl hvalid rfl hload
    cases hv.symm.trans hv'
    exact ⟨f, v, rfl, hvalid, rfl, hv, hkinds, herrors⟩

end Disk

end Questionnaire
