import Mathlib.Data.List.Induction
import Mathlib.Data.List.Nodup
import Questionnaire.Check
import Questionnaire.Command.PassFilter
import Questionnaire.Proofs.Text.Trimming

/-!
# Which passes a text chooses

A text is cut at its commas into **parts** (`commaParts`), and the parts that are not blank give the
**names** in it (`namesIn`). The names are looked up one after another and each is kept the first
time. What is kept after some names are those names without later repeats; this is what the loop
over them maintains, and `collectPasses_eq_ok_iff` says it of the loop from any moment on.

A filter without names runs all passes, so no text but a blank one may come to that. A text of
commas and white space has no names in it, and is refused.
-/

namespace Questionnaire.Command

open Text (Blank Bare)

variable {s : String} {known : List String}

/-! ### The parts of a text -/

/-- What stands between the commas of a text. -/
def commaParts (s : String) : List String :=
  (s.toList.splitOn ',').map String.ofList

/-- The parts of a text that are not blank, without the white space around them. -/
def namesIn (s : String) : List String :=
  ((commaParts s).filter fun part ↦ ¬ Blank part).map Text.trim

theorem namesIn_ne_nil_iff : namesIn s ≠ [] ↔ ∃ part ∈ commaParts s, ¬ Blank part := by
  simp [namesIn, List.filter_eq_nil_iff]

theorem forall_mem_namesIn {P : String → Prop} :
    (∀ n ∈ namesIn s, P n) ↔ ∀ part ∈ commaParts s, ¬ Blank part → P (Text.trim part) := by
  simp only [namesIn, List.forall_mem_map, List.mem_filter, decide_eq_true_iff, and_imp]

theorem passNames_eq (s : String) : passNames s = namesIn s := by
  have hblank : (fun name ↦ !name.isEmpty) ∘ Text.trim = fun part ↦ decide (¬ Blank part) := by
    funext part
    rw [Function.comp_apply, Bool.eq_iff_iff, decide_eq_true_iff, ← Text.trim_eq_empty_iff,
      ← String.isEmpty_iff, Bool.not_eq_true', Bool.not_eq_true]
  have hmap : (s.toList.splitOn ',').map (fun part ↦ Text.trim (String.ofList part)) =
      (commaParts s).map Text.trim := by
    rw [commaParts, List.map_map]
    rfl
  rw [passNames, hmap, List.filter_map, hblank, namesIn]

theorem subset_of_mem_splitOn {cs : List Char} : ∀ part ∈ cs.splitOn ',', part ⊆ cs := by
  induction cs with
  | nil => simp
  | cons c cs ih =>
    intro part hpart
    rw [List.splitOn_cons_eq_if_modifyHead] at hpart
    split at hpart
    · rcases List.mem_cons.1 hpart with rfl | hpart
      · exact List.nil_subset _
      · exact List.subset_cons_of_subset c (ih part hpart)
    · obtain ⟨first, parts, hparts⟩ := List.exists_cons_of_ne_nil (List.splitOn_ne_nil ',' cs)
      rw [hparts, List.forall_mem_cons] at ih
      rw [hparts, List.modifyHead_cons] at hpart
      rcases List.mem_cons.1 hpart with rfl | hpart
      · exact List.cons_subset_cons c ih.1
      · exact List.subset_cons_of_subset c (ih.2 part hpart)

/-- The parts of a blank text are blank. -/
theorem blank_of_mem_commaParts (h : Blank s) : ∀ part ∈ commaParts s, Blank part := by
  intro part hpart c hc
  rw [commaParts] at hpart
  obtain ⟨cs, hcs, rfl⟩ := List.mem_map.1 hpart
  rw [String.toList_ofList] at hc
  exact h c (subset_of_mem_splitOn cs hcs hc)

/-- Names without commas are the parts of the text that they are joined to. -/
theorem commaParts_intercalate {names : List String} (hne : names ≠ [])
    (h : ∀ n ∈ names, ',' ∉ n.toList) : commaParts (",".intercalate names) = names := by
  have hchars : (",".intercalate names).toList = [','].intercalate (names.map String.toList) :=
    String.toList_intercalate
  rw [commaParts, hchars, List.splitOn_intercalate ',' (by simpa using h) (by simpa using hne),
    List.map_map]
  simp

/-! ### Repeats -/

theorem eraseDups_concat (l : List String) (n : String) :
    (l ++ [n]).eraseDups =
      if l.eraseDups.contains n then l.eraseDups else l.eraseDups ++ [n] := by
  have hcontains : l.eraseDups.contains n = l.contains n := by
    rw [Bool.eq_iff_iff, List.contains_iff_mem, List.contains_iff_mem, List.mem_eraseDups]
  rw [List.eraseDups_append, List.cons_removeAll, List.nil_removeAll, hcontains]
  cases l.contains n with
  | true => exact List.append_nil _
  | false => rfl

theorem nodup_eraseDups (l : List String) : l.eraseDups.Nodup := by
  induction l using List.reverseRecOn with
  | nil => exact List.nodup_nil
  | append_singleton l n ih =>
    rw [eraseDups_concat]
    split
    · exact ih
    · rename_i hnew
      rw [List.contains_iff_mem] at hnew
      rw [← List.concat_eq_append]
      exact ih.concat hnew

theorem eraseDups_eq_self {l : List String} (h : l.Nodup) : l.eraseDups = l := by
  induction l using List.reverseRecOn with
  | nil => rfl
  | append_singleton l n ih =>
    obtain ⟨hl, -, hnew⟩ := List.nodup_append.1 h
    have hn : n ∉ l := fun hmem ↦ hnew n hmem n (List.mem_singleton.2 rfl) rfl
    rw [eraseDups_concat, ih hl, if_neg fun hmem ↦ hn (List.contains_iff_mem.1 hmem)]

theorem eraseDups_eq_nil_iff (l : List String) : l.eraseDups = [] ↔ l = [] := by
  simp only [List.eq_nil_iff_forall_not_mem, List.mem_eraseDups]

/-! ### The loop over the names -/

/-- **The loop from any moment on.** What is kept so far are the names `seen`, without repeats. -/
theorem collectPasses_eq_ok_iff {names seen chosen : List String} :
    collectPasses known seen.eraseDups names = .ok chosen ↔
      (∀ n ∈ names, n ∈ known) ∧ chosen = (seen ++ names).eraseDups := by
  induction names generalizing seen with
  | nil => simp [collectPasses, eq_comm]
  | cons n names ih =>
    rw [collectPasses, ← eraseDups_concat]
    by_cases hn : n ∈ known
    · rw [if_neg (by simpa using hn), ih, List.forall_mem_cons, and_iff_right hn,
        ← List.append_cons]
    · simp [hn]

/-! ### The texts that are accepted -/

theorem parsePassFilter_blank (h : Blank s) : parsePassFilter s known = .ok none :=
  if_pos (String.isEmpty_iff.2 (Text.trim_eq_empty_iff.2 h))

/-- A text that is not blank is accepted when there are names in it and all of them are known. -/
theorem parsePassFilter_eq_ok_iff (h : ¬ Blank s) {chosen : Option (List String)} :
    parsePassFilter s known = .ok chosen ↔
      namesIn s ≠ [] ∧ (∀ n ∈ namesIn s, n ∈ known) ∧ chosen = some (namesIn s).eraseDups := by
  have hsome : ¬ (Text.trim s).isEmpty := by
    rwa [String.isEmpty_iff, Text.trim_eq_empty_iff]
  have hloop : ∀ names, collectPasses known [] (namesIn s) = .ok names ↔
      (∀ n ∈ namesIn s, n ∈ known) ∧ names = (namesIn s).eraseDups :=
    fun names ↦ @collectPasses_eq_ok_iff known (namesIn s) [] names
  rw [parsePassFilter, if_neg hsome, passNames_eq]
  cases hcollect : collectPasses known [] (namesIn s) with
  | error e =>
    have hunknown : ¬ ∀ n ∈ namesIn s, n ∈ known := by
      intro hall
      rw [(hloop _).2 ⟨hall, rfl⟩] at hcollect
      cases hcollect
    simp [hunknown]
  | ok names =>
    obtain ⟨hall, rfl⟩ := (hloop names).1 hcollect
    have hnil := eraseDups_eq_nil_iff (namesIn s)
    cases hkept : (namesIn s).eraseDups with
    | nil =>
      rw [hkept, eq_self, true_iff] at hnil
      simp [hnil]
    | cons n rest =>
      have hne : namesIn s ≠ [] := fun h ↦ by simp [hnil.2 h] at hkept
      simp only [Except.ok.injEq, hne, ne_eq, not_false_eq_true, true_and, and_iff_right hall]
      exact eq_comm

/-- What a pass can be called, so that a text can choose it. -/
structure IsPassName (n : String) : Prop where
  ne_empty : n ≠ ""
  no_comma : ',' ∉ n.toList
  bare : Bare n

instance : DecidablePred IsPassName :=
  fun n ↦ decidable_of_iff (n ≠ "" ∧ ',' ∉ n.toList ∧ Bare n)
    ⟨fun ⟨hne, hcomma, hbare⟩ ↦ ⟨hne, hcomma, hbare⟩, fun h ↦ ⟨h.ne_empty, h.no_comma, h.bare⟩⟩

theorem IsPassName.not_blank {n : String} (h : IsPassName n) : ¬ Blank n :=
  mt h.bare.blank_iff.1 h.ne_empty

/-- Names that are joined can be read off the text again. -/
theorem namesIn_intercalate {names : List String} (hne : names ≠ [])
    (h : ∀ n ∈ names, IsPassName n) : namesIn (",".intercalate names) = names := by
  have hkept : names.filter (fun part ↦ ¬ Blank part) = names :=
    List.filter_eq_self.2 fun n hn ↦ decide_eq_true (h n hn).not_blank
  rw [namesIn, commaParts_intercalate hne fun n hn ↦ (h n hn).no_comma, hkept]
  exact (List.map_congr_left fun n hn ↦ (h n hn).bare.trim_eq).trans (List.map_id names)

theorem not_blank_intercalate {names : List String} (hne : names ≠ [])
    (h : ∀ n ∈ names, IsPassName n) : ¬ Blank (",".intercalate names) := by
  intro hblank
  obtain ⟨n, hn⟩ := List.exists_mem_of_ne_nil names hne
  have hparts := commaParts_intercalate hne fun n hn ↦ (h n hn).no_comma
  exact (h n hn).not_blank (blank_of_mem_commaParts hblank n (hparts.symm ▸ hn))

/-- **A filter holds the known names of its text.** A blank text filters nothing. Any other is
accepted exactly when some part of it is not blank and all that are not blank are known; what it
chooses are the names in it without later repeats, at least one, so that only these passes are run.
Known names can be chosen by joining them with commas. -/
theorem parsePassFilter_normalises (hknown : ∀ n ∈ known, IsPassName n) :
    (∀ s, Blank s → parsePassFilter s known = .ok none) ∧
    (∀ s, ¬ Blank s →
      ((∃ chosen, parsePassFilter s known = .ok chosen) ↔
        (∃ part ∈ commaParts s, ¬ Blank part) ∧
          ∀ part ∈ commaParts s, ¬ Blank part → Text.trim part ∈ known) ∧
      ∀ chosen, parsePassFilter s known = .ok chosen →
        ∃ names, chosen = some names ∧ names = (namesIn s).eraseDups ∧ names ≠ [] ∧ names.Nodup ∧
          (∀ n ∈ names, n ∈ known) ∧
          ∀ pass, CheckOptions.selects { passes := chosen.getD [] } pass = true ↔ pass ∈ names) ∧
    ∀ names : List String, names ≠ [] → names.Nodup → (∀ n ∈ names, n ∈ known) →
      parsePassFilter (",".intercalate names) known = .ok (some names) := by
  refine ⟨fun s h ↦ parsePassFilter_blank h, fun s h ↦ ⟨?_, ?_⟩, fun names hne hnodup hall ↦ ?_⟩
  · rw [← namesIn_ne_nil_iff, ← forall_mem_namesIn]
    simp only [parsePassFilter_eq_ok_iff h, exists_and_left, exists_eq, and_true]
  · intro chosen hchosen
    obtain ⟨hne, hall, rfl⟩ := (parsePassFilter_eq_ok_iff h).1 hchosen
    have hkept : (namesIn s).eraseDups ≠ [] := mt (eraseDups_eq_nil_iff _).1 hne
    refine ⟨_, rfl, rfl, hkept, nodup_eraseDups _, by simpa using hall, fun pass ↦ ?_⟩
    simp [CheckOptions.selects, hkept]
  · have hnames : ∀ n ∈ names, IsPassName n := fun n hn ↦ hknown n (hall n hn)
    rw [parsePassFilter_eq_ok_iff (not_blank_intercalate hne hnames),
      namesIn_intercalate hne hnames, eraseDups_eq_self hnodup]
    exact ⟨hne, hall, rfl⟩

/-- A text with a repeat, an empty part and a blank one. -/
def spacedNames : String :=
  "\u00A0labels ,,calculations, \t,labels"

/-- The text is accepted, and chooses two of the passes there are. They can be chosen the other way
round, too. -/
theorem parsePassFilter_spacedNames :
    (∀ n ∈ LintPass.builtin.map LintPass.name, IsPassName n) ∧ ¬ Blank spacedNames ∧
    parsePassFilter spacedNames (LintPass.builtin.map LintPass.name) =
      .ok (some ["labels", "calculations"]) ∧
    parsePassFilter (",".intercalate ["calculations", "labels"])
      (LintPass.builtin.map LintPass.name) = .ok (some ["calculations", "labels"]) := by
  have hknown : ∀ n ∈ LintPass.builtin.map LintPass.name, IsPassName n := by decide
  have htext : ¬ Blank spacedNames := by decide
  obtain ⟨-, haccepted, hjoined⟩ := parsePassFilter_normalises hknown
  obtain ⟨hiff, hchosen⟩ := haccepted spacedNames htext
  obtain ⟨chosen, hparse⟩ := hiff.2 (by decide +kernel)
  obtain ⟨names, rfl, hnames, -⟩ := hchosen chosen hparse
  have heq : names = ["labels", "calculations"] := hnames.trans (by decide +kernel)
  rw [heq] at hparse
  exact ⟨hknown, htext, hparse,
    hjoined ["calculations", "labels"] (by decide) (by decide) (by decide)⟩

end Questionnaire.Command
