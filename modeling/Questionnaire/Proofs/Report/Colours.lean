import Questionnaire.Proofs.Json.Spelling
import Questionnaire.Report

/-!
# Colours

A control sequence is an escape character, an opening bracket, codes made of digits and semicolons,
and the letter `m`. `stripControls` deletes every such sequence from a text and keeps all else, so
that an escape character with which no sequence starts stays where it is.

A style sets a part of a report off when it puts one control sequence before it and one behind it,
or leaves it alone (`Style.SetsOff`). What a text shows once the sequences are deleted is found part
by part: `Shows` says it whatever follows, since a part that holds no escape character and a whole
control sequence both end before the text that comes next. So a report in any such style shows the
plain text (`shows_styledText`), and the colours are one of these styles.
-/

namespace Questionnaire

namespace Report

/-! ### Control sequences -/

/-- The character that control sequences start with. -/
def escape : Char := '\x1b'

/-- Whether a character can stand in the codes of a control sequence. -/
def isCode (c : Char) : Bool :=
  c.isDigit || c == ';'

/-- What follows a control sequence, given what follows its escape character; nothing if there is no
such sequence. -/
def afterControl? : List Char → Option (List Char)
  | '[' :: rest =>
    match rest.dropWhile isCode with
    | 'm' :: rest' => some rest'
    | _ => none
  | _ => none

theorem length_lt_of_afterControl? {cs rest : List Char} (h : afterControl? cs = some rest) :
    rest.length < cs.length := by
  unfold afterControl? at h
  split at h
  · next inner =>
    split at h
    · next heq =>
      have hsuffix := (List.dropWhile_suffix isCode (l := inner)).length_le
      rw [heq] at hsuffix
      obtain rfl := Option.some.inj h
      simp only [List.length_cons] at hsuffix ⊢
      omega
    · exact absurd h (by simp)
  · exact absurd h (by simp)

/-- Characters without the control sequences among them. -/
def withoutControls : List Char → List Char
  | [] => []
  | c :: rest =>
    if c = escape then
      match _h : afterControl? rest with
      | some rest' => withoutControls rest'
      | none => c :: withoutControls rest
    else c :: withoutControls rest
termination_by cs => cs.length
decreasing_by
  · have := length_lt_of_afterControl? _h
    simp only [List.length_cons]
    omega
  all_goals simp

/-- A text without its control sequences. -/
def stripControls (s : String) : String :=
  String.ofList (withoutControls s.toList)

/-- No escape character stands in a text. -/
def Unescaped (s : String) : Prop :=
  escape ∉ s.toList

instance (s : String) : Decidable (Unescaped s) :=
  inferInstanceAs (Decidable (escape ∉ s.toList))

theorem withoutControls_cons {c : Char} (h : c ≠ escape) (rest : List Char) :
    withoutControls (c :: rest) = c :: withoutControls rest := by
  rw [withoutControls, if_neg h]

/-- A control sequence is deleted, whatever follows it. -/
theorem withoutControls_control {codes : String} (h : ∀ c ∈ codes.toList, isCode c)
    (rest : List Char) :
    withoutControls ((Style.control codes).toList ++ rest) = withoutControls rest := by
  have hchars : (Style.control codes).toList ++ rest =
      escape :: '[' :: (codes.toList ++ 'm' :: rest) := by
    simp [Style.control, escape]
  have hafter : afterControl? ('[' :: (codes.toList ++ 'm' :: rest)) = some rest := by
    have hdrop : (codes.toList ++ 'm' :: rest).dropWhile isCode = 'm' :: rest := by
      rw [List.dropWhile_append_of_pos h, List.dropWhile_cons_of_neg (by decide)]
    rw [afterControl?, hdrop]
    rfl
  rw [hchars, withoutControls, if_pos rfl]
  split
  · next rest' heq => rw [Option.some.inj (heq.symm.trans hafter)]
  · next heq => exact absurd (heq.symm.trans hafter) (by simp)

/-! ### What a text shows -/

/-- Without the control sequences of `s`, and whatever follows `s`, the text `t` is left. -/
def Shows (s t : String) : Prop :=
  ∀ rest, withoutControls (s.toList ++ rest) = t.toList ++ withoutControls rest

namespace Shows

variable {s t s' t' : String}

theorem append (h : Shows s t) (h' : Shows s' t') : Shows (s ++ s') (t ++ t') := by
  intro rest
  rw [String.toList_append, List.append_assoc, h, h', String.toList_append, List.append_assoc]

theorem of_unescaped (h : Unescaped s) : Shows s s := by
  intro rest
  unfold Unescaped at h
  generalize s.toList = cs at h
  induction cs with
  | nil => rfl
  | cons c cs ih =>
    rw [List.mem_cons, not_or] at h
    rw [List.cons_append, withoutControls_cons (Ne.symm h.1), ih h.2, List.cons_append]

theorem control {codes : String} (h : ∀ c ∈ codes.toList, isCode c) :
    Shows (Style.control codes) "" :=
  withoutControls_control h

/-- Texts one after the other show what each of them shows. -/
theorem join {α : Type} {f g : α → String} {l : List α} (h : ∀ a ∈ l, Shows (f a) (g a)) :
    Shows (String.join (l.map f)) (String.join (l.map g)) := by
  induction l with
  | nil => exact fun _ ↦ rfl
  | cons a l ih =>
    obtain ⟨ha, hl⟩ := List.forall_mem_cons.1 h
    rw [List.map_cons, List.map_cons, String.join_cons, String.join_cons]
    exact ha.append (ih hl)

theorem stripControls_eq (h : Shows s t) : stripControls s = t := by
  have hnil := h []
  rw [List.append_nil, withoutControls, List.append_nil] at hnil
  rw [stripControls, hnil, String.ofList_toList]

end Shows

/-! ### Styles -/

/-- A part of a report is set off between two control sequences, or left as it is. -/
def SetsOff (paint : String → String) : Prop :=
  (∃ on off, (∀ c ∈ on.toList, isCode c) ∧ (∀ c ∈ off.toList, isCode c) ∧
    ∀ s, paint s = Style.control on ++ s ++ Style.control off) ∨ ∀ s, paint s = s

theorem SetsOff.shows {paint : String → String} (h : SetsOff paint) {s : String}
    (hs : Unescaped s) : Shows (paint s) s := by
  rcases h with ⟨on, off, hon, hoff, hpaint⟩ | hpaint
  · have hparts := ((Shows.control hon).append (.of_unescaped hs)).append (Shows.control hoff)
    rw [String.empty_append, String.append_empty] at hparts
    rwa [hpaint]
  · rw [hpaint]
    exact .of_unescaped hs

/-- A style that sets each part off or leaves it as it is. -/
structure Style.SetsOff (style : Style) : Prop where
  header : Report.SetsOff style.header
  kind : Report.SetsOff style.kind
  severity : ∀ severity, Report.SetsOff (style.severity severity)

theorem Style.setsOff_coloured : Style.coloured.SetsOff where
  header := .inl ⟨"1", "22", by simp [isCode], by simp [isCode], fun _ ↦ rfl⟩
  kind := .inl ⟨"1", "22", by simp [isCode], by simp [isCode], fun _ ↦ rfl⟩
  severity := fun
    | .error => .inl ⟨"31;1", "0;22", by simp [isCode], by simp [isCode], fun _ ↦ rfl⟩
    | .warning => .inl ⟨"33", "0", by simp [isCode], by simp [isCode], fun _ ↦ rfl⟩
    | .unknown _ => .inr fun _ ↦ rfl

/-! ### Parts without escape characters -/

@[simp]
theorem unescaped_append_iff {s t : String} : Unescaped (s ++ t) ↔ Unescaped s ∧ Unescaped t := by
  simp [Unescaped, not_or]

theorem unescaped_natRepr (n : Nat) : Unescaped (toString n) :=
  fun hmem ↦ absurd ((Json.digits_toString n).2 _ hmem) (by decide)

@[simp]
theorem unescaped_toString (n : Int) : Unescaped (toString n) := by
  cases n with
  | ofNat m => exact unescaped_natRepr m
  | negSucc m =>
    show Unescaped ("-" ++ toString (m + 1))
    exact unescaped_append_iff.2 ⟨by decide, unescaped_natRepr (m + 1)⟩

theorem unescaped_severity (severity : Severity) : Unescaped severity.text := by
  cases severity with
  | error | warning => decide
  | unknown n =>
    show Unescaped ("severity(" ++ toString n ++ ")")
    rw [unescaped_append_iff, unescaped_append_iff]
    exact ⟨⟨by decide, unescaped_toString n⟩, by decide⟩

end Report

/-- No text of a location holds an escape character. -/
structure Location.Unescaped (l : Location) : Prop where
  file : Report.Unescaped l.file
  path : Report.Unescaped l.path

theorem Location.Unescaped.text {l : Location} (h : l.Unescaped) : Report.Unescaped l.text := by
  have hposition : Report.Unescaped
      (":" ++ toString l.line.toInt ++ ":" ++ toString l.column.toInt) := by
    simp only [Report.unescaped_append_iff, Report.unescaped_toString, and_true]
    decide
  rw [Location.text, Report.unescaped_append_iff, Report.unescaped_append_iff]
  refine ⟨⟨h.file, ?_⟩, ?_⟩
  · split
    · exact hposition
    · decide
  · split
    · decide
    · exact Report.unescaped_append_iff.2 ⟨by decide, h.path⟩

/-- No text that is shown of a finding holds an escape character. -/
structure Finding.Unescaped (f : Finding) : Prop where
  kind : Report.Unescaped f.kind.name
  message : Report.Unescaped f.message
  location : f.location.Unescaped
  related : ∀ l ∈ f.related, l.Unescaped

namespace Report

/-- No text that is shown of a report holds an escape character. -/
structure TextsUnescaped (r : Report) : Prop where
  file : Unescaped r.file
  errors : ∀ f ∈ r.errors, f.Unescaped
  warnings : ∀ f ∈ r.warnings, f.Unescaped

variable {style : Style}

/-- **The lines on a finding** show the plain lines on it. -/
theorem shows_findingText (hstyle : style.SetsOff) {f : Finding} (hf : f.Unescaped) :
    Shows (findingText style f) (findingText .plain f) := by
  have hkind : Shows (style.kind f.kind.name) f.kind.name := hstyle.kind.shows hf.kind
  have hseverity : Shows (style.severity f.severity f.severity.text) f.severity.text :=
    (hstyle.severity f.severity).shows (unescaped_severity f.severity)
  -- the parts that are texts of the finding, with fixed texts between them
  refine .append (.append (.append (.append (.append (.append (.append (.append
    (.append ?_ hkind) ?_) hseverity) ?_) (.of_unescaped hf.message)) ?_)
    (.of_unescaped hf.location.text)) ?_) ?_
  case refine_6 =>
    refine .of_unescaped ?_
    cases hrelated : f.related with
    | none =>
      show Unescaped ""
      decide
    | some l =>
      show Unescaped ("      see " ++ l.text ++ "\n")
      rw [unescaped_append_iff, unescaped_append_iff]
      exact ⟨⟨by decide, (hf.related l hrelated).text⟩, by decide⟩
  all_goals exact .of_unescaped (by decide)

/-- **A report in any style** that sets its parts off shows the plain text. -/
theorem shows_styledText (hstyle : style.SetsOff) {r : Report} (hr : r.TextsUnescaped) :
    Shows (r.styledText style) r.text := by
  have herrors := Shows.join fun f hf ↦ shows_findingText hstyle (hr.errors f hf)
  have hwarnings := Shows.join fun f hf ↦ shows_findingText hstyle (hr.warnings f hf)
  have hcounts : Unescaped ("\n" ++ toString r.errorCount.toInt ++ " errors, " ++
      toString r.warningCount.toInt ++ " warnings\n") := by
    simp only [unescaped_append_iff, unescaped_toString, and_true]
    decide
  refine .append (.append (.append (.append (.append ?_ (hstyle.header.shows hr.file)) ?_) herrors)
    hwarnings) (.of_unescaped hcounts)
  all_goals exact .of_unescaped (by decide)

/-- **Styles add control sequences and nothing else.** Without them, the text of a report in a style
that sets its parts off is its plain text, if no text of the report holds an escape character. The
text with colours is in such a style. -/
theorem stripControls_styledText (r : Report) (h : r.TextsUnescaped) :
    (∀ style : Style, style.SetsOff → stripControls (r.styledText style) = r.text) ∧
      stripControls r.colouredText = r.text :=
  ⟨fun _ hstyle ↦ (shows_styledText hstyle h).stripControls_eq,
    (shows_styledText Style.setsOff_coloured h).stripControls_eq⟩

/-- Texts that look like the rest of a control sequence wherever one may end before them, and all
severities. -/
def bracketedReport : Report where
  file := "[1m"
  errors :=
    [{ kind := ⟨"[22m0;"⟩, severity := .error, message := "m[0;22m", location := { file := "m" } },
      { kind := ⟨"m"⟩, severity := .unknown (-7), message := "", location := {} }]
  warnings :=
    [{ kind := ⟨""⟩, severity := .warning, message := "[33", location := { path := "m", line := 3 },
       related := some { file := "[0m", line := 1, column := -1 } }]
  errorCount := 5

theorem stripControls_bracketedReport :
    bracketedReport.TextsUnescaped ∧ bracketedReport.colouredText ≠ bracketedReport.text ∧
      stripControls bracketedReport.colouredText = bracketedReport.text := by
  have hnone : ∀ l ∈ (none : Option Location), l.Unescaped := fun _ hl ↦ absurd hl (by simp)
  have h : bracketedReport.TextsUnescaped :=
    { file := by decide
      errors := List.forall_mem_cons.2
        ⟨⟨by decide, by decide, ⟨by decide, by decide⟩, hnone⟩,
          List.forall_mem_singleton.2 ⟨by decide, by decide, ⟨by decide, by decide⟩, hnone⟩⟩
      warnings := List.forall_mem_singleton.2
        ⟨by decide, by decide, ⟨by decide, by decide⟩,
          fun _ hl ↦ Option.some.inj hl ▸ ⟨by decide, by decide⟩⟩ }
  exact ⟨h, by decide, (stripControls_styledText bracketedReport h).2⟩

end Report

end Questionnaire
