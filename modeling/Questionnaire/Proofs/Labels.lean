import Questionnaire.Analysis.Lint
import Questionnaire.Proofs.Resolution

/-!
# Repeated labels

Two questions have the same label when their labels agree without the white space around them and in
lower case. That common form of a label is its key, and blank labels, whose key is empty, are not
compared.

The warnings are about the questions whose key occurred before (`FlagsRepeats`). They come from one
pass that keeps a table of the keys it met, each with the id that had it first. `Recalls` is what
the table is to be after some questions, `map_repeatsBy_append` says that a pass with such a table
adds exactly the warnings that are due, and at the end of the form these are all.

The pass looks at keys alone; labels themselves are only shown. So two forms that agree but for
labels with the same keys have the same warnings but for the labels shown (`agree_labelsFrom`).
-/

namespace Questionnaire

namespace Question

/-- What the label of a question is compared by. -/
def labelKey (q : Question) : String :=
  Lint.labelKey q.label

/-- The questions whose label is not blank. -/
def labelled (qs : List Question) : List Question :=
  qs.filter fun q ↦ q.labelKey ≠ ""

theorem labelled_cons_of_blank {q : Question} (h : q.labelKey = "") (qs : List Question) :
    labelled (q :: qs) = labelled qs :=
  List.filter_cons_of_neg (by simpa using h)

theorem labelled_cons {q : Question} (h : q.labelKey ≠ "") (qs : List Question) :
    labelled (q :: qs) = q :: labelled qs :=
  List.filter_cons_of_pos (by simpa using h)

end Question

namespace Lint

open Question (labelled repeatsBy)

variable {file : String} {seen : List (String × String)} {q : Question} {rest : List Question}

/-! ### One question -/

theorem labelsFrom_blank (h : q.labelKey = "") :
    labelsFrom file seen (q :: rest) = labelsFrom file seen rest := by
  unfold Question.labelKey at h
  simp only [labelsFrom, String.isEmpty_iff, if_pos h]

theorem labelsFrom_repeat (h : q.labelKey ≠ "") {first : String}
    (hfirst : seen.lookup q.labelKey = some first) :
    labelsFrom file seen (q :: rest) =
      duplicateLabel file q first :: labelsFrom file seen rest := by
  unfold Question.labelKey at h hfirst
  simp only [labelsFrom, String.isEmpty_iff, if_neg h, hfirst]

theorem labelsFrom_first (h : q.labelKey ≠ "") (hnone : seen.lookup q.labelKey = none) :
    labelsFrom file seen (q :: rest) =
      labelsFrom file (seen ++ [(q.labelKey, q.id)]) rest := by
  unfold Question.labelKey at h hnone ⊢
  simp only [labelsFrom, String.isEmpty_iff, if_neg h, hnone]

/-! ### The table of keys -/

/-- The table holds each key of the questions passed, with the id that had it first. -/
def Recalls (seen : List (String × String)) (passed : List Question) : Prop :=
  ∀ key, seen.lookup key = (passed.find? fun q ↦ q.labelKey == key).map Question.id

variable {passed : List Question}

theorem recalls_nil : Recalls [] [] :=
  fun _ ↦ rfl

theorem Recalls.concat_repeat (h : Recalls seen passed) {first : String}
    (hfirst : seen.lookup q.labelKey = some first) : Recalls seen (passed ++ [q]) := by
  intro key
  rw [h key, List.find?_append]
  by_cases hkey : q.labelKey = key
  · -- the key was met before, so that the question is not the first that has it
    rw [h, Option.map_eq_some_iff, hkey] at hfirst
    obtain ⟨r, hr, -⟩ := hfirst
    rw [hr, Option.some_or]
  · rw [List.find?_singleton, if_neg (by simpa using hkey), Option.or_none]

theorem Recalls.concat_first (h : Recalls seen passed) (hnone : seen.lookup q.labelKey = none) :
    Recalls (seen ++ [(q.labelKey, q.id)]) (passed ++ [q]) := by
  intro key
  rw [List.lookup_append, h key, List.find?_append]
  by_cases hkey : q.labelKey = key
  · rw [h, Option.map_eq_none_iff, hkey] at hnone
    simp [hnone, hkey]
  · have hne : (key == q.labelKey) = false := beq_false_of_ne (Ne.symm hkey)
    rw [List.find?_singleton, if_neg (by simpa using hkey), Option.or_none, List.lookup_cons, hne]
    simp

/-! ### One pass -/

/-- The warning on a question that is given with the first one that has its label. -/
def repeatWarning (file : String) (d : Question × Question) : Finding :=
  duplicateLabel file d.1 d.2.id

/-- **A pass over more questions** adds the warnings that are due on them. -/
theorem map_repeatsBy_append (h : Recalls seen passed) :
    (repeatsBy Question.labelKey (passed ++ labelled rest)).map (repeatWarning file) =
      (repeatsBy Question.labelKey passed).map (repeatWarning file) ++
        labelsFrom file seen rest := by
  induction rest generalizing seen passed with
  | nil =>
    rw [show labelled [] = [] from rfl, labelsFrom, List.append_nil, List.append_nil]
  | cons q rest ih =>
    by_cases hblank : q.labelKey = ""
    · rw [Question.labelled_cons_of_blank hblank, labelsFrom_blank hblank, ih h]
    rw [Question.labelled_cons hblank, List.append_cons]
    cases hlookup : seen.lookup q.labelKey with
    | none =>
      rw [ih (h.concat_first hlookup), Question.repeatsBy_concat, labelsFrom_first hblank hlookup]
      rw [h, Option.map_eq_none_iff] at hlookup
      rw [hlookup]
      simp
    | some first =>
      rw [ih (h.concat_repeat hlookup), Question.repeatsBy_concat,
        labelsFrom_repeat hblank hlookup]
      rw [h, Option.map_eq_some_iff] at hlookup
      obtain ⟨r, hr, rfl⟩ := hlookup
      rw [hr]
      simp [repeatWarning]

/-- What the warnings on the labels of some questions are to be. -/
structure FlagsRepeats (file : String) (qs : List Question) (findings : List Finding) : Prop where
  /-- Each question whose key occurred before is warned of, in order and with the id of the first
  question that has its key. -/
  findings_eq : findings = (repeatsBy Question.labelKey qs).map fun d ↦
    { kind := .duplicateLabel
      severity := .warning
      message :=
        s!"Question '{d.1.id}' has the same label as '{d.2.id}': {Text.quoted d.1.label}"
      location := .ofPosition file d.1.pos
      name := d.1.id }
  findings_eq_nil_iff : findings = [] ↔ (qs.map Question.labelKey).Nodup

theorem flagsRepeats_labelsFrom (file : String) (qs : List Question) :
    FlagsRepeats file (labelled qs) (labelsFrom file [] qs) := by
  have hall : (repeatsBy Question.labelKey ([] ++ labelled qs)).map (repeatWarning file) =
      labelsFrom file [] qs := map_repeatsBy_append recalls_nil
  rw [List.nil_append] at hall
  refine ⟨hall.symm, ?_⟩
  rw [← hall, List.map_eq_nil_iff, Question.repeatsBy_eq_nil_iff]

end Lint

/-! ### Labels with the same keys -/

/-- A question with the key of its label in the place of its label. -/
def Question.keyed (q : Question) : Question :=
  { q with label := q.labelKey }

theorem Question.eq_of_keyed_eq {q q' : Question} (h : q.keyed = q'.keyed) :
    q.pos = q'.pos ∧ q.id = q'.id ∧ q.labelKey = q'.labelKey := by
  simp only [keyed, Question.mk.injEq] at h
  exact ⟨h.1, h.2.1, h.2.2.2⟩

namespace Statement

mutual

/-- A statement with the keys of the labels in their places. -/
def keyed : Statement → Statement
  | question q => question q.keyed
  | calculated q value => calculated q.keyed value
  | condition p guard body => condition p guard (keyedAll body)

/-- Statements with the keys of the labels in their places. -/
def keyedAll : List Statement → List Statement
  | [] => []
  | s :: rest => keyed s :: keyedAll rest

end

theorem questions_keyedAll (l : List Statement) :
    (nestedAll (keyedAll l)).filterMap question? =
      ((nestedAll l).filterMap question?).map Question.keyed := by
  induction l using listInduction with
  | nil => rw [keyedAll, nestedAll_nil]; rfl
  | question q rest ih =>
    rw [keyedAll, keyed, nestedAll_question, nestedAll_question]
    exact congrArg (q.keyed :: ·) ih
  | calculated q value rest ih =>
    rw [keyedAll, keyed, nestedAll_calculated, nestedAll_calculated]
    exact congrArg (q.keyed :: ·) ih
  | condition p guard body rest ihbody ihrest =>
    rw [keyedAll, keyed, nestedAll_condition, nestedAll_condition, List.filterMap_cons_none rfl,
      List.filterMap_cons_none rfl, List.filterMap_append, List.filterMap_append, List.map_append,
      ihbody, ihrest]

end Statement

/-- Two forms of one file that agree in all statements once each label is replaced by its key. -/
def Form.SameLabelKeys (f g : Form) : Prop :=
  f.file = g.file ∧ Statement.keyedAll f.statements = Statement.keyedAll g.statements

/-- Two findings that agree but for the label at the end of their messages; the two labels have the
same key. -/
def Finding.AgreesButLabel (a b : Finding) : Prop :=
  ∃ stem label label', Lint.labelKey label = Lint.labelKey label' ∧
    a.message = stem ++ Text.quoted label ∧ b = { a with message := stem ++ Text.quoted label' }

namespace Lint

variable {file : String}

theorem agree_duplicateLabel {q q' : Question} (h : q.keyed = q'.keyed) (first : String) :
    (duplicateLabel file q first).AgreesButLabel (duplicateLabel file q' first) := by
  obtain ⟨hpos, hid, hkey⟩ := Question.eq_of_keyed_eq h
  refine ⟨s!"Question '{q.id}' has the same label as '{first}': ", q.label, q'.label, hkey, rfl, ?_⟩
  simp only [duplicateLabel, Finding.warning, hid, hpos]
  rfl

/-- **Labels with the same keys** are warned of alike. -/
theorem agree_labelsFrom {qs qs' : List Question}
    (h : List.Forall₂ (fun q q' ↦ q.keyed = q'.keyed) qs qs') (seen : List (String × String)) :
    List.Forall₂ Finding.AgreesButLabel (labelsFrom file seen qs) (labelsFrom file seen qs') := by
  induction h generalizing seen with
  | nil => exact .nil
  | @cons q q' rest rest' hq _ ih =>
    obtain ⟨-, hid, hkey⟩ := Question.eq_of_keyed_eq hq
    by_cases hblank : q.labelKey = ""
    · rw [labelsFrom_blank hblank, labelsFrom_blank (hkey ▸ hblank)]
      exact ih seen
    have hblank' : q'.labelKey ≠ "" := hkey ▸ hblank
    cases hlookup : seen.lookup q.labelKey with
    | none =>
      rw [labelsFrom_first hblank hlookup, labelsFrom_first hblank' (hkey ▸ hlookup), hkey, hid]
      exact ih _
    | some first =>
      rw [labelsFrom_repeat hblank hlookup, labelsFrom_repeat hblank' (hkey ▸ hlookup)]
      exact .cons (agree_duplicateLabel hq first) (ih seen)

theorem agree_labels {f g : Form} (h : f.SameLabelKeys g) :
    List.Forall₂ Finding.AgreesButLabel (labels f) (labels g) := by
  have hquestions : f.questions.map Question.keyed = g.questions.map Question.keyed := by
    rw [Form.questions, Form.statementsAll, ← Statement.questions_keyedAll, h.2,
      Statement.questions_keyedAll]
    rfl
  have hpairs : List.Forall₂ (fun q q' ↦ Question.keyed q = Question.keyed q')
      f.questions g.questions := by
    rw [← List.forall₂_eq_eq_eq] at hquestions
    rwa [List.forall₂_map_left_iff, List.forall₂_map_right_iff] at hquestions
  rw [labels, labels, h.1]
  exact agree_labelsFrom hpairs []

/-- **Repeated labels are warned of, and nothing else is.** Of the questions of a form in document
order, at any depth, those with a label that is not blank are compared by the key of their label.
Labels with the same keys are warned of alike, but for the label that is shown. -/
theorem labels_flag_repeats (f : Form) :
    (∃ entries, Statement.InDocumentOrder f.statements entries ∧
      FlagsRepeats f.file (Question.labelled (entries.map Prod.snd)) (labels f)) ∧
    ∀ g : Form, f.SameLabelKeys g → List.Forall₂ Finding.AgreesButLabel (labels f) (labels g) := by
  obtain ⟨entries, horder, hquestions⟩ := Statement.exists_inDocumentOrder f.statements
  refine ⟨⟨entries, horder, ?_⟩, fun g hg ↦ agree_labels hg⟩
  rw [hquestions]
  exact flagsRepeats_labelsFrom f.file f.questions

/-- A form with two questions of one label, and one between them in a block; two labels are
blank. -/
def echoedLabels (inner : String) : Form where
  file := "echo.json"
  statements :=
    [.question { id := "price", type := .decimal, label := "Selling price", pos := ⟨1, 1⟩ },
      .condition ⟨2, 1⟩ (.literal ⟨2, 5⟩ (.boolean true))
        [.calculated { id := "ask", type := .decimal, label := inner, pos := ⟨3, 3⟩ } .absent,
          .question { id := "note", type := .string, label := " ", pos := ⟨4, 3⟩ }],
      .question { id := "memo", type := .string, pos := ⟨5, 1⟩ },
      .question { id := "bid", type := .decimal, label := "selling price", pos := ⟨6, 1⟩ }]

theorem sameLabelKeys_echoedLabels {inner inner' : String} (h : labelKey inner = labelKey inner') :
    (echoedLabels inner).SameLabelKeys (echoedLabels inner') := by
  refine ⟨rfl, ?_⟩
  simp only [echoedLabels, Statement.keyedAll, Statement.keyed, Question.keyed, Question.labelKey,
    h]

theorem labels_flag_echoedLabels :
    (labels (echoedLabels " SELLING Price\t")).map (fun w ↦ (w.name, w.message)) =
      [("ask", "Question 'ask' has the same label as 'price': \" SELLING Price\\t\""),
        ("bid", "Question 'bid' has the same label as 'price': \"selling price\"")] ∧
      (echoedLabels " SELLING Price\t").SameLabelKeys (echoedLabels "selling PRICE") ∧
      List.Forall₂ Finding.AgreesButLabel (labels (echoedLabels " SELLING Price\t"))
        (labels (echoedLabels "selling PRICE")) := by
  have hsame : (echoedLabels " SELLING Price\t").SameLabelKeys (echoedLabels "selling PRICE") :=
    sameLabelKeys_echoedLabels (by decide +kernel)
  exact ⟨by decide +kernel, hsame, (labels_flag_repeats _).2 _ hsame⟩

end Lint

end Questionnaire
