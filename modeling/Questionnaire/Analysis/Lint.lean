import Questionnaire.Finding
import Questionnaire.Form.Statement
import Questionnaire.Text.Blank

/-!
# Lint

Warnings about forms that are legal but questionable: labels that occur twice, conditions that show
nothing or whose guard is a literal, and calculated questions that always have the same value.
-/

namespace Questionnaire

namespace Lint

/-- The text of an expression in a warning; a missing one is marked. -/
def shown : Expr → String
  | .absent => "%!s(<nil>)"
  | e => e.text

/-! ### Labels -/

/-- What two labels are compared by: the label without the white space around it, in lower case. -/
def labelKey (label : String) : String :=
  Text.lower (Text.trim label)

/-- The warning on a label that an earlier question with the id `first` has too. -/
def duplicateLabel (file : String) (q : Question) (first : String) : Finding :=
  { Finding.warning .duplicateLabel
      s!"Question '{q.id}' has the same label as '{first}': {Text.quoted q.label}"
      (.ofPosition file q.pos) with
    name := q.id }

/-- The warnings on the labels of questions, where `seen` holds the keys met before, each with the
id that had it first. Blank labels are not compared. -/
def labelsFrom (file : String) (seen : List (String × String)) : List Question → List Finding
  | [] => []
  | q :: rest =>
    let key := labelKey q.label
    if key.isEmpty then labelsFrom file seen rest
    else match seen.lookup key with
      | some first => duplicateLabel file q first :: labelsFrom file seen rest
      | none => labelsFrom file (seen ++ [(key, q.id)]) rest

/-- A warning for each label that occurred before. -/
def labels (f : Form) : List Finding :=
  labelsFrom f.file [] f.questions

/-! ### Conditions -/

/-- The warnings on one condition. -/
def conditionFindings (file : String) (pos : Position) (guard : Expr) (body : List Statement) :
    List Finding :=
  let loc := Location.ofPosition file pos
  (if body.isEmpty then
    [.warning .emptyCondition s!"Condition on {shown guard} contains no questions" loc] else []) ++
  match guard with
  | .literal _ (.boolean true) =>
    [.warning .constantCondition "Condition is constant true; its questions are always shown" loc]
  | .literal _ (.boolean false) =>
    [.warning .constantCondition "Condition is constant false; its questions are never shown" loc]
  | _ => []

/-- The warnings on the conditions of a form. -/
def conditions (f : Form) : List Finding :=
  f.statementsAll.flatMap fun s ↦
    match s with
    | .condition p guard body => conditionFindings f.file p guard body
    | _ => []

/-! ### Calculations -/

/-- A warning for each calculated question that refers to no question. -/
def calculations (f : Form) : List Finding :=
  f.statementsAll.flatMap fun s ↦
    match s with
    | .calculated q value =>
      if value.references.isEmpty then
        [{ Finding.warning .constantCalculation
            s!"Calculated question '{q.id}' is constant: {shown value}"
            (.ofPosition f.file q.pos) with
          name := q.id }]
      else []
    | _ => []

end Lint

end Questionnaire
