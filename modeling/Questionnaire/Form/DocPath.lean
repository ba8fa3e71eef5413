/-!
# Places in a document

A place in a document is given by the steps that lead to it from the whole: to a member by its name,
to an item by its index. Faults of decoding show it as a path, faults of the format as a pointer.
-/

namespace Questionnaire

/-- A step from a value of a document into it. -/
inductive PathStep where
  | member (name : String)
  | item (index : Nat)
  deriving DecidableEq, Inhabited

namespace PathStep

/-- The text of a step in a path. -/
def text : PathStep → String
  | member name => "." ++ name
  | item index => s!"[{index}]"

/-- The text of a step in a pointer. -/
def pointerText : PathStep → String
  | member name => "/" ++ name
  | item index => s!"/{index}"

end PathStep

/-- A place in a document, by the steps that lead to it from the whole, the last one first. -/
structure DocPath where
  back : List PathStep := []
  deriving DecidableEq, Inhabited

namespace DocPath

/-- The steps that lead to a place, the first one first. -/
def steps (p : DocPath) : List PathStep :=
  p.back.reverse

/-- The place of a member. -/
def member (p : DocPath) (name : String) : DocPath :=
  ⟨.member name :: p.back⟩

/-- The place of an item. -/
def item (p : DocPath) (index : Nat) : DocPath :=
  ⟨.item index :: p.back⟩

/-- The text of a place as a path, where `$` is the whole document. -/
def text (p : DocPath) : String :=
  "$" ++ String.join (p.steps.map PathStep.text)

/-- The text of a place as a pointer, empty for the whole document. -/
def pointer (p : DocPath) : String :=
  String.join (p.steps.map PathStep.pointerText)

@[simp]
theorem steps_member (p : DocPath) (name : String) :
    (p.member name).steps = p.steps ++ [.member name] := by
  simp [steps, member]

@[simp]
theorem steps_item (p : DocPath) (index : Nat) :
    (p.item index).steps = p.steps ++ [.item index] := by
  simp [steps, item]

end DocPath

end Questionnaire
