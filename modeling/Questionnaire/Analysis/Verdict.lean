import Questionnaire.Analysis.Cycle
import Questionnaire.Analysis.Typing

/-!
# The verdict on a form

A form is checked in three phases: its declarations, its dependencies, its types. The first phase
that finds anything ends the check, and its findings are the verdict; a form without findings has
passed all three.
-/

namespace Questionnaire

/-- A phase of the check. -/
inductive Phase where
  | symbols
  | cycles
  | types
  deriving DecidableEq, Inhabited

/-- The name of a phase. -/
def Phase.name : Phase → String
  | symbols => "symbols"
  | cycles => "cycles"
  | types => "types"

/-- What a check comes to: the last phase that ran, its findings, and the tables built by then. -/
structure Verdict where
  phase : Phase
  errors : List Finding
  symbols : SymbolTable
  graph : Option DependencyGraph := none
  deriving Inhabited

/-- The verdict on a form; none when the type check is reached and an operator lacks an operand. -/
def Form.check (f : Form) : Option Verdict :=
  let (symbols, duplicates) := f.resolveSymbols
  if !duplicates.isEmpty then some { phase := .symbols, errors := duplicates, symbols }
  else
    let graph := f.dependencyGraph symbols
    let cycles := graph.cycles
    if !cycles.isEmpty then
      some { phase := .cycles, errors := cycles, symbols, graph := some graph }
    else
      (f.checkTypes symbols).map fun errors ↦
        { phase := .types, errors, symbols, graph := some graph }

end Questionnaire
