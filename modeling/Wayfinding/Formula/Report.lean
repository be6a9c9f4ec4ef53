import Wayfinding.Formula.Basic
import Wayfinding.Text.Json

/-!
# Reports on a formula

An `Evaluation` is a formula at one travelled cost and one estimate. Its text and its JSON text show
how the formula was read and the value it has there.
-/

namespace Wayfinding

/-- A formula and the two numbers it is evaluated at. -/
structure Evaluation where
  formula : Formula
  cost : Nat
  estimate : Nat
deriving DecidableEq

namespace Evaluation

/-- The priority at the two numbers. -/
def value (evaluation : Evaluation) : Float :=
  evaluation.formula.priority evaluation.cost evaluation.estimate

/-- The line for a formula that could not be read as a whole. -/
def degenerateText (evaluation : Evaluation) : String :=
  if evaluation.formula.isDegenerate then
    "  degenerate: yes (every priority it feeds is f64::MAX)\n"
  else ""

/-- The evaluation in lines. -/
def text (evaluation : Evaluation) : String :=
  s!"Formula {evaluation.formula.source} compiles to {evaluation.formula.compiled}\n" ++
    s!"  value at G={evaluation.cost}, H={evaluation.estimate}: " ++
    String.ofList (Layout.plain.write evaluation.value) ++ "\n" ++ evaluation.degenerateText

/-- The evaluation as a JSON text and a line feed. -/
def json (evaluation : Evaluation) : String :=
  Json.pretty (.object [
    ("formula", .string evaluation.formula.source),
    ("compiled", .string evaluation.formula.compiled),
    ("degenerate", .bool evaluation.formula.isDegenerate),
    ("g", .integer evaluation.cost),
    ("h", .integer evaluation.estimate),
    ("value", .float evaluation.value)]) ++ "\n"

end Evaluation

end Wayfinding
