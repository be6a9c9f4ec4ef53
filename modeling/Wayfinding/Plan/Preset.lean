import Wayfinding.Error
import Wayfinding.Text.Json

/-!
# Presets

A `Preset` is a named priority; `Preset.formula` is the text of its formula.
-/

namespace Wayfinding

/-- A priority with a name: travelled cost and estimate, the same with a weight on the estimate, the
estimate alone, or the travelled cost alone. -/
inductive Preset where
  | aStar
  | weighted (weight : Float)
  | greedy
  | dijkstra
deriving DecidableEq

namespace Preset

/-- The text of the formula of a preset. A weight is finite and not negative. -/
def formula : Preset → Except Error String
  | aStar => .ok "G+H"
  | weighted weight =>
    if !weight.isFinite || decide (weight < 0) then .error (.weight weight)
    else .ok (String.ofList ('G' :: '+' :: Layout.plain.write weight ++ ['*', 'H']))
  | greedy => .ok "H"
  | dijkstra => .ok "G"

/-- The name of a preset, with its weight. -/
def name : Preset → String
  | aStar => "a-star"
  | weighted weight => "weighted(" ++ String.ofList (Layout.plain.write weight) ++ ")"
  | greedy => "greedy"
  | dijkstra => "dijkstra"

/-- The preset in a JSON text. -/
def toJson : Preset → Json
  | aStar => .string "a-star"
  | weighted weight => .object [("weighted", .float weight)]
  | greedy => .string "greedy"
  | dijkstra => .string "dijkstra"

end Preset

end Wayfinding
