import Wayfinding.Plan.Basic

/-!
# Reports

`Plan.text` describes a plan in a few lines, `Plan.json` with all its fields. A plan without its
path is described without it.
-/

namespace Wayfinding

/-- A cell in a JSON text. -/
def Cell.toJson (cell : Cell) : Json :=
  .object [("row", .integer cell.row), ("col", .integer cell.col)]

namespace Plan

/-- The plan with its path left out. -/
def withoutPath (plan : Plan) : Plan :=
  { plan with path := [] }

/-- The name of the preset. -/
def label (plan : Plan) : String :=
  match plan.preset with
  | none => "custom"
  | some preset => preset.name

/-- The lines that say whether the goal was reached. -/
def resultText (plan : Plan) : String :=
  if plan.solved then s!"  solved: yes\n  path cost: {reportedCost plan.cost}\n"
  else s!"  solved: no\n  path cost: {reportedCost plan.cost} (no path)\n"

/-- The line for the path. -/
def pathText (plan : Plan) : String :=
  if plan.path = [] then ""
  else "  path: " ++ String.intercalate " -> " (plan.path.map Cell.text) ++ "\n"

/-- The description of a plan in lines. -/
def text (plan : Plan) : String :=
  s!"Search from {plan.start.text} to {plan.goal.text} (priority: {plan.formula.source} " ++
    s!"[{plan.label}]; {plan.neighbourhood.name} connectivity, {plan.metric.name} heuristic):\n" ++
    plan.resultText ++ s!"  nodes expanded: {plan.expanded}\n" ++ plan.pathText

/-- The description of a plan with all its fields. A formula of its own has no preset, and what was
not reached no path. -/
def json (plan : Plan) : String :=
  let preset := match plan.preset with
    | none => []
    | some preset => [("algorithm", preset.toJson)]
  let path := match plan.path with
    | [] => []
    | path => [("path", .array (path.map Cell.toJson))]
  let fields : List (String × Json) := [
    ("formula", .string plan.formula.source),
    ("compiled", .string plan.formula.compiled),
    ("connectivity", .string plan.neighbourhood.name),
    ("heuristic", .string plan.metric.name),
    ("start", plan.start.toJson),
    ("goal", plan.goal.toJson),
    ("solved", .bool plan.solved),
    ("path_cost", .integer (reportedCost plan.cost)),
    ("nodes_expanded", .integer plan.expanded),
    ("stale_entries", .integer plan.stale)]
  Json.pretty (.object (preset ++ fields ++ path))

end Plan

end Wayfinding
