import Wayfinding.Grid.Metric
import Wayfinding.Grid.Neighbourhood
import Wayfinding.Plan.Preset
import Wayfinding.Search.Basic

/-!
# Plans

* A `Request` names two cells, a priority, a neighbourhood and a metric.
* `Request.plan` answers it on a grid. The search runs on the padded grid, whose border keeps every
  move of the neighbourhood inside it, and its cells are moved back afterwards.
-/

namespace Wayfinding

/-- Where the priority of a request comes from. -/
inductive PriorityRule where
  | preset (preset : Preset)
  | formula (source : String)
deriving DecidableEq

/-- What is asked of a planner. The policy is for a formula that comes as a text; the formula of a
preset is always read strictly. -/
structure Request where
  start : Cell
  goal : Cell
  priority : PriorityRule := .preset .aStar
  policy : Policy := .strict
  neighbourhood : Neighbourhood := .four
  metric : Metric := .manhattan
deriving DecidableEq

/-- The answer to a request. There is no preset if a formula was asked for. The cost is the number
of moves and the path has the cells from the start to the goal; if this was not reached, there is no
cost and the path is empty. -/
structure Plan where
  preset : Option Preset
  formula : Formula
  neighbourhood : Neighbourhood
  metric : Metric
  start : Cell
  goal : Cell
  cost : Option Nat
  expanded : Nat
  stale : Nat
  path : List Cell
deriving DecidableEq

namespace PriorityRule

/-- The preset of a rule. -/
def preset? : PriorityRule → Option Preset
  | preset p => some p
  | formula _ => none

/-- The formula of a rule. -/
def compile (policy : Policy) : PriorityRule → Except Error Formula
  | preset p => do
    let source ← p.formula
    (Formula.readStrict source).mapError .formula
  | formula source => (Formula.read policy source).mapError .formula

end PriorityRule

namespace Request

/-- The formula of a request. -/
def compile (request : Request) : Except Error Formula :=
  request.priority.compile request.policy

/-- The plan that an outcome of the search on the padded grid amounts to. -/
def report (request : Request) (formula : Formula) (grid : Grid) (outcome : Outcome grid.padded.size) :
    Plan where
  preset := request.priority.preset?
  formula := formula
  neighbourhood := request.neighbourhood
  metric := request.metric
  start := request.start
  goal := request.goal
  cost := outcome.route.map Route.cost
  expanded := outcome.expanded
  stale := outcome.stale
  path := match outcome.route with
    | none => []
    | some route => route.cells.map fun i => (grid.padded.cellAt i.val).unshifted

/-- Answers a request. The formula is looked at first, then the start, then the goal. -/
def plan (request : Request) (grid : Grid) : Except Error Plan := do
  let formula ← request.compile
  let start ← grid.locatePadded .start request.start
  let goal ← grid.locatePadded .goal request.goal
  let outcome ← Problem.solve
    { blocked := grid.padded.blocked
      offsets := request.neighbourhood.offsets grid.padded.height
      estimates := request.metric.table grid.padded goal
      priority := formula.priority
      start := start
      goal := goal }
  .ok (request.report formula grid outcome)

end Request

namespace Plan

/-- Whether the goal was reached. -/
def solved (plan : Plan) : Bool :=
  plan.cost.isSome

end Plan

end Wayfinding
