import Wayfinding.Command.Line
import Wayfinding.Formula.Report
import Wayfinding.Grid.Drawing
import Wayfinding.Grid.Map
import Wayfinding.Plan.Report

/-!
# Running a task

`Invocation.run` has the output of an invocation, given what its map file holds, or the `Failure`
that keeps it from having one.
-/

namespace Wayfinding

/-- Why a file has no text: there is no such file, its bytes are not the UTF-8 form of a text, or it
cannot be read for the reason given. -/
inductive FileFault where
  | missing
  | notText
  | other (reason : String)
deriving DecidableEq, Repr

/-- The words for a fault of a file. -/
def FileFault.message : FileFault → String
  | missing => "No such file or directory (os error 2)"
  | notText => "stream did not contain valid UTF-8"
  | other reason => reason

/-- Why a task has no result: the file of the map cannot be read or holds no map, the search is
refused, or the text is no formula. -/
inductive Failure where
  | file (name : String) (cause : FileFault)
  | map (name : String) (cause : Error)
  | search (start goal : Cell) (cause : Error)
  | formula (source : String) (cause : Fault)
deriving DecidableEq

/-- The words for a failure: what was tried, and what kept it from success. -/
def Failure.message : Failure → String
  | file name cause => s!"failed to load map from {name}: {cause.message}"
  | map name cause => s!"failed to load map from {name}: {cause.message}"
  | search start goal cause =>
    s!"failed to search from {start.text} to {goal.text}: {cause.message}"
  | formula source cause => s!"invalid formula '{source}': {cause.message}"

namespace Plan

/-- What is written about a plan. A text with a path has the drawing of the path after it. -/
def output (plan : Plan) (grid : Grid) (format : Format) (showPath : Bool) : String :=
  let shown := if showPath then plan else plan.withoutPath
  match format with
  | .json => shown.json
  | .text =>
    if showPath && plan.solved then shown.text ++ "\n" ++ String.ofList (grid.draw plan.path)
    else shown.text

end Plan

namespace Invocation

/-- The file that the task reads. -/
def file? (invocation : Invocation) : Option String :=
  match invocation.task with
  | .search file _ _ => some file
  | .check .. => none

/-- The output of an invocation, given the text of its file. -/
def run (invocation : Invocation) (text : Except FileFault String) : Except Failure String :=
  match invocation.task with
  | .search name request showPath => do
    let text ← text.mapError (.file name)
    let grid ← (Grid.ofMap text).mapError (.map name)
    let plan ← (request.plan grid).mapError (.search request.start request.goal)
    .ok (plan.output grid invocation.format showPath)
  | .check source policy cost estimate => do
    let formula ← (Formula.read policy source).mapError (.formula source)
    let evaluation : Evaluation := ⟨formula, cost, estimate⟩
    match invocation.format with
    | .json => .ok evaluation.json
    | .text => .ok evaluation.text

end Invocation

end Wayfinding
