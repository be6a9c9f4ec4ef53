import Wayfinding.Formula.Fault
import Wayfinding.Grid.Cell
import Wayfinding.Number.Layout
import Wayfinding.Text.Quoted

/-!
# Errors

`Error` lists what can be wrong with the input of a search, `Error.message` has the words.
-/

namespace Wayfinding

/-- One of the two ends of a route. -/
inductive Endpoint where
  | start
  | goal
deriving DecidableEq, Repr

/-- A table with an entry for each cell. -/
inductive Table where
  | occupancy
  | heuristic
deriving DecidableEq, Repr

/-- What is wrong with a map. Its text ends before the rows, a line of the header does not give the
field it should, the map is of a kind that is not read, a dimension is no number, or something else
stands in place of the line before the rows. Else there are too few or too many rows, a row is not
as long as the first one, or the rows are not as long as declared. -/
inductive MapCause where
  | endOfText
  | noField (name : String)
  | unknownKind (kind : List Char)
  | noNumber (found : List Char)
  | noMapLine (found : List Char)
  | rowCount (found declared : Nat)
  | rowLength (found expected : Nat)
  | columnCount (found declared : Nat)
deriving DecidableEq, Repr

/-- What is wrong with an input: the priority is no formula, the index of an end is too large, its
cell is outside the grid, a text names no cell, a weight is negative, infinite or no number, a table
does not have an entry for each cell, a move leads out of the grid, a text is no map, a cell is
looked up that the grid does not have, or a coordinate is asked for in a grid without rows. -/
inductive Error where
  | formula (fault : Fault)
  | index (endpoint : Endpoint) (index size : Nat)
  | cell (endpoint : Endpoint) (cell : Cell) (height width : Nat)
  | invalidCell (input : String)
  | weight (value : Float)
  | tableSize (table : Table) (expected actual : Nat)
  | escape (cell : Nat) (offset : Int) (size : Nat)
  | map (line : Nat) (cause : MapCause)
  | lookup (index size : Nat)
  | noRows
deriving DecidableEq

/-- The word for an end. -/
def Endpoint.name : Endpoint → String
  | start => "start"
  | goal => "goal"

/-- The word for a table. -/
def Table.name : Table → String
  | occupancy => "occupancy"
  | heuristic => "heuristic"

/-- The words for a cause. -/
def MapCause.message : MapCause → String
  | endOfText => "unexpected end of file"
  | noField name => s!"expected `{name} <value>`"
  | unknownKind kind => s!"unsupported map type {String.ofList kind}"
  | noNumber found => s!"invalid dimension {String.ofList (Text.quoted found)}"
  | noMapLine found => s!"expected map token, got {String.ofList (Text.quoted found)}"
  | rowCount found declared => s!"map has {found} rows, header declares {declared}"
  | rowLength found expected => s!"row has {found} columns, expected {expected}"
  | columnCount found declared => s!"map has {found} columns, header declares {declared}"

/-- The words for an error. -/
def Error.message : Error → String
  | .formula fault => fault.message
  | .index endpoint i size =>
    s!"{endpoint.name} index {i} is outside the grid ({size} cells)"
  | .cell endpoint place height width =>
    s!"{endpoint.name} cell {place.text} is outside the {height}x{width} grid"
  | .invalidCell input =>
    s!"invalid cell {String.ofList (Text.quoted input.toList)}; expected `row,col`"
  | .weight value =>
    "heuristic weight must be finite and non-negative, got " ++
      String.ofList (Layout.plain.write value)
  | .tableSize table expected actual =>
    s!"{table.name} table has {actual} entries but the grid has {expected} cells"
  | .escape place offset size =>
    s!"neighbour offset {offset} from cell {place} leaves the grid ({size} cells)"
  | .map line cause => s!"invalid map at line {line}: {cause.message}"
  | .lookup i size => s!"index out of bounds: the len is {size} but the index is {i}"
  | .noRows => "attempt to calculate the remainder with a divisor of zero"

end Wayfinding
