import Wayfinding.Grid.Basic

/-!
# Drawings

`Grid.drawRows` shows a grid row by row, with a path on it: its first cell is `S`, its last one `G`,
the cells between them `*`. Apart from the path an obstacle is `@` and an open cell `.`, which are
the characters a grid is read from.
-/

namespace Wayfinding.Grid

/-- The character for a cell when the path has the given ends and cells. -/
def symbol (grid : Grid) (first last : Option Cell) (path : List Cell) (cell : Cell) : Char :=
  if first = some cell then 'S'
  else if last = some cell then 'G'
  else if cell ∈ path then '*'
  else if grid.isObstacle cell then '@'
  else '.'

/-- The rows of a grid with a path on it. -/
def drawRows (grid : Grid) (path : List Cell) : List (List Char) :=
  let draw := grid.symbol path.head? path.getLast? path
  (List.range grid.height).map fun row => (List.range grid.width).map fun col => draw ⟨row, col⟩

/-- The drawing of a grid with a path on it, a line for each row. -/
def draw (grid : Grid) (path : List Cell) : List Char :=
  (grid.drawRows path).flatMap (· ++ ['\n'])

end Wayfinding.Grid
