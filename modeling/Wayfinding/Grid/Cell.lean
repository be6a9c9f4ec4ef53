import Wayfinding.Number.Reader
import Wayfinding.Text.Blank

/-!
# Cells

A `Cell` is a row and a column, both counted from zero. Its text is `(row,column)`; it is read from
`row,column`, with blanks around each number.
-/

namespace Wayfinding

/-- A place in a grid. -/
structure Cell where
  row : Nat
  col : Nat
deriving DecidableEq, Repr

namespace Cell

/-- The text of a cell. -/
def text (cell : Cell) : String :=
  s!"({cell.row},{cell.col})"

/-- The cell one row and one column further. -/
def shifted (cell : Cell) : Cell :=
  ⟨cell.row + 1, cell.col + 1⟩

/-- The cell one row and one column before. -/
def unshifted (cell : Cell) : Cell :=
  ⟨cell.row - 1, cell.col - 1⟩

@[simp] theorem unshifted_shifted (cell : Cell) : cell.shifted.unshifted = cell := rfl

/-- The cell that a text names: what stands before its first comma and what stands after it. -/
def read? (cs : List Char) : Option Cell :=
  match cs.dropWhile (· ≠ ',') with
  | [] => none
  | _ :: after =>
    match readNatural? (Text.trim (cs.takeWhile (· ≠ ','))), readNatural? (Text.trim after) with
    | some row, some col => some ⟨row, col⟩
    | _, _ => none

end Cell

end Wayfinding
