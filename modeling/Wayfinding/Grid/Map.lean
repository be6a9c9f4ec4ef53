import Wayfinding.Grid.Basic
import Wayfinding.Text.Line

/-!
# Maps

A map is a text of four header lines (`type octile`, `height` and `width` with a number, `map`) and
the rows of a grid. `Grid.ofMap` reads it and names the first line that is wrong. Empty lines
between the rows do not count.
-/

namespace Wayfinding.Grid

/-- The two words of a header line, the first of which is `name`: the second one. -/
def headerField (line : Nat) (name : String) (cs : List Char) : Except Error (List Char) :=
  match Text.words cs with
  | [key, value] => if key = name.toList then .ok value else .error (.map line (.noField name))
  | _ => .error (.map line (.noField name))

/-- The number in a header line. -/
def headerNumber (line : Nat) (name : String) (cs : List Char) : Except Error Nat := do
  let value ← headerField line name cs
  match readNatural? value with
  | some n => .ok n
  | none => .error (.map line (.noNumber value))

/-- The row in a line, without the carriage returns at its end. -/
def rowOfLine (cs : List Char) : List Char :=
  (cs.reverse.dropWhile (· == '\r')).reverse

/-- The rows in the lines after the header. -/
def rowsOfLines (lines : List (List Char)) : List (List Char) :=
  (lines.map rowOfLine).filter (· ≠ [])

/-- The number of lines in the header. -/
def headerLines : Nat := 4

/-- A fault in the rows, with the line of the whole text in place of the row. -/
def afterHeader : Error → Error
  | .map row cause => .map (row + headerLines) cause
  | other => other

/-- The grid with the given rows, if they have the declared dimensions. -/
def ofMapRows (height width : Nat) (rows : List (List Char)) : Except Error Grid := do
  if rows.length ≠ height then
    .error (.map (headerLines + 1 + min rows.length height) (.rowCount rows.length height))
  let grid ← (ofRows rows).mapError afterHeader
  if grid.width ≠ width then .error (.map (headerLines + 1) (.columnCount grid.width width))
  .ok grid

/-- The next line of the header and the lines after it. -/
def headerLine : List (List Char) → Except Error (List Char × List (List Char))
  | [] => .error (.map 0 .endOfText)
  | line :: others => .ok (line, others)

/-- Reads the lines of a map. -/
def ofMapLines (lines : List (List Char)) : Except Error Grid := do
  let (line, lines) ← headerLine lines
  let kind ← headerField 1 "type" line
  if kind ≠ "octile".toList then .error (.map 1 (.unknownKind kind))
  let (line, lines) ← headerLine lines
  let height ← headerNumber 2 "height" line
  let (line, lines) ← headerLine lines
  let width ← headerNumber 3 "width" line
  let (line, lines) ← headerLine lines
  if Text.trim line ≠ "map".toList then .error (.map 4 (.noMapLine (Text.trim line)))
  ofMapRows height width (rowsOfLines lines)

/-- Reads a map. -/
def ofMap (text : String) : Except Error Grid :=
  ofMapLines (Text.lines text.toList)

end Wayfinding.Grid
