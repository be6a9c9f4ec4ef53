/-!
# Neighbourhoods

A `Neighbourhood` lists the directions in which a move leads; `offsets` turns them into differences
of cell numbers in a grid of a given height.
-/

namespace Wayfinding

/-- Which cells count as next to one another: those beside, above and below, or also those that
share a corner. -/
inductive Neighbourhood where
  | four
  | eight
deriving DecidableEq, Repr

/-- A step in rows and in columns. -/
structure Direction where
  rows : Int
  cols : Int
deriving DecidableEq, Repr

namespace Neighbourhood

/-- The word for a neighbourhood. -/
def name : Neighbourhood → String
  | four => "four"
  | eight => "eight"

/-- North, south, west and east. -/
def straight : List Direction :=
  [⟨-1, 0⟩, ⟨1, 0⟩, ⟨0, -1⟩, ⟨0, 1⟩]

/-- North-west, south-west, north-east and south-east. -/
def diagonal : List Direction :=
  [⟨-1, -1⟩, ⟨1, -1⟩, ⟨-1, 1⟩, ⟨1, 1⟩]

/-- The directions of a move, in the order in which they are tried. -/
def directions : Neighbourhood → List Direction
  | four => straight
  | eight => straight ++ diagonal

/-- The difference of cell numbers that a direction makes in a grid with `height` rows. -/
def offset (height : Nat) (direction : Direction) : Int :=
  direction.rows + direction.cols * height

/-- The differences of cell numbers of all directions. -/
def offsets (neighbourhood : Neighbourhood) (height : Nat) : List Int :=
  neighbourhood.directions.map (offset height)

end Neighbourhood

end Wayfinding
