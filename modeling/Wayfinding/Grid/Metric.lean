import Wayfinding.Grid.Basic

/-!
# Estimates of the cost that remains

A `Metric` measures the distance of two cells without regard to obstacles; `Metric.table` holds the
distance of every cell of a grid to a goal.
-/

namespace Wayfinding

/-- A way to estimate a distance. -/
inductive Metric where
  | zero
  | manhattan
  | chebyshev
deriving DecidableEq, Repr

namespace Metric

/-- The word for a metric. -/
def name : Metric → String
  | zero => "zero"
  | manhattan => "manhattan"
  | chebyshev => "chebyshev"

/-- How far apart two numbers are. -/
def gap (m n : Nat) : Nat :=
  (m - n) + (n - m)

/-- The distance of two cells. -/
def distance : Metric → Cell → Cell → Nat
  | zero, _, _ => 0
  | manhattan, a, b => gap a.row b.row + gap a.col b.col
  | chebyshev, a, b => max (gap a.row b.row) (gap a.col b.col)

/-- The distance of each cell of the grid to the goal. -/
def table (metric : Metric) (grid : Grid) (goal : Fin grid.size) : Vector Nat grid.size :=
  Vector.ofFn fun i => metric.distance (grid.cellAt i) (grid.cellAt goal)

/-- The table for a goal that is given by its number. -/
def table? (metric : Metric) (grid : Grid) (goal : Nat) : Except Error (Vector Nat grid.size) :=
  (grid.checkIndex .goal goal).map (metric.table grid)

end Metric

end Wayfinding
