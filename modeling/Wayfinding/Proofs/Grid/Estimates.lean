import Wayfinding.Proofs.Grid.Moves

/-!
# Estimates and moves

* On a spot the table of a metric holds the distance of its cell to the goal (`table_spot`), and no
  entry is greater than the height and the width of the grid together (`table_le`).
* A move lowers the distance to a goal by at most `Metric.drop`, which is one but for the Manhattan
  distance and moves over corners (`distance_le_of_adjacent`).
-/

namespace Wayfinding.Metric

variable {metric : Metric} {neighbourhood : Neighbourhood} {grid : Grid} {a b goal : Cell}

/-- By how much a move may lower the distance to a goal. -/
def drop : Neighbourhood → Metric → Nat
  | .eight, manhattan => 2
  | _, _ => 1

theorem drop_le_two : drop neighbourhood metric ≤ 2 := by
  cases neighbourhood <;> cases metric <;> decide

theorem drop_eq_one (h : neighbourhood = .four ∨ metric ≠ manhattan) :
    drop neighbourhood metric = 1 := by
  cases neighbourhood with
  | four => cases metric <;> rfl
  | eight =>
      cases metric with
      | manhattan =>
          rcases h with h | h
          · cases h
          · exact absurd rfl h
      | zero => rfl
      | chebyshev => rfl

theorem gap_triangle (l m n : Nat) : gap l n ≤ gap m n + gap l m := by
  unfold gap
  omega

/-- **A move lowers the distance to a goal by no more than `drop`.** -/
theorem distance_le_of_adjacent (h : neighbourhood.Adjacent a b) (goal : Cell) :
    metric.distance a goal ≤ metric.distance b goal + drop neighbourhood metric := by
  have hrow := gap_triangle a.row b.row goal.row
  have hcol := gap_triangle a.col b.col goal.col
  cases neighbourhood with
  | four =>
      have hstep : gap a.row b.row + gap a.col b.col = 1 := h
      cases metric with
      | zero => exact Nat.zero_le _
      | manhattan =>
          show gap a.row goal.row + gap a.col goal.col ≤ gap b.row goal.row + gap b.col goal.col + 1
          omega
      | chebyshev =>
          show max (gap a.row goal.row) (gap a.col goal.col) ≤
            max (gap b.row goal.row) (gap b.col goal.col) + 1
          omega
  | eight =>
      have hstep : max (gap a.row b.row) (gap a.col b.col) = 1 := h
      cases metric with
      | zero => exact Nat.zero_le _
      | manhattan =>
          show gap a.row goal.row + gap a.col goal.col ≤ gap b.row goal.row + gap b.col goal.col + 2
          omega
      | chebyshev =>
          show max (gap a.row goal.row) (gap a.col goal.col) ≤
            max (gap b.row goal.row) (gap b.col goal.col) + 1
          omega

theorem gap_eq_zero_iff {m n : Nat} : gap m n = 0 ↔ m = n := by
  unfold gap
  omega

theorem distance_self (metric : Metric) (a : Cell) : metric.distance a a = 0 := by
  have hgap (m : Nat) : gap m m = 0 := gap_eq_zero_iff.mpr rfl
  cases metric with
  | zero => rfl
  | manhattan => exact congrArg₂ (· + ·) (hgap a.row) (hgap a.col)
  | chebyshev => exact congrArg₂ max (hgap a.row) (hgap a.col)

/-- Two cells are apart under every metric but the one that does not measure. -/
theorem distance_pos (h : metric ≠ zero) (hne : a ≠ b) : 0 < metric.distance a b := by
  have hgap : gap a.row b.row ≠ 0 ∨ gap a.col b.col ≠ 0 := by
    by_contra hsame
    simp only [not_or, ne_eq, not_not, gap_eq_zero_iff] at hsame
    exact hne (congrArg₂ Cell.mk hsame.1 hsame.2)
  cases metric with
  | zero => exact absurd rfl h
  | manhattan =>
      show 0 < gap a.row b.row + gap a.col b.col
      omega
  | chebyshev =>
      show 0 < max (gap a.row b.row) (gap a.col b.col)
      omega

theorem distance_shifted : metric.distance a.shifted b.shifted = metric.distance a b := by
  have hgap : ∀ m n, gap (m + 1) (n + 1) = gap m n := by
    intro m n
    unfold gap
    omega
  cases metric with
  | zero => rfl
  | manhattan => exact congrArg₂ (· + ·) (hgap _ _) (hgap _ _)
  | chebyshev => exact congrArg₂ max (hgap _ _) (hgap _ _)

theorem distance_le (ha : grid.Inside a) (hb : grid.Inside b) :
    metric.distance a b ≤ grid.height + grid.width := by
  have hrow : gap a.row b.row < grid.height := by
    have := ha.1
    have := hb.1
    unfold gap
    omega
  have hcol : gap a.col b.col < grid.width := by
    have := ha.2
    have := hb.2
    unfold gap
    omega
  cases metric with
  | zero => exact Nat.zero_le _
  | manhattan => exact Nat.add_le_add hrow.le hcol.le
  | chebyshev =>
      show max (gap a.row b.row) (gap a.col b.col) ≤ _
      omega

theorem table_le (metric : Metric) (grid : Grid) (goal i : Fin grid.size) :
    (metric.table grid goal).get i ≤ grid.height + grid.width := by
  have hentry : (metric.table grid goal).get i =
      metric.distance (grid.cellAt i) (grid.cellAt goal) := Vector.getElem_ofFn _
  rw [hentry]
  exact distance_le (Grid.inside_cellAt i.isLt) (Grid.inside_cellAt goal.isLt)

/-- **On a spot the table holds the distance of its cell.** -/
theorem table_spot (ha : grid.Inside a) (hg : grid.Inside goal) :
    (metric.table grid.padded (grid.spot goal hg)).get (grid.spot a ha) =
      metric.distance a goal := by
  have hentry : (metric.table grid.padded (grid.spot goal hg)).get (grid.spot a ha) =
      metric.distance (grid.padded.cellAt (grid.spot a ha).val)
        (grid.padded.cellAt (grid.spot goal hg).val) := Vector.getElem_ofFn _
  rw [hentry, Grid.cellAt_spot, Grid.cellAt_spot, distance_shifted]

end Wayfinding.Metric
