import Wayfinding.Proofs.Grid.Estimates
import Wayfinding.Proofs.Sequence

/-!
# Tables of estimates

* `Metric.tableChecked` makes the table of a metric and asks for the coordinate of every number. A
  grid with rows has one for each, so a goal that has a number in range has a table
  (`tableChecked_of_rows`).
* `Metric.Guides` says what makes a table a guide to the goal: it is zero there, it changes little
  from one move to the next, and so it is never much greater than the length of a walk to the goal.
* `tableChecked_guides`: every table is such a guide.
-/

namespace Wayfinding

variable {grid : Grid} {metric : Metric} {neighbourhood : Neighbourhood} {a b : Cell} {k goal : Nat}

/-! ## 1. Tables with every coordinate checked -/

/-- The distance of each cell to the goal, every coordinate being asked for. -/
def Metric.tableChecked (metric : Metric) (grid : Grid) (goal : Nat) : Except Error (List Nat) := do
  let goal ← grid.checkIndex .goal goal
  let target ← grid.cellAt? goal
  (List.range grid.size).mapM fun i => do
    let cell ← grid.cellAt? i
    .ok (metric.distance cell target)

theorem Grid.cellAt?_of_rows (h : 0 < grid.height) (i : Nat) :
    grid.cellAt? i = .ok (grid.cellAt i) :=
  if_neg h.ne'

/-- **A grid with rows has a coordinate for every number**, and so a table for every goal. -/
theorem Metric.tableChecked_of_rows (h : 0 < grid.height) (goal : Fin grid.size) :
    metric.tableChecked grid goal = .ok (metric.table grid goal).toList := by
  have hgoal : grid.checkIndex .goal goal = .ok goal := dif_pos goal.isLt
  have hentries : (List.range grid.size).mapM (fun i => do
        let cell ← grid.cellAt? i
        Except.ok (metric.distance cell (grid.cellAt goal))) =
      .ok ((List.range grid.size).map fun i =>
        metric.distance (grid.cellAt i) (grid.cellAt goal)) :=
    mapM_eq_ok fun i _ => by
      rw [Grid.cellAt?_of_rows h]
      rfl
  unfold tableChecked
  rw [hgoal]
  show grid.cellAt? goal >>= _ = _
  rw [Grid.cellAt?_of_rows h]
  refine hentries.trans (congrArg Except.ok ?_)
  refine List.ext_getElem ?_ fun i hi hi' => ?_
  · simp
  · simp [table]

/-! ## 2. What a table holds -/

namespace Metric

theorem table?_of_lt (h : goal < grid.size) :
    metric.table? grid goal = .ok (metric.table grid ⟨goal, h⟩) := by
  unfold table? Grid.checkIndex
  rw [dif_pos h]
  rfl

theorem table?_of_le (h : grid.size ≤ goal) :
    metric.table? grid goal = .error (.index .goal goal grid.size) := by
  unfold table? Grid.checkIndex
  rw [dif_neg h.not_gt]
  rfl

/-- **No coordinate is asked for in vain.** A goal whose number is out of range is refused before
any is. -/
theorem tableChecked_eq (metric : Metric) (grid : Grid) (goal : Nat) :
    metric.tableChecked grid goal = (metric.table? grid goal).map Vector.toList := by
  by_cases h : goal < grid.size
  · have hpos : 0 < grid.height := Nat.pos_of_ne_zero fun h0 => by simp [Grid.size, h0] at h
    rw [table?_of_lt h]
    exact tableChecked_of_rows hpos ⟨goal, h⟩
  · have hcheck : grid.checkIndex .goal goal = .error (.index .goal goal grid.size) := dif_neg h
    rw [table?_of_le (not_lt.mp h), tableChecked, hcheck]
    rfl

/-- The entry of a number is the distance of its cell. -/
theorem table_getElem? {goal : Fin grid.size} {i : Nat} (h : i < grid.size) :
    (metric.table grid goal).toList[i]? =
      some (metric.distance (grid.cellAt i) (grid.cellAt goal)) := by
  rw [Vector.getElem?_toList, Vector.getElem?_eq_getElem h]
  exact congrArg some (Vector.getElem_ofFn _)

theorem table_index {goal : Fin grid.size} (h : grid.Inside a) :
    (metric.table grid goal).toList[grid.index a]? =
      some (metric.distance a (grid.cellAt goal)) := by
  rw [table_getElem? (Grid.index_lt h), Grid.cellAt_index h.1]

/-! ## 3. Tables as guides -/

theorem gap_comm (m n : Nat) : gap m n = gap n m :=
  Nat.add_comm _ _

theorem adjacent_comm : neighbourhood.Adjacent a b ↔ neighbourhood.Adjacent b a := by
  cases neighbourhood with
  | four => simp only [Neighbourhood.Adjacent, gap_comm a.row, gap_comm a.col]
  | eight => simp only [Neighbourhood.Adjacent, gap_comm a.row, gap_comm a.col]

end Metric

/-- A move to a cell of the grid next to a cell, whether or not an obstacle stands there. -/
def Grid.Move (grid : Grid) (neighbourhood : Neighbourhood) (a b : Cell) : Prop :=
  neighbourhood.Adjacent a b ∧ grid.Inside b

namespace Metric

/-- A table of estimates that leads to the goal. Every other entry says that the goal is still
ahead, if the metric measures at all. Next to one another stand entries that differ by no more than
`drop`, and no walk to the goal is too short for the entry of the cell where it begins. -/
structure Guides (metric : Metric) (grid : Grid) (goal : Nat) (table : List Nat) : Prop where
  length : table.length = grid.size
  atGoal : table[goal]? = some 0
  ahead : metric ≠ zero → ∀ i, table[i]? = some 0 → i = goal
  step : ∀ neighbourhood a b, grid.Inside a → grid.Inside b → neighbourhood.Adjacent a b →
    ∃ x y, table[grid.index a]? = some x ∧ table[grid.index b]? = some y ∧
      x ≤ y + drop neighbourhood metric ∧ y ≤ x + drop neighbourhood metric
  walk : ∀ neighbourhood a k, grid.Inside a →
    Walk (grid.Move neighbourhood) a k (grid.cellAt goal) →
    ∃ x, table[grid.index a]? = some x ∧ x ≤ drop neighbourhood metric * k

/-- **A walk is at least as long as the distance of its ends**, but for `drop`. -/
theorem distance_le_of_walk (h : Walk (grid.Move neighbourhood) a k b) :
    metric.distance a b ≤ drop neighbourhood metric * k := by
  have hdistance : metric.distance a b ≤ metric.distance b b + drop neighbourhood metric * k :=
    h.le_add_mul fun _ _ _ hmove => distance_le_of_adjacent hmove.1 b
  rwa [distance_self, Nat.zero_add] at hdistance

theorem guides_table (metric : Metric) (grid : Grid) (goal : Fin grid.size) :
    metric.Guides grid goal (metric.table grid goal).toList where
  length := Vector.length_toList
  atGoal := by rw [table_getElem? goal.isLt, distance_self]
  ahead hmetric i hi := by
    have hlt : i < grid.size := by
      by_contra hge
      rw [List.getElem?_eq_none (Vector.length_toList.trans_le (not_lt.mp hge))] at hi
      cases hi
    rw [table_getElem? hlt, Option.some.injEq] at hi
    have hcell : grid.cellAt i = grid.cellAt goal := by
      by_contra hne
      exact (distance_pos hmetric hne).ne' hi
    have hindex := congrArg grid.index hcell
    rwa [Grid.index_cellAt, Grid.index_cellAt] at hindex
  step neighbourhood a b ha hb hadjacent :=
    ⟨_, _, table_index ha, table_index hb, distance_le_of_adjacent hadjacent _,
      distance_le_of_adjacent (adjacent_comm.mp hadjacent) _⟩
  walk neighbourhood a k ha hwalk := ⟨_, table_index ha, distance_le_of_walk hwalk⟩

/-- **Every table is a guide to its goal.** It is refused exactly if the number of the goal is out of
range, and no coordinate is asked for that a grid without rows does not have. Else it has one entry
for each cell; the one of the goal is zero, and no other is, if the metric measures at all. One move
changes it by no more than one, or two if it goes over a corner and rows and columns are added up;
hence a walk to the goal has at least as many moves as the entry says, or half as many. -/
theorem tableChecked_guides (metric : Metric) (grid : Grid) (goal : Nat) :
    metric.tableChecked grid goal = (metric.table? grid goal).map Vector.toList ∧
    (grid.size ≤ goal →
      metric.tableChecked grid goal = .error (.index .goal goal grid.size)) ∧
    (goal < grid.size →
      ∃ table, metric.tableChecked grid goal = .ok table ∧ metric.Guides grid goal table) := by
  refine ⟨tableChecked_eq metric grid goal, fun h => ?_, fun h => ?_⟩
  · rw [tableChecked_eq, table?_of_le h]
    rfl
  · refine ⟨(metric.table grid ⟨goal, h⟩).toList, ?_, guides_table metric grid ⟨goal, h⟩⟩
    rw [tableChecked_eq, table?_of_lt h]
    rfl

/-- A square of four open cells. -/
def courtyard : Grid :=
  ⟨2, 2, #v[false, false, false, false]⟩

/-- A cell with this number is out of range in the courtyard, and a grid without rows has none at
all. Across the courtyard it is one move over the corner, but two rows and columns. -/
theorem tableChecked_courtyard :
    manhattan.tableChecked courtyard 4 = .error (.index .goal 4 4) ∧
      manhattan.tableChecked (.allOpen 0 3) 0 = .error (.index .goal 0 0) ∧
      ∃ table, manhattan.tableChecked courtyard 3 = .ok table ∧ table.length = 4 ∧
        ∃ x, table[0]? = some x ∧ x ≤ 2 := by
  obtain ⟨_, hrefused, _⟩ := tableChecked_guides manhattan courtyard 4
  obtain ⟨_, hnowhere, _⟩ := tableChecked_guides manhattan (.allOpen 0 3) 0
  obtain ⟨_, _, htable⟩ := tableChecked_guides manhattan courtyard 3
  obtain ⟨table, hok, hguides⟩ := htable (by decide)
  have hacross : Walk (courtyard.Move .eight) ⟨0, 0⟩ 1 ⟨1, 1⟩ :=
    .step .stay ⟨rfl, by decide⟩
  obtain ⟨x, hx, hle⟩ := hguides.walk .eight ⟨0, 0⟩ 1 (by decide) hacross
  exact ⟨hrefused (by decide), hnowhere (by decide), table, hok, hguides.length, x, hx, hle⟩

end Metric

end Wayfinding
