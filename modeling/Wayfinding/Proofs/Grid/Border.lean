import Wayfinding.Proofs.Grid.Moves
import Wayfinding.Proofs.Sequence

/-!
# The border is built by copying

* `Grid.foldlM_setAt`: setting cells of a grid one after the other does not fail and changes these
  cells only. Their numbers may be taken from words (`Grid.foldlM_setBlocked_eq`).
* `Grid.copyCell` copies one cell of a grid into a larger one, one row and one column further. The
  obstacle is looked up by its number and set by its number, and neither may be out of range.
* `Grid.foldlM_copyCell`: no copy fails, and afterwards exactly the copied cells are those of the
  grid.
* `Grid.copiedPadded_eq`: so copying every cell into a grid full of obstacles makes the padded grid.
-/

namespace Wayfinding.Grid

variable {grid target : Grid} {cell : Cell}

/-! ## 1. One cell -/

theorem isObstacle_of_not_inside (h : ¬ grid.Inside cell) : grid.isObstacle cell = true :=
  dif_neg h

theorem index_injOn {a b : Cell} (ha : grid.Inside a) (hb : grid.Inside b)
    (h : grid.index a = grid.index b) : a = b := by
  rw [← cellAt_index ha.1, ← cellAt_index hb.1, h]

theorem isBlocked?_index (h : grid.Inside cell) :
    grid.isBlocked? (grid.index cell) = .ok (grid.isObstacle cell) := by
  rw [isObstacle_of_inside h (index_lt h)]
  exact dif_pos (index_lt h)

/-- **Setting a cell of the grid does not fail**, and changes that cell only. -/
theorem setAt_of_inside (h : grid.Inside cell) (value : Bool) :
    ∃ next, grid.setAt (grid.index cell) value = .ok next ∧ next.height = grid.height ∧
      next.width = grid.width ∧
      ∀ c, next.isObstacle c = if c = cell then value else grid.isObstacle c := by
  have hcell := index_lt h
  refine ⟨⟨grid.height, grid.width, grid.blocked.set (grid.index cell) value⟩, dif_pos hcell, rfl,
    rfl, fun c => ?_⟩
  by_cases hc : grid.Inside c
  · have hlt := index_lt hc
    have hset : (⟨grid.height, grid.width, grid.blocked.set (grid.index cell) value⟩ :
        Grid).isObstacle c = (grid.blocked.set (grid.index cell) value)[grid.index c] := dif_pos hc
    rw [hset, isObstacle_of_inside hc hlt, Vector.getElem_set]
    by_cases hsame : c = cell
    · rw [if_pos hsame, if_pos (congrArg grid.index hsame.symm)]
    · rw [if_neg hsame, if_neg fun hi => hsame (index_injOn hc h hi.symm)]
  · have hne : c ≠ cell := fun hsame => hc (hsame ▸ h)
    rw [if_neg hne, isObstacle_of_not_inside hc]
    exact dif_neg hc

/-! ## 2. Many cells -/

/-- **Setting cells of the grid does not fail.** Afterwards these cells are as they were set, and the
others as before. -/
theorem foldlM_setAt {writes : List (Cell × Bool)} {f : Cell → Bool}
    (h : ∀ x ∈ writes, grid.Inside x.1 ∧ x.2 = f x.1) :
    ∃ next, writes.foldlM (fun grid x => grid.setAt (grid.index x.1) x.2) grid = .ok next ∧
      next.height = grid.height ∧ next.width = grid.width ∧
      ∀ c, next.isObstacle c = if ∃ x ∈ writes, x.1 = c then f c else grid.isObstacle c := by
  -- on the cells that are left, for any grid, since each write changes it
  induction writes generalizing grid with
  | nil => exact ⟨grid, rfl, rfl, rfl, fun c => by simp⟩
  | cons x writes ih =>
      obtain ⟨hin, hvalue⟩ := h x List.mem_cons_self
      obtain ⟨written, hset, hheight, hwidth, hwritten⟩ := setAt_of_inside hin x.2
      have hleft : ∀ y ∈ writes, written.Inside y.1 ∧ y.2 = f y.1 := by
        intro y hy
        obtain ⟨hleftin, hleftvalue⟩ := h y (List.mem_cons_of_mem _ hy)
        exact ⟨⟨hheight ▸ hleftin.1, hwidth ▸ hleftin.2⟩, hleftvalue⟩
      obtain ⟨next, hfold, hnext, hnext', hobstacles⟩ := ih hleft
      refine ⟨next, ?_, hnext.trans hheight, hnext'.trans hwidth, fun c => ?_⟩
      · rw [List.foldlM_cons, hset]
        exact hfold
      · rw [hobstacles, hwritten]
        simp only [List.mem_cons, exists_eq_or_imp]
        by_cases hsame : c = x.1
        · simp [hsame, hvalue]
        · simp only [hsame, Ne.symm hsame, false_or, if_false]

/-- Cells of the grid may be set by their number in a word. -/
theorem foldlM_setBlocked_eq {writes : List (Cell × Bool)} (hsize : grid.size ≤ UInt64.size)
    (h : ∀ x ∈ writes, grid.Inside x.1) :
    writes.foldlM (fun grid x => grid.setBlocked x.1 x.2) grid =
      writes.foldlM (fun grid x => grid.setAt (grid.index x.1) x.2) grid := by
  induction writes generalizing grid with
  | nil => rfl
  | cons x writes ih =>
      have hin := h x List.mem_cons_self
      obtain ⟨next, hset, hheight, hwidth, _⟩ := setAt_of_inside hin x.2
      have hword : grid.setBlocked x.1 x.2 = .ok next := by
        rw [setBlocked, wordIndex_of_inside hsize hin, hset]
      have hnext : ∀ y ∈ writes, next.Inside y.1 := by
        intro y hy
        have hleft := h y (List.mem_cons_of_mem _ hy)
        exact ⟨hheight ▸ hleft.1, hwidth ▸ hleft.2⟩
      rw [List.foldlM_cons, List.foldlM_cons, hword, hset]
      exact ih (by rw [size, hheight, hwidth]; exact hsize) hnext

/-- Copies a cell of the grid into a larger one, one row and one column further. -/
def copyCell (grid target : Grid) (cell : Cell) : Except Error Grid := do
  let value ← grid.isBlocked? (grid.index cell)
  target.setAt (target.index cell.shifted) value

/-- Copying cells of the grid sets them to what they are in the grid. -/
theorem foldlM_copyCell_eq {cells : List Cell} (h : ∀ cell ∈ cells, grid.Inside cell) :
    cells.foldlM grid.copyCell target =
      (cells.map fun cell => (cell.shifted, grid.isObstacle cell)).foldlM
        (fun target x => target.setAt (target.index x.1) x.2) target := by
  refine foldlM_eq_map (fun cell hcell target => ?_) target
  unfold copyCell
  rw [isBlocked?_index (h cell hcell)]
  rfl

/-- The larger grid has room for a border. -/
structure Frames (target grid : Grid) : Prop where
  height : target.height = grid.height + 2
  width : target.width = grid.width + 2

theorem Frames.inside (hframe : target.Frames grid) (h : grid.Inside cell) :
    target.Inside cell.shifted := by
  unfold Inside
  rw [hframe.height, hframe.width]
  exact inside_padded h

/-- **No copy fails.** Afterwards the copied cells are as in the grid and the others as before. -/
theorem foldlM_copyCell {cells : List Cell} (hframe : target.Frames grid)
    (h : ∀ cell ∈ cells, grid.Inside cell) :
    ∃ next, cells.foldlM grid.copyCell target = .ok next ∧ next.Frames grid ∧
      ∀ c, next.isObstacle c =
        if ∃ cell ∈ cells, c = cell.shifted then grid.isObstacle c.unshifted
        else target.isObstacle c := by
  have hwrites : ∀ x ∈ cells.map fun cell => (cell.shifted, grid.isObstacle cell),
      target.Inside x.1 ∧ x.2 = grid.isObstacle x.1.unshifted := by
    intro x hx
    obtain ⟨cell, hcell, rfl⟩ := List.mem_map.mp hx
    exact ⟨hframe.inside (h cell hcell), rfl⟩
  obtain ⟨next, hfold, hheight, hwidth, hobstacles⟩ :=
    foldlM_setAt (f := fun c => grid.isObstacle c.unshifted) hwrites
  refine ⟨next, (foldlM_copyCell_eq h).trans hfold,
    ⟨hheight.trans hframe.height, hwidth.trans hframe.width⟩, fun c => ?_⟩
  have hcopied : (∃ x ∈ cells.map fun cell => (cell.shifted, grid.isObstacle cell), x.1 = c) ↔
      ∃ cell ∈ cells, c = cell.shifted := by
    simp [eq_comm]
  simp only [hobstacles, hcopied]

/-! ## 3. All cells -/

/-- The cells of a grid, column by column. -/
def cells (grid : Grid) : List Cell :=
  (List.range grid.width).flatMap fun col => (List.range grid.height).map fun row => ⟨row, col⟩

theorem mem_cells : cell ∈ grid.cells ↔ grid.Inside cell := by
  unfold cells Inside
  simp only [List.mem_flatMap, List.mem_map, List.mem_range]
  constructor
  · intro h
    obtain ⟨col, hcol, row, hrow, rfl⟩ := h
    exact ⟨hrow, hcol⟩
  · intro h
    exact ⟨cell.col, h.2, cell.row, h.1, rfl⟩

/-- **The border is full of obstacles**: so is every cell of the padded grid that is no cell of the
grid. -/
theorem isObstacle_padded_of_new {c : Cell} (h : ∀ old, grid.Inside old → old.shifted ≠ c) :
    grid.padded.isObstacle c = true := by
  by_contra hopen
  obtain ⟨old, rfl, hold⟩ := exists_shifted_of_open (eq_false_of_ne_true hopen)
  exact h old (inside_of_open hold) rfl

/-- A grid full of obstacles that has room for a border. -/
def frame (grid : Grid) : Grid :=
  ⟨grid.height + 2, grid.width + 2, Vector.replicate _ true⟩

theorem isObstacle_frame (grid : Grid) (c : Cell) : grid.frame.isObstacle c = true := by
  unfold isObstacle
  split
  · exact Vector.getElem_replicate _
  · rfl

/-- The grid copied cell by cell into its frame. -/
def copiedPadded (grid : Grid) : Except Error Grid :=
  grid.cells.foldlM grid.copyCell grid.frame

/-- **Copying makes the padded grid**, and no lookup is out of range. -/
theorem copiedPadded_eq (grid : Grid) : grid.copiedPadded = .ok grid.padded := by
  have hroom : grid.frame.Frames grid := ⟨rfl, rfl⟩
  obtain ⟨next, hfold, hframe, hobstacles⟩ :=
    foldlM_copyCell hroom fun cell (h : cell ∈ grid.cells) => mem_cells.mp h
  refine hfold.trans (congrArg Except.ok ?_)
  refine ext_isObstacle hframe.height hframe.width fun c hc => ?_
  have hpadded : grid.padded.isObstacle c = grid.isObstaclePadded c :=
    isObstacle_tabulate ⟨hframe.height ▸ hc.1, hframe.width ▸ hc.2⟩
  rw [hobstacles, isObstacle_frame, hpadded]
  unfold isObstaclePadded
  by_cases hcopied : ∃ cell ∈ grid.cells, c = cell.shifted
  · obtain ⟨cell, _, rfl⟩ := id hcopied
    rw [if_pos hcopied, if_pos ⟨Nat.succ_pos _, Nat.succ_pos _⟩]
  · rw [if_neg hcopied]
    split
    · rename_i hpos
      have hback : c = c.unshifted.shifted := (Cell.shifted_unshifted hpos.1 hpos.2).symm
      exact (isObstacle_of_not_inside fun hin => hcopied ⟨_, mem_cells.mpr hin, hback⟩).symm
    · rfl

end Wayfinding.Grid
