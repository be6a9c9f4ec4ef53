import Wayfinding.Error

/-!
# Grids

* A `Grid` has a height, a width and for each cell whether an obstacle stands on it. Cells are
  numbered column by column: `Grid.index` is `row + column * height`.
* `Grid.locate` numbers a cell of the grid and refuses every other one; `Grid.cellAt` is its way
  back (`cellAt_index`, `index_cellAt`).
* `Grid.wordIndex` is the number as a word of 64 bits has it. `Grid.setBlocked` goes by this one,
  for any cell, and refuses a number that no cell of the grid has.
* `Grid.ofRows` reads a grid from its rows, `Grid.padded` puts a border of obstacles around it.
-/

namespace Wayfinding

/-- Cells that are open or blocked by an obstacle, as `blocked` says of each of them, column by
column. -/
structure Grid where
  height : Nat
  width : Nat
  blocked : Vector Bool (height * width)
deriving DecidableEq

namespace Grid

/-! ## 1. Numbers of cells -/

/-- The number of cells. -/
abbrev size (grid : Grid) : Nat :=
  grid.height * grid.width

/-- The cell lies in the grid. -/
def Inside (grid : Grid) (cell : Cell) : Prop :=
  cell.row < grid.height ∧ cell.col < grid.width

instance (grid : Grid) (cell : Cell) : Decidable (grid.Inside cell) :=
  inferInstanceAs (Decidable (_ ∧ _))

/-- The number of a cell. A row beyond the height runs on into the next columns. -/
def index (grid : Grid) (cell : Cell) : Nat :=
  cell.row + cell.col * grid.height

/-- The number of a cell in a word of 64 bits, which starts again at zero where it is full. -/
def wordIndex (grid : Grid) (cell : Cell) : Nat :=
  grid.index cell % UInt64.size

/-- The cell with a number. -/
def cellAt (grid : Grid) (i : Nat) : Cell :=
  ⟨i % grid.height, i / grid.height⟩

theorem index_lt {grid : Grid} {cell : Cell} (h : grid.Inside cell) :
    grid.index cell < grid.size := by
  have hcol : (cell.col + 1) * grid.height ≤ grid.width * grid.height :=
    Nat.mul_le_mul_right _ h.2
  have hrow := h.1
  simp only [index, size, Nat.mul_comm grid.height]
  rw [Nat.add_mul, Nat.one_mul] at hcol
  omega

theorem cellAt_index {grid : Grid} {cell : Cell} (h : cell.row < grid.height) :
    grid.cellAt (grid.index cell) = cell := by
  have hpos : 0 < grid.height := by omega
  simp only [cellAt, index, Nat.add_mul_mod_self_right, Nat.mod_eq_of_lt h,
    Nat.add_mul_div_right _ _ hpos, Nat.div_eq_of_lt h, Nat.zero_add]

theorem index_cellAt (grid : Grid) (i : Nat) : grid.index (grid.cellAt i) = i := by
  simp only [cellAt, index]
  rw [Nat.mul_comm]
  exact Nat.mod_add_div i grid.height

theorem inside_cellAt {grid : Grid} {i : Nat} (h : i < grid.size) : grid.Inside (grid.cellAt i) := by
  have hpos : 0 < grid.height := Nat.pos_of_ne_zero fun h0 => by simp [size, h0] at h
  exact ⟨Nat.mod_lt _ hpos, Nat.div_lt_of_lt_mul h⟩

/-- A word has room for the numbers of the cells of the grid, if it has for how many there are. -/
theorem wordIndex_of_inside {grid : Grid} {cell : Cell} (hsize : grid.size ≤ UInt64.size)
    (h : grid.Inside cell) : grid.wordIndex cell = grid.index cell :=
  Nat.mod_eq_of_lt (Nat.lt_of_lt_of_le (index_lt h) hsize)

/-- The number of a cell of the grid. -/
def locate (grid : Grid) (endpoint : Endpoint) (cell : Cell) : Except Error (Fin grid.size) :=
  if h : grid.Inside cell then .ok ⟨grid.index cell, index_lt h⟩
  else .error (.cell endpoint cell grid.height grid.width)

/-- A number of an end, if the grid has a cell with it. -/
def checkIndex (grid : Grid) (endpoint : Endpoint) (i : Nat) : Except Error (Fin grid.size) :=
  if h : i < grid.size then .ok ⟨i, h⟩ else .error (.index endpoint i grid.size)

/-- The cell with a number; a grid without rows has none. -/
def cellAt? (grid : Grid) (i : Nat) : Except Error Cell :=
  if grid.height = 0 then .error .noRows else .ok (grid.cellAt i)

/-! ## 2. Obstacles -/

/-- Whether an obstacle stands on the cell with a number. -/
def isBlocked? (grid : Grid) (i : Nat) : Except Error Bool :=
  if h : i < grid.size then .ok grid.blocked[i] else .error (.lookup i grid.size)

/-- Whether no one can stand on a cell: an obstacle does, or the grid has no such cell. -/
def isObstacle (grid : Grid) (cell : Cell) : Bool :=
  if h : grid.Inside cell then
    have := index_lt h
    grid.blocked[grid.index cell]
  else true

theorem isObstacle_of_inside {grid : Grid} {cell : Cell} (h : grid.Inside cell)
    (hi : grid.index cell < grid.size) : grid.isObstacle cell = grid.blocked[grid.index cell] :=
  dif_pos h

/-- Grids of the same dimensions with the same obstacles are equal. -/
theorem ext_isObstacle {a b : Grid} (height : a.height = b.height) (width : a.width = b.width)
    (obstacles : ∀ cell, a.Inside cell → a.isObstacle cell = b.isObstacle cell) : a = b := by
  obtain ⟨h, w, blocked⟩ := a
  obtain ⟨h', w', blocked'⟩ := b
  subst height width
  congr
  ext i hi
  have inside : (⟨h, w, blocked⟩ : Grid).Inside ((⟨h, w, blocked⟩ : Grid).cellAt i) :=
    inside_cellAt hi
  have inside' : (⟨h, w, blocked'⟩ : Grid).Inside ((⟨h, w, blocked⟩ : Grid).cellAt i) := inside
  have same := obstacles _ inside
  rw [isObstacle_of_inside inside (index_lt inside), isObstacle_of_inside inside' (index_lt inside')]
    at same
  have back : (⟨h, w, blocked'⟩ : Grid).index ((⟨h, w, blocked⟩ : Grid).cellAt i) = i :=
    index_cellAt ⟨h, w, blocked'⟩ i
  simpa only [index_cellAt, back] using same

/-- The number of open cells. -/
def openCount (grid : Grid) : Nat :=
  grid.blocked.toList.count false

/-- Puts an obstacle on the cell with a number, or takes it away. -/
def setAt (grid : Grid) (i : Nat) (value : Bool) : Except Error Grid :=
  if h : i < grid.size then .ok { grid with blocked := grid.blocked.set i value h }
  else .error (.lookup i grid.size)

/-- Puts an obstacle on the cell with the number of `cell` as a word has it, or takes it away. -/
def setBlocked (grid : Grid) (cell : Cell) (value : Bool) : Except Error Grid :=
  grid.setAt (grid.wordIndex cell) value

/-! ## 3. New grids -/

/-- The grid with an obstacle on each cell that the function says so of. -/
def tabulate (height width : Nat) (obstacle : Cell → Bool) : Grid :=
  ⟨height, width, Vector.ofFn fun i => obstacle ⟨i.val % height, i.val / height⟩⟩

theorem isObstacle_tabulate {height width : Nat} {obstacle : Cell → Bool} {cell : Cell}
    (h : cell.row < height ∧ cell.col < width) :
    (tabulate height width obstacle).isObstacle cell = obstacle cell := by
  have inside : (tabulate height width obstacle).Inside cell := h
  have back : (tabulate height width obstacle).cellAt ((tabulate height width obstacle).index cell)
      = cell := cellAt_index h.1
  rw [isObstacle_of_inside inside (index_lt inside)]
  exact (Vector.getElem_ofFn _).trans (congrArg obstacle back)

/-- The grid without obstacles. -/
def allOpen (height width : Nat) : Grid :=
  ⟨height, width, Vector.replicate _ false⟩

/-- The grid with the given cells, column by column. -/
def ofCells (height width : Nat) (cells : List Bool) : Except Error Grid :=
  if h : cells.length = height * width then .ok ⟨height, width, ⟨cells.toArray, by simpa using h⟩⟩
  else .error (.tableSize .occupancy (height * width) cells.length)

/-- The characters for open cells; every other one is an obstacle. -/
def isPassable (c : Char) : Bool :=
  c == '.' || c == 'G' || c == 'S'

/-- Whether the character for a cell is one for an obstacle, or there is none. -/
def isObstacleIn (rows : Array (Array Char)) (cell : Cell) : Bool :=
  match rows[cell.row]?.bind (·[cell.col]?) with
  | some c => !isPassable c
  | none => true

/-- The grid with the given rows, all as long as the first one. -/
def ofRows (rows : List (List Char)) : Except Error Grid :=
  let width := (rows.head?.map List.length).getD 0
  match rows.zipIdx.find? fun (row, _) => row.length ≠ width with
  | some (row, i) => .error (.map (i + 1) (.rowLength row.length width))
  | none => .ok (tabulate rows.length width (isObstacleIn (rows.map List.toArray).toArray))

/-! ## 4. The border -/

/-- Whether an obstacle stands on a cell of the padded grid: the border is the first row and column,
and all that lies outside the grid. -/
def isObstaclePadded (grid : Grid) (cell : Cell) : Bool :=
  if 0 < cell.row ∧ 0 < cell.col then grid.isObstacle cell.unshifted else true

/-- The grid with a border of obstacles around it. A cell of the grid is shifted by it. -/
def padded (grid : Grid) : Grid :=
  tabulate (grid.height + 2) (grid.width + 2) grid.isObstaclePadded

@[simp] theorem height_padded (grid : Grid) : grid.padded.height = grid.height + 2 := rfl

@[simp] theorem width_padded (grid : Grid) : grid.padded.width = grid.width + 2 := rfl

theorem inside_padded {grid : Grid} {cell : Cell} (h : grid.Inside cell) :
    grid.padded.Inside cell.shifted := by
  have hrow := h.1
  have hcol := h.2
  constructor <;> simp only [height_padded, width_padded, Cell.shifted] <;> omega

theorem isObstacle_padded_shifted (grid : Grid) (cell : Cell) :
    grid.padded.isObstacle cell.shifted = grid.isObstacle cell := by
  by_cases h : grid.padded.Inside cell.shifted
  · have h' : cell.shifted.row < grid.height + 2 ∧ cell.shifted.col < grid.width + 2 := h
    rw [padded, isObstacle_tabulate h', isObstaclePadded, if_pos ⟨Nat.succ_pos _, Nat.succ_pos _⟩,
      Cell.unshifted_shifted]
  · have outside : ¬ grid.Inside cell := fun inside => h (inside_padded inside)
    rw [isObstacle, isObstacle, dif_neg h, dif_neg outside]

/-- The number of a cell of the grid in the padded grid. -/
def locatePadded (grid : Grid) (endpoint : Endpoint) (cell : Cell) :
    Except Error (Fin grid.padded.size) :=
  if h : grid.Inside cell then .ok ⟨grid.padded.index cell.shifted, index_lt (inside_padded h)⟩
  else .error (.cell endpoint cell grid.height grid.width)

end Grid

end Wayfinding
