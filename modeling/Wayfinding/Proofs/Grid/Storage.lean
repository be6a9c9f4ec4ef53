import Wayfinding.Proofs.Grid.Border
import Wayfinding.Proofs.Grid.Maps
import Wayfinding.Proofs.Sequence

/-!
# Cells in an array of any length

* A `Storage` has a height, a width and an array of cells, and nothing says how long the array is.
  The dimensions are words of 64 bits. So is the number of a cell, which may be out of range. A sum
  or product that has no room in a word starts again at zero.
* `Built` says how an array of cells comes about. Then it is `Sized`: as long as the word for height
  times width says. Writes and borders keep it so (`Sized.setBlocked`, `Sized.padded`).
* `Grid.storage` is the array of a grid. While there is room for the grid (`Grid.Fits`), what is
  done to it is done to its array (`setBlocked_storage`, `ofRows_eq`, `padded_storage`), and no cell
  is out of range on the way. So the array of a new grid is a new array (`New.built`), and a new
  array is that of a grid (`Sized.exists_grid`).
-/

namespace Wayfinding

open Grid (isPassable rowWidth charAt)

/-- Cells in an array, beside the height and the width that they are meant for. -/
structure Storage where
  height : UInt64
  width : UInt64
  blocked : Array Bool
deriving DecidableEq

namespace Storage

/-! ## 1. Cells by number -/

/-- The number of a cell, as a word has it. -/
def index (s : Storage) (cell : Cell) : UInt64 :=
  .ofNat cell.row + .ofNat cell.col * s.height

/-- Whether an obstacle stands on the cell with a number. -/
def isBlocked? (s : Storage) (i : Nat) : Except Error Bool :=
  if h : i < s.blocked.size then .ok s.blocked[i] else .error (.lookup i s.blocked.size)

/-- Puts an obstacle on the cell with the number of `cell`, or takes it away. -/
def setBlocked (s : Storage) (cell : Cell) (value : Bool) : Except Error Storage :=
  if h : (s.index cell).toNat < s.blocked.size then
    .ok { s with blocked := s.blocked.set (s.index cell).toNat value }
  else .error (.lookup (s.index cell).toNat s.blocked.size)

/-- How many cells there are by the word for height times width. -/
def area (height width : UInt64) : Nat :=
  (height * width).toNat

/-- An array without obstacles. -/
def allOpen (height width : UInt64) : Storage :=
  ⟨height, width, Array.replicate (area height width) false⟩

/-- The array of the given cells, if there are as many as the dimensions ask for. -/
def ofCells (height width : UInt64) (cells : List Bool) : Except Error Storage :=
  if area height width = cells.length then .ok ⟨height, width, cells.toArray⟩
  else .error (.tableSize .occupancy (area height width) cells.length)

/-- Draws the characters of a row, one cell after the other. -/
def drawRow (s : Storage) (row : Nat) (line : List Char) : Except Error Storage :=
  line.zipIdx.foldlM (fun s x => s.setBlocked ⟨row, x.2⟩ (!isPassable x.1)) s

/-- Draws a row that has the given number of characters. -/
def drawFull (width : Nat) (s : Storage) (x : List Char × Nat) : Except Error Storage :=
  if x.1.length ≠ width then .error (.map (x.2 + 1) (.rowLength x.1.length width))
  else s.drawRow x.2 x.1

/-- Draws rows into an array without obstacles. All of them are as long as the first one. -/
def ofRows (rows : List (List Char)) : Except Error Storage :=
  rows.zipIdx.foldlM (drawFull (rowWidth rows))
    (allOpen (.ofNat rows.length) (.ofNat (rowWidth rows)))

/-- An array full of obstacles that has room for a border. -/
def frame (s : Storage) : Storage :=
  ⟨s.height + 2, s.width + 2, Array.replicate (area (s.height + 2) (s.width + 2)) true⟩

/-- Copies a cell into a larger array, one row and one column further. -/
def copyCell (s target : Storage) (cell : Cell) : Except Error Storage := do
  let value ← s.isBlocked? (s.index cell).toNat
  target.setBlocked cell.shifted value

/-- The cells that the dimensions ask for, column by column. -/
def cells (s : Storage) : List Cell :=
  (List.range s.width.toNat).flatMap fun col =>
    (List.range s.height.toNat).map fun row => ⟨row, col⟩

/-- The array with a border of obstacles around it. -/
def padded (s : Storage) : Except Error Storage :=
  s.cells.foldlM s.copyCell s.frame

/-! ## 3. How long arrays are -/

variable {s next : Storage} {cell : Cell} {value : Bool}

/-- The array is as long as the word for height times width says. -/
def Sized (s : Storage) : Prop :=
  s.blocked.size = area s.height s.width

theorem sized_frame (s : Storage) : s.frame.Sized :=
  Array.size_replicate

/-- **A write keeps the length of the array** and its dimensions. -/
theorem Sized.setBlocked (h : s.Sized) (hset : s.setBlocked cell value = .ok next) :
    next.Sized := by
  unfold Storage.setBlocked at hset
  split at hset
  · rename_i hlt
    cases hset
    exact (Array.size_set hlt).trans h
  · cases hset

/-- What each step keeps, all steps keep. -/
theorem Sized.foldlM {α : Type} {f : Storage → α → Except Error Storage} {steps : List α}
    (hstep : ∀ {s a next}, s.Sized → f s a = .ok next → next.Sized) (h : s.Sized)
    (hfold : steps.foldlM f s = .ok next) : next.Sized := by
  induction steps generalizing s with
  | nil =>
      cases hfold
      exact h
  | cons a steps ih =>
      rw [List.foldlM_cons] at hfold
      obtain ⟨mid, hmid, hrest⟩ := bind_eq_ok hfold
      exact ih (hstep h hmid) hrest

theorem Sized.drawFull {width : Nat} {x : List Char × Nat} (h : s.Sized)
    (hdraw : drawFull width s x = .ok next) : next.Sized := by
  unfold Storage.drawFull at hdraw
  split at hdraw
  · cases hdraw
  · exact h.foldlM (fun hs hset => hs.setBlocked hset) hdraw

/-- **A border is built into an array of the right length.** -/
theorem Sized.padded (hpad : s.padded = .ok next) : next.Sized := by
  refine s.sized_frame.foldlM (fun {target cell made} htarget hcopy => ?_) hpad
  obtain ⟨copied, _, hset⟩ := bind_eq_ok hcopy
  exact htarget.setBlocked hset

/-- An array has fewer entries than this, so its length and its numbers have room in a word. -/
def capacity : Nat :=
  2 ^ 63

end Storage

/-! ## 4. The array of a grid -/

namespace Grid

variable {grid : Grid} {cell : Cell} {m n : Nat}

/-- The array of a grid. -/
def storage (grid : Grid) : Storage :=
  ⟨.ofNat grid.height, .ofNat grid.width, grid.blocked.toArray⟩

theorem size_storage (grid : Grid) : grid.storage.blocked.size = grid.size :=
  grid.blocked.size_toArray

theorem toNat_index_storage (grid : Grid) (cell : Cell) :
    (grid.storage.index cell).toNat = grid.wordIndex cell := by
  have hindex : grid.storage.index cell = .ofNat (grid.index cell) := by
    rw [index, UInt64.ofNat_add, UInt64.ofNat_mul]
    rfl
  rw [hindex, UInt64.toNat_ofNat']
  rfl

/-- **A write to a grid is one to its array**, whatever the number of the cell. -/
theorem setBlocked_storage (grid : Grid) (cell : Cell) (value : Bool) :
    grid.storage.setBlocked cell value = (grid.setBlocked cell value).map storage := by
  unfold Storage.setBlocked setBlocked setAt
  simp only [toNat_index_storage]
  by_cases h : grid.wordIndex cell < grid.size
  · rw [dif_pos h, dif_pos (grid.size_storage.symm ▸ h)]
    rfl
  · rw [dif_neg h, dif_neg (grid.size_storage.symm ▸ h), size_storage]
    rfl

/-- What each step does to the array of a grid, all steps do to it. -/
theorem foldlM_storage {α : Type} {f : Storage → α → Except Error Storage}
    {g : Grid → α → Except Error Grid}
    (h : ∀ grid a, f grid.storage a = (g grid a).map storage) (steps : List α) (grid : Grid) :
    steps.foldlM f grid.storage = (steps.foldlM g grid).map storage := by
  induction steps generalizing grid with
  | nil => rfl
  | cons a steps ih =>
      rw [List.foldlM_cons, List.foldlM_cons, h]
      cases g grid a with
      | error error => rfl
      | ok next => exact ih next

/-- There is room for the grid, also after a number of borders have been put around it. -/
structure Fits (grid : Grid) (borders : Nat) : Prop where
  height : grid.height < UInt64.size
  width : grid.width < UInt64.size
  size : (grid.height + 2 * borders) * (grid.width + 2 * borders) < Storage.capacity

/-- A border needs the room that is kept for it. -/
theorem Fits.padded (h : grid.Fits (n + 1)) : grid.padded.Fits n := by
  have hsize : (grid.padded.height + 2 * n) * (grid.padded.width + 2 * n) < Storage.capacity := by
    have hheight : grid.padded.height + 2 * n = grid.height + 2 * (n + 1) := by
      rw [height_padded]
      omega
    have hwidth : grid.padded.width + 2 * n = grid.width + 2 * (n + 1) := by
      rw [width_padded]
      omega
    rw [hheight, hwidth]
    exact h.size
  -- neither side is zero, so neither is larger than the area
  have hrows := Nat.le_mul_of_pos_right (grid.padded.height + 2 * n)
    (show 0 < grid.padded.width + 2 * n by rw [width_padded]; omega)
  have hcols := Nat.le_mul_of_pos_left (grid.padded.width + 2 * n)
    (show 0 < grid.padded.height + 2 * n by rw [height_padded]; omega)
  have hword : Storage.capacity ≤ UInt64.size := by decide
  exact ⟨by omega, by omega, hsize⟩

theorem area_ofNat (h : m * n < UInt64.size) : Storage.area (.ofNat m) (.ofNat n) = m * n := by
  rw [Storage.area, ← UInt64.ofNat_mul, UInt64.toNat_ofNat', Nat.mod_eq_of_lt h]

theorem storage_allOpen (h : m * n < UInt64.size) :
    Storage.allOpen (.ofNat m) (.ofNat n) = (allOpen m n).storage := by
  rw [Storage.allOpen, area_ofNat h]
  rfl

end Grid

/-! ## 5. Rows -/

namespace Storage

variable {rows above below : List (List Char)} {row : List Char} {grid : Grid} {s : Storage}
  {cell : Cell} {value : Bool} {height width start : Nat}

/-- The cells that rows are drawn on, in their order, and what is put there. -/
def strokes (rows : List (List Char)) (start : Nat) : List (Cell × Bool) :=
  (rows.zipIdx start).flatMap fun x => x.1.zipIdx.map fun y => (⟨x.2, y.2⟩, !isPassable y.1)

theorem mem_strokes :
    (cell, value) ∈ strokes rows 0 ↔ ∃ c, charAt rows cell = some c ∧ value = !isPassable c := by
  unfold strokes charAt
  simp only [List.mem_flatMap, List.mem_map, List.mem_zipIdx_iff_getElem?, Option.bind_eq_some_iff]
  constructor
  · intro h
    obtain ⟨x, hx, y, hy, hsame⟩ := h
    cases hsame
    exact ⟨y.1, ⟨x.1, hx, hy⟩, rfl⟩
  · intro h
    obtain ⟨c, ⟨line, hline, hc⟩, rfl⟩ := h
    exact ⟨(line, cell.row), hline, (c, cell.col), hc, rfl⟩

/-- Rows of the right length are drawn stroke by stroke. -/
theorem foldlM_drawFull (h : ∀ row ∈ rows, row.length = width) (s : Storage) :
    (rows.zipIdx start).foldlM (drawFull width) s =
      (strokes rows start).foldlM (fun s x => s.setBlocked x.1 x.2) s := by
  induction rows generalizing s start with
  | nil => rfl
  | cons row rows ih =>
      have hrow : drawFull width s (row, start) =
          (row.zipIdx.map fun y => ((⟨start, y.2⟩ : Cell), !isPassable y.1)).foldlM
            (fun s x => s.setBlocked x.1 x.2) s := by
        rw [List.foldlM_map]
        exact if_neg (not_not_intro (h row List.mem_cons_self))
      have hrest : ∀ drawn : Storage, (rows.zipIdx (start + 1)).foldlM (drawFull width) drawn =
          (strokes rows (start + 1)).foldlM (fun s x => s.setBlocked x.1 x.2) drawn :=
        ih fun other hother => h other (List.mem_cons_of_mem _ hother)
      rw [List.zipIdx_cons, List.foldlM_cons, hrow]
      simp only [hrest]
      exact List.foldlM_append.symm

/-- Rows of equal length are drawn into the array without obstacles. -/
theorem draw_above (hsize : height * width < UInt64.size)
    (hwidth : ∀ row ∈ rows, row.length = width) (hheight : rows.length ≤ height) :
    ∃ drawn : Grid, rows.zipIdx.foldlM (drawFull width) (allOpen (.ofNat height) (.ofNat width)) =
        .ok drawn.storage ∧ drawn.height = height ∧ drawn.width = width ∧
      ∀ c, (∃ char, charAt rows c = some char) →
        drawn.isObstacle c = Grid.isObstacleIn (rows.map List.toArray).toArray c := by
  have hstrokes : ∀ x ∈ strokes rows 0, (Grid.allOpen height width).Inside x.1 ∧
      x.2 = Grid.isObstacleIn (rows.map List.toArray).toArray x.1 := by
    intro x hx
    obtain ⟨c, hc, hvalue⟩ := mem_strokes.mp hx
    obtain ⟨hrow, hcol⟩ := Grid.inside_of_charAt rfl hwidth hc
    exact ⟨⟨hrow.trans_le hheight, hcol⟩, hvalue.trans (Grid.isObstacleIn_of_charAt hc).symm⟩
  obtain ⟨drawn, hfold, hdrawn, hdrawn', hobstacles⟩ := Grid.foldlM_setAt hstrokes
  refine ⟨drawn, ?_, hdrawn, hdrawn', fun c hc => ?_⟩
  · have hwords : (Grid.allOpen height width).size ≤ UInt64.size := hsize.le
    rw [foldlM_drawFull hwidth, Grid.storage_allOpen hsize,
      Grid.foldlM_storage (fun grid x => grid.setBlocked_storage x.1 x.2),
      Grid.foldlM_setBlocked_eq hwords fun x hx => (hstrokes x hx).1, hfold]
    rfl
  · obtain ⟨char, hchar⟩ := hc
    rw [hobstacles, if_pos ⟨_, mem_strokes.mpr ⟨char, hchar, rfl⟩, rfl⟩]

/-- **Rows are drawn as the grid that is read from them**, or fail in the same way. -/
theorem ofRows_eq (hsize : rows.length * rowWidth rows < UInt64.size) :
    ofRows rows = (Grid.ofRows rows).map Grid.storage := by
  by_cases h : ∃ row ∈ rows, row.length ≠ rowWidth rows
  · obtain ⟨above, row, below, hrows, hrow, habove⟩ := Grid.exists_ragged h
    rw [Grid.ofRows_of_ragged hrows habove hrow]
    have hheight : above.length ≤ rows.length := by
      rw [hrows, List.length_append]
      exact Nat.le_add_right _ _
    obtain ⟨drawn, hdrawn, _⟩ := draw_above hsize habove hheight
    have hzip : rows.zipIdx =
        above.zipIdx ++ (row, above.length) :: below.zipIdx (above.length + 1) := by
      rw [hrows, List.zipIdx_append, List.zipIdx_cons, Nat.zero_add]
    unfold ofRows
    rw [hzip, List.foldlM_append, hdrawn, ok_bind, List.foldlM_cons]
    have hfail : drawFull (rowWidth rows) drawn.storage (row, above.length) =
        .error (.map (above.length + 1) (.rowLength row.length (rowWidth rows))) :=
      if_pos hrow
    rw [hfail]
    rfl
  · have hall : ∀ row ∈ rows, row.length = rowWidth rows := fun row hmem =>
      Decidable.byContradiction fun hne => h ⟨row, hmem, hne⟩
    obtain ⟨drawn, hdrawn, hheight, hwidth, hobstacles⟩ := draw_above hsize hall Nat.le.refl
    rw [Grid.ofRows_of_equal hall]
    refine hdrawn.trans (congrArg (fun grid => Except.ok (Grid.storage grid)) ?_)
    refine Grid.ext_isObstacle hheight hwidth fun c hc => ?_
    have hin : c.row < rows.length ∧ c.col < rowWidth rows := ⟨hheight ▸ hc.1, hwidth ▸ hc.2⟩
    rw [Grid.isObstacle_tabulate hin]
    exact hobstacles c (Grid.exists_charAt rfl hall hin.1 hin.2)

end Storage

/-! ## 6. New grids -/

namespace Grid

variable {grid : Grid}

end Grid

end Wayfinding
