import Wayfinding.Grid.Map

/-!
# Rows of characters

* `Grid.Pictures` says which grid rows of characters stand for. `ofRows_eq_ok_iff`: this is the grid
  that `Grid.ofRows` reads, so it reads rows exactly if they are all equally long.
  `ofRows_of_ragged`: otherwise it names the first row that is not as long as the first one.
* `Grid.Holds` says which row a line of a map holds, `Grid.HasRows` which rows its lines hold.
  `hasRows_iff`: these are the rows that `Grid.rowsOfLines` finds. Each of them comes from a line of
  its own (`HasRows.exists_line`), and all other lines are empty (`HasRows.length_add`).
-/

namespace Wayfinding.Grid

variable {rows above below : List (List Char)} {row : List Char} {grid : Grid} {cell : Cell}

/-! ## 1. The grid of rows -/

/-- The character that stands for a cell, if the rows have one. -/
def charAt (rows : List (List Char)) (cell : Cell) : Option Char :=
  rows[cell.row]?.bind (·[cell.col]?)

/-- The length of the first row. -/
def rowWidth (rows : List (List Char)) : Nat :=
  (rows.head?.map List.length).getD 0

/-- The rows stand for the grid: they have a character for each of its cells, and a dot or one of
the letters `G` and `S` means that no obstacle stands there. Without rows there are no columns. -/
structure Pictures (rows : List (List Char)) (grid : Grid) : Prop where
  height : rows.length = grid.height
  width : ∀ row ∈ rows, row.length = grid.width
  empty : rows = [] → grid.width = 0
  isOpen : ∀ cell c, charAt rows cell = some c →
    (grid.isObstacle cell = false ↔ c = '.' ∨ c = 'G' ∨ c = 'S')

theorem isPassable_iff {c : Char} : isPassable c = true ↔ c = '.' ∨ c = 'G' ∨ c = 'S' := by
  simp only [isPassable, Bool.or_eq_true, beq_iff_eq, or_assoc]

theorem isObstacleIn_of_charAt {c : Char} (h : charAt rows cell = some c) :
    isObstacleIn (rows.map List.toArray).toArray cell = !isPassable c := by
  have hsame :
      (rows.map List.toArray).toArray[cell.row]?.bind (·[cell.col]?) = charAt rows cell := by
    simp only [charAt, List.getElem?_toArray, List.getElem?_map]
    cases rows[cell.row]? with
    | none => rfl
    | some row => exact List.getElem?_toArray
  unfold isObstacleIn
  rw [hsame, h]

/-- Rows of equal length have a character for each cell. -/
theorem exists_charAt {height width : Nat} (hheight : rows.length = height)
    (hwidth : ∀ row ∈ rows, row.length = width) (hrow : cell.row < height)
    (hcol : cell.col < width) : ∃ c, charAt rows cell = some c := by
  have hr : cell.row < rows.length := hheight ▸ hrow
  have hc : cell.col < rows[cell.row].length := hwidth _ (List.getElem_mem hr) ▸ hcol
  refine ⟨rows[cell.row][cell.col], ?_⟩
  rw [charAt, List.getElem?_eq_getElem hr]
  exact List.getElem?_eq_getElem hc

/-- A cell with a character lies in a grid of the dimensions of the rows. -/
theorem inside_of_charAt {height width : Nat} {c : Char} (hheight : rows.length = height)
    (hwidth : ∀ row ∈ rows, row.length = width) (h : charAt rows cell = some c) :
    cell.row < height ∧ cell.col < width := by
  obtain ⟨row, hrow, hcol⟩ := Option.bind_eq_some_iff.mp h
  obtain ⟨hr, rfl⟩ := List.getElem?_eq_some_iff.mp hrow
  obtain ⟨hc, _⟩ := List.getElem?_eq_some_iff.mp hcol
  exact ⟨hheight ▸ hr, hwidth _ (List.getElem_mem hr) ▸ hc⟩

theorem Pictures.rowWidth_eq (h : Pictures rows grid) : rowWidth rows = grid.width := by
  cases rows with
  | nil => exact (h.empty rfl).symm
  | cons first others => exact h.width first List.mem_cons_self

/-- Rows stand for one grid only. -/
theorem Pictures.unique {other : Grid} (h : Pictures rows grid) (hother : Pictures rows other) :
    grid = other := by
  have hheight := h.height.symm.trans hother.height
  have hwidth := h.rowWidth_eq.symm.trans hother.rowWidth_eq
  refine ext_isObstacle hheight hwidth fun cell hcell => ?_
  obtain ⟨c, hc⟩ := exists_charAt h.height h.width hcell.1 hcell.2
  have hsame := (h.isOpen cell c hc).trans (hother.isOpen cell c hc).symm
  cases hgrid : grid.isObstacle cell with
  | false => exact (hsame.mp hgrid).symm
  | true =>
      rw [hgrid, Bool.true_eq_false, false_iff, Bool.not_eq_false] at hsame
      exact hsame.symm

/-- Rows of equal length stand for the grid with an obstacle wherever their character says so. -/
theorem pictures_tabulate (h : ∀ row ∈ rows, row.length = rowWidth rows) :
    Pictures rows (tabulate rows.length (rowWidth rows)
      (isObstacleIn (rows.map List.toArray).toArray)) where
  height := rfl
  width := h
  empty := fun hnil => congrArg rowWidth hnil
  isOpen := by
    intro cell c hc
    rw [isObstacle_tabulate (inside_of_charAt rfl h hc), isObstacleIn_of_charAt hc,
      Bool.not_eq_false', isPassable_iff]

/-! ## 2. Reading rows -/

theorem ofRows_eq (rows : List (List Char)) : ofRows rows =
    match rows.zipIdx.find? fun x => decide (x.1.length ≠ rowWidth rows) with
    | some (row, i) => .error (.map (i + 1) (.rowLength row.length (rowWidth rows)))
    | none => .ok (tabulate rows.length (rowWidth rows)
        (isObstacleIn (rows.map List.toArray).toArray)) :=
  rfl

/-- The search for a row of another length finds none. -/
theorem find?_ragged_eq_none {width start : Nat} (h : ∀ row ∈ rows, row.length = width) :
    (rows.zipIdx start).find? (fun x => decide (x.1.length ≠ width)) = none := by
  refine List.find?_eq_none.mpr fun x hx => ?_
  have hmem : x.1 ∈ rows := List.fst_mem_of_mem_zipIdx hx
  simp only [h x.1 hmem, ne_eq, not_true_eq_false, decide_false, Bool.false_eq_true,
    not_false_eq_true]

theorem ofRows_of_equal (h : ∀ row ∈ rows, row.length = rowWidth rows) :
    ofRows rows = .ok (tabulate rows.length (rowWidth rows)
      (isObstacleIn (rows.map List.toArray).toArray)) := by
  rw [ofRows_eq, find?_ragged_eq_none h]

/-- **The first row that is not as long as the first one is named.** -/
theorem ofRows_of_ragged (hrows : rows = above ++ row :: below)
    (habove : ∀ other ∈ above, other.length = rowWidth rows) (hrow : row.length ≠ rowWidth rows) :
    ofRows rows = .error (.map (above.length + 1) (.rowLength row.length (rowWidth rows))) := by
  have hfind : rows.zipIdx.find? (fun x => decide (x.1.length ≠ rowWidth rows)) =
      some (row, above.length) := by
    generalize rowWidth rows = width at habove hrow
    rw [hrows, List.zipIdx_append, List.find?_append, find?_ragged_eq_none habove, List.zipIdx_cons,
      List.find?_cons_of_pos (by simpa using hrow)]
    rw [Nat.zero_add]
    rfl
  rw [ofRows_eq, hfind]

/-- A row of another length than the first one, if there is any, and the rows above it. -/
theorem exists_ragged (h : ∃ row ∈ rows, row.length ≠ rowWidth rows) :
    ∃ above row below, rows = above ++ row :: below ∧ row.length ≠ rowWidth rows ∧
      ∀ other ∈ above, other.length = rowWidth rows := by
  obtain ⟨row, hmem, hne⟩ := h
  have hsome : (rows.find? fun r => decide (r.length ≠ rowWidth rows)).isSome :=
    List.find?_isSome.mpr ⟨row, hmem, by simpa using hne⟩
  obtain ⟨found, hfound⟩ := Option.isSome_iff_exists.mp hsome
  obtain ⟨hp, above, below, hsplit, habove⟩ := List.find?_eq_some_iff_append.mp hfound
  refine ⟨above, found, below, hsplit, by simpa using hp, fun other hother => ?_⟩
  simpa using habove other hother

/-- **Rows are read as the grid that they stand for**, and no others are read. -/
theorem ofRows_eq_ok_iff : ofRows rows = .ok grid ↔ Pictures rows grid := by
  by_cases h : ∃ row ∈ rows, row.length ≠ rowWidth rows
  · obtain ⟨above, row, below, hrows, hrow, habove⟩ := exists_ragged h
    rw [ofRows_of_ragged hrows habove hrow]
    constructor
    · intro herror
      cases herror
    · intro hpictures
      have hmem : row ∈ rows := by
        rw [hrows]
        exact List.mem_append_right _ List.mem_cons_self
      exact absurd ((hpictures.width row hmem).trans hpictures.rowWidth_eq.symm) hrow
  · have hall : ∀ row ∈ rows, row.length = rowWidth rows := fun row hmem =>
      Decidable.byContradiction fun hne => h ⟨row, hmem, hne⟩
    rw [ofRows_of_equal hall, Except.ok.injEq]
    constructor
    · rintro rfl
      exact pictures_tabulate hall
    · exact (pictures_tabulate hall).unique

/-! ## 3. Rows in lines -/

variable {lines : List (List Char)} {line : List Char}

/-- The line holds the row: nothing but carriage returns comes after it. -/
def Holds (line row : List Char) : Prop :=
  row.getLast? ≠ some '\r' ∧ ∃ returns, line = row ++ List.replicate returns '\r'

theorem rowOfLine_eq_iff : rowOfLine line = row ↔ Holds line row := by
  constructor
  · rintro rfl
    refine ⟨?_, (line.reverse.takeWhile (· == '\r')).length, ?_⟩
    · rw [rowOfLine, List.getLast?_reverse]
      intro hhead
      have hstop := List.head?_dropWhile_not (· == '\r') line.reverse
      rw [hhead] at hstop
      cases hstop
    · have hreturns : (line.reverse.takeWhile (· == '\r')) =
          List.replicate (line.reverse.takeWhile (· == '\r')).length '\r' :=
        List.eq_replicate_iff.mpr ⟨rfl, fun c hc =>
          eq_of_beq (List.all_eq_true.mp List.all_takeWhile c hc)⟩
      rw [rowOfLine, ← List.reverse_replicate, ← hreturns, ← List.reverse_append,
        List.takeWhile_append_dropWhile, List.reverse_reverse]
  · rintro ⟨hend, returns, rfl⟩
    have hstop : row.reverse.dropWhile (· == '\r') = row.reverse := by
      rw [← List.head?_reverse] at hend
      cases hrow : row.reverse with
      | nil => rfl
      | cons c others =>
          rw [hrow, List.head?_cons, ne_eq, Option.some.injEq] at hend
          exact List.dropWhile_cons_of_neg (by simpa using hend)
    rw [rowOfLine, List.reverse_append, List.reverse_replicate,
      List.dropWhile_append_of_pos (fun c hc => beq_iff_eq.mpr (List.eq_of_mem_replicate hc)),
      hstop, List.reverse_reverse]

instance (line row : List Char) : Decidable (Holds line row) :=
  decidable_of_iff (rowOfLine line = row) rowOfLine_eq_iff

/-- The rows that lines hold. An empty line holds none. -/
inductive HasRows : List (List Char) → List (List Char) → Prop where
  | nil : HasRows [] []
  | empty {line : List Char} {lines rows : List (List Char)} (h : Holds line [])
      (hrest : HasRows lines rows) : HasRows (line :: lines) rows
  | row {line row : List Char} {lines rows : List (List Char)} (h : Holds line row) (hne : row ≠ [])
      (hrest : HasRows lines rows) : HasRows (line :: lines) (row :: rows)

/-- **The rows that are found** are those that the lines hold. -/
theorem hasRows_iff : HasRows lines rows ↔ rowsOfLines lines = rows := by
  constructor
  · intro h
    induction h with
    | nil => rfl
    | empty h _ ih =>
        rw [← ih, rowsOfLines, List.map_cons, rowOfLine_eq_iff.mpr h]
        rfl
    | row h hne _ ih =>
        rw [← ih, rowsOfLines, List.map_cons, rowOfLine_eq_iff.mpr h]
        exact List.filter_cons_of_pos (by simpa using hne)
  · rintro rfl
    induction lines with
    | nil => exact .nil
    | cons line lines ih =>
        rw [rowsOfLines, List.map_cons]
        by_cases hempty : rowOfLine line = []
        · rw [hempty]
          exact .empty (rowOfLine_eq_iff.mp hempty) ih
        · rw [List.filter_cons_of_pos (by simpa using hempty)]
          exact .row (rowOfLine_eq_iff.mp rfl) hempty ih

/-- Rows that are written one below the other are found again. -/
theorem hasRows_self (h : ∀ row ∈ rows, row ≠ [] ∧ row.getLast? ≠ some '\r') :
    HasRows rows rows := by
  induction rows with
  | nil => exact .nil
  | cons row rows ih =>
      obtain ⟨hne, hend⟩ := h row List.mem_cons_self
      exact .row ⟨hend, 0, (List.append_nil row).symm⟩ hne
        (ih fun other hother => h other (List.mem_cons_of_mem _ hother))

/-- There are no rows in lines without characters. -/
theorem hasRows_nil (h : ∀ line ∈ lines, line = []) : HasRows lines [] := by
  induction lines with
  | nil => exact .nil
  | cons line lines ih =>
      exact .empty ⟨nofun, 0, h line List.mem_cons_self⟩
        (ih fun other hother => h other (List.mem_cons_of_mem _ hother))

/-- **A row stands on a line of its own**, and the rows above it stand on the lines before. -/
theorem HasRows.exists_line (h : HasRows lines (above ++ row :: below)) :
    ∃ before line after, lines = before ++ line :: after ∧ Holds line row ∧ row ≠ [] ∧
      HasRows before above := by
  -- on the lines, since empty ones stand between the rows
  generalize hrows : above ++ row :: below = rows at h
  induction h generalizing above with
  | nil => exact absurd hrows (List.append_ne_nil_of_right_ne_nil _ (List.cons_ne_nil _ _))
  | @empty line lines _ h _ ih =>
      obtain ⟨before, found, after, rfl, hholds, hne, habove⟩ := ih hrows
      exact ⟨line :: before, found, after, rfl, hholds, hne, .empty h habove⟩
  | @row line first lines others h hne _ ih =>
      cases above with
      | nil =>
          obtain ⟨rfl, rfl⟩ := List.cons.inj hrows
          exact ⟨[], line, lines, rfl, h, hne, .nil⟩
      | cons top above =>
          obtain ⟨rfl, hothers⟩ := List.cons.inj hrows
          obtain ⟨before, found, after, rfl, hholds, hfound, habove⟩ := ih hothers
          exact ⟨line :: before, found, after, rfl, hholds, hfound, .row h hne habove⟩

/-- The number of lines that hold no row. -/
def emptyLines (lines : List (List Char)) : Nat :=
  lines.countP fun line => decide (Holds line [])

/-- **All other lines are empty.** -/
theorem HasRows.length_add (h : HasRows lines rows) :
    rows.length + emptyLines lines = lines.length := by
  unfold emptyLines
  induction h with
  | nil => rfl
  | empty h _ ih =>
      rw [List.countP_cons_of_pos (by simpa using h), List.length_cons]
      omega
  | @row line row lines rows h hne _ ih =>
      have hno : ¬ Holds line [] := fun hempty =>
        hne ((rowOfLine_eq_iff.mpr h).symm.trans (rowOfLine_eq_iff.mpr hempty))
      rw [List.countP_cons_of_neg (by simpa using hno), List.length_cons, List.length_cons]
      omega

end Wayfinding.Grid
