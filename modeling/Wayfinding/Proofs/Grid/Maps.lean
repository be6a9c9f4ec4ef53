import Wayfinding.Proofs.Grid.Header
import Wayfinding.Proofs.Grid.Rows

/-!
# What a map is, and which line of it is wrong

* `Grid.IsMap` says what stands in a map. `ofMap_accepts`: exactly these texts are read, as a grid
  of the declared dimensions that has an open cell wherever the rows say so.
* `ofMap_fault_number`: if there is a row too much, or one that is not as long as the first one, the
  error counts the rows down to it and not the lines. Its number is the one of the line exactly if
  no empty line comes before it in the text, else it is too small by the number of them.
-/

namespace Wayfinding.Grid

variable {cs row : List Char} {text : String} {height width : Nat}
  {body rows above below : List (List Char)} {grid : Grid}

/-! ## 1. Texts that are read -/

/-- A text in the format of maps. After the header come as many rows as it declares, with as many
characters each; a map without rows declares no columns. -/
structure IsMap (cs : List Char) (height width : Nat) (rows : List (List Char)) : Prop where
  header : ∃ body, HasHeader cs height width body ∧ HasRows body rows
  rowCount : rows.length = height
  rowLength : ∀ row ∈ rows, row.length = width
  noColumns : height = 0 → width = 0

theorem ofMapRows_of_length (h : rows.length = height) :
    ofMapRows height width rows = (ofRows rows).mapError afterHeader >>= fun grid =>
      if grid.width ≠ width then .error (.map (headerLines + 1) (.columnCount grid.width width))
      else .ok grid := by
  unfold ofMapRows
  rw [if_neg (not_not_intro h)]
  cases (ofRows rows).mapError afterHeader with
  | error error => rfl
  | ok grid =>
      rw [ok_bind, ok_bind]
      split <;> rfl

/-- **Rows are read as the grid that they stand for**, if they have the declared dimensions. -/
theorem ofMapRows_eq_ok_iff :
    ofMapRows height width rows = .ok grid ↔
      rows.length = height ∧ grid.width = width ∧ Pictures rows grid := by
  by_cases hlength : rows.length = height
  · rw [ofMapRows_of_length hlength, ← ofRows_eq_ok_iff, bind_eq_ok_iff]
    cases ofRows rows with
    | error error => simp [Except.mapError]
    | ok read =>
        simp only [Except.mapError, Except.ok.injEq, exists_eq_left', hlength, true_and]
        by_cases hwidth : read.width = width
        · rw [if_neg (not_not_intro hwidth), Except.ok.injEq]
          exact ⟨fun h => ⟨h ▸ hwidth, h⟩, fun h => h.2⟩
        · rw [if_pos hwidth]
          constructor
          · intro h
            cases h
          · rintro ⟨h, rfl⟩
            exact absurd h hwidth
  · simp only [hlength, false_and, iff_false]
    intro h
    unfold ofMapRows at h
    rw [if_pos hlength] at h
    cases h

/-- Rows of the declared dimensions stand for a grid. -/
theorem IsMap.exists_pictures (h : IsMap cs height width rows) :
    ∃ grid : Grid, grid.width = width ∧ Pictures rows grid := by
  have hwidth : rowWidth rows = width := by
    cases rows with
    | nil => exact (h.noColumns h.rowCount.symm).symm
    | cons first others => exact h.rowLength first List.mem_cons_self
  exact ⟨_, hwidth, pictures_tabulate fun row hrow => (h.rowLength row hrow).trans hwidth.symm⟩

/-- **Exactly the texts in the format of maps are read.** The grid then has the declared height and
width, a cell for each row and column, and the cell is open if its character is a dot, a `G` or
an `S`. -/
theorem ofMap_accepts (text : String) :
    ((∃ grid, ofMap text = .ok grid) ↔ ∃ height width rows, IsMap text.toList height width rows) ∧
    ∀ grid height width rows, ofMap text = .ok grid → IsMap text.toList height width rows →
      grid.height = height ∧ grid.width = width ∧
      grid.blocked.toList.length = height * width ∧
      ∀ cell : Cell, cell.row < height → cell.col < width → ∃ c, charAt rows cell = some c ∧
        (grid.isObstacle cell = false ↔ c = '.' ∨ c = 'G' ∨ c = 'S') := by
  refine ⟨⟨?_, ?_⟩, ?_⟩
  · intro ⟨grid, hgrid⟩
    obtain ⟨height, width, body, hheader⟩ := exists_header_of_ofMap hgrid
    rw [ofMap_of_header hheader] at hgrid
    obtain ⟨hlength, hwidth, hpictures⟩ := ofMapRows_eq_ok_iff.mp hgrid
    refine ⟨height, width, _, ⟨body, hheader, hasRows_iff.mpr rfl⟩, hlength, ?_, ?_⟩
    · exact fun row hrow => (hpictures.width row hrow).trans hwidth
    · intro hzero
      have hnil := List.length_eq_zero_iff.mp (hlength.trans hzero)
      exact hwidth.symm.trans (hpictures.empty hnil)
  · intro ⟨height, width, rows, h⟩
    obtain ⟨body, hheader, hrows⟩ := h.header
    obtain ⟨grid, hwidth, hpictures⟩ := h.exists_pictures
    refine ⟨grid, ?_⟩
    rw [ofMap_of_header hheader, hasRows_iff.mp hrows]
    exact ofMapRows_eq_ok_iff.mpr ⟨h.rowCount, hwidth, hpictures⟩
  · intro grid height width rows hgrid h
    obtain ⟨body, hheader, hrows⟩ := h.header
    rw [ofMap_of_header hheader, hasRows_iff.mp hrows] at hgrid
    obtain ⟨hlength, rfl, hpictures⟩ := ofMapRows_eq_ok_iff.mp hgrid
    obtain rfl : grid.height = height := hpictures.height.symm.trans hlength
    refine ⟨rfl, rfl, Vector.length_toList, fun cell hrow hcol => ?_⟩
    obtain ⟨c, hc⟩ := exists_charAt h.rowCount h.rowLength hrow hcol
    exact ⟨c, hc, hpictures.isOpen cell c hc⟩

/-- A map of two rows, with an empty line and one of carriage returns between them. -/
def clearing : String :=
  " type\toctile \r\nheight +2\nwidth 03\n map\r\n..@\n\n\r\r\nTGS\r\r"

/-- The clearing is read. Its last cell is open, and an obstacle stands on the first cell of the
second row. -/
theorem accepts_clearing :
    ∃ grid, ofMap clearing = .ok grid ∧ grid.height = 2 ∧ grid.width = 3 ∧
      grid.isObstacle ⟨1, 2⟩ = false ∧ grid.isObstacle ⟨1, 0⟩ ≠ false := by
  have hheader : HasHeader clearing.toList 2 3
      ["..@".toList, [], ['\r'], "TGS\r\r".toList] := by
    refine ⟨_, _, _, _, Text.hasLines_iff.mpr rfl, ?_⟩
    exact ⟨Text.hasWords_iff.mpr rfl,
      ⟨['+', '2'], Text.hasWords_iff.mpr rfl, readNatural?_eq_some_iff.mp rfl⟩,
      ⟨['0', '3'], Text.hasWords_iff.mpr rfl, readNatural?_eq_some_iff.mp rfl⟩,
      trim_eq_map_iff.mp rfl⟩
  have hmap : IsMap clearing.toList 2 3 ["..@".toList, "TGS".toList] :=
    ⟨⟨_, hheader, hasRows_iff.mpr rfl⟩, rfl, by decide, by decide⟩
  obtain ⟨grid, hgrid⟩ := (ofMap_accepts clearing).1.mpr ⟨2, 3, _, hmap⟩
  obtain ⟨hheight, hwidth, _, hcells⟩ := (ofMap_accepts clearing).2 grid 2 3 _ hgrid hmap
  obtain ⟨c, hc, hopen⟩ := hcells ⟨1, 2⟩ (by decide) (by decide)
  obtain ⟨d, hd, hblocked⟩ := hcells ⟨1, 0⟩ (by decide) (by decide)
  cases hc
  cases hd
  exact ⟨grid, hgrid, hheight, hwidth, hopen.mpr (by decide),
    fun h => absurd (hblocked.mp h) (by decide)⟩

/-! ## 2. Lines that are wrong -/

/-- Reading the text fails for `cause` at `line`, which comes after the header and the lines
`before`. `number` is the number of this line in the text, the first one having the number one. In
the error stands `reported`, from which the empty lines among `before` are missing. -/
structure FailsAt (text : String) (before : List (List Char)) (line : List Char) (cause : MapCause)
    (number reported : Nat) : Prop where
  place : number = headerLines + before.length + 1
  line : (Text.lines text.toList)[number - 1]? = some line
  fails : ofMap text = .error (.map reported cause)
  missing : reported + emptyLines before = number
  right_iff : reported = number ↔ ∀ other ∈ before, ¬ Holds other []

/-- The rows above a row are counted in place of the lines before it. -/
theorem failsAt_of_rows {before after : List (List Char)} {line : List Char} {cause : MapCause}
    (hheader : HasHeader text.toList height width (before ++ line :: after))
    (habove : HasRows before above)
    (h : ofMapRows height width (rowsOfLines (before ++ line :: after)) =
      .error (.map (headerLines + above.length + 1) cause)) :
    FailsAt text before line cause (headerLines + before.length + 1)
      (headerLines + above.length + 1) where
  place := rfl
  line := by
    obtain ⟨_, _, _, _, hlines, _⟩ := hheader
    rw [hlines.lines_eq, Nat.add_sub_cancel, Nat.add_comm]
    show (before ++ line :: after)[before.length]? = some line
    rw [List.getElem?_append_right Nat.le.refl, Nat.sub_self]
    rfl
  fails := (ofMap_of_header hheader).trans h
  missing := by
    have hlength := habove.length_add
    omega
  right_iff := by
    have hlength := habove.length_add
    have hempty : emptyLines before = 0 ↔ ∀ other ∈ before, ¬ Holds other [] := by
      simp only [emptyLines, List.countP_eq_zero, decide_eq_true_eq]
    rw [← hempty]
    omega

theorem ofMapRows_of_ragged (hlength : rows.length = height) (hrows : rows = above ++ row :: below)
    (habove : ∀ other ∈ above, other.length = rowWidth rows) (hrow : row.length ≠ rowWidth rows) :
    ofMapRows height width rows = .error (.map (headerLines + above.length + 1)
      (.rowLength row.length (rowWidth rows))) := by
  have hnumber : above.length + 1 + headerLines = headerLines + above.length + 1 := by omega
  rw [ofMapRows_of_length hlength, ofRows_of_ragged hrows habove hrow, ← hnumber]
  rfl

theorem ofMapRows_of_surplus (h : height < rows.length) :
    ofMapRows height width rows =
      .error (.map (headerLines + height + 1) (.rowCount rows.length height)) := by
  have hnumber : headerLines + 1 + min rows.length height = headerLines + height + 1 := by omega
  unfold ofMapRows
  rw [if_pos (Nat.ne_of_gt h), hnumber]
  rfl

/-- **Which line an error names.** If there are as many rows as declared but one of them is not as
long as the first one, reading fails at the line of the first such row; if there are more rows than
declared, it fails at the line of the first one that is too much. In both cases the empty lines
before this line are missing from the number in the error. So it is the number of the line exactly
if there are none. -/
theorem ofMap_fault_number (hheader : HasHeader text.toList height width body)
    (hrows : HasRows body rows) :
    (rows.length = height → (∃ row ∈ rows, row.length ≠ rowWidth rows) →
      ∃ before line after above row number reported, body = before ++ line :: after ∧
        HasRows before above ∧ (∀ other ∈ above, other.length = rowWidth rows) ∧
        Holds line row ∧ row.length ≠ rowWidth rows ∧
        FailsAt text before line (.rowLength row.length (rowWidth rows)) number reported) ∧
    (height < rows.length →
      ∃ before line after above row number reported, body = before ++ line :: after ∧
        HasRows before above ∧ above.length = height ∧ Holds line row ∧ row ≠ [] ∧
        FailsAt text before line (.rowCount rows.length height) number reported) := by
  have hfound := hasRows_iff.mp hrows
  constructor
  · intro hlength hragged
    obtain ⟨above, row, below, hsplit, hrow, hlengths⟩ := exists_ragged hragged
    obtain ⟨before, line, after, rfl, hholds, _, habove⟩ := (hsplit ▸ hrows).exists_line
    have hfails : ofMapRows height width (rowsOfLines (before ++ line :: after)) =
        .error (.map (headerLines + above.length + 1)
          (.rowLength row.length (rowWidth rows))) := by
      rw [hfound]
      exact ofMapRows_of_ragged hlength hsplit hlengths hrow
    exact ⟨before, line, after, above, row, _, _, rfl, habove, hlengths, hholds, hrow,
      failsAt_of_rows hheader habove hfails⟩
  · intro hmore
    have hsplit : rows = rows.take height ++ rows[height] :: rows.drop (height + 1) := by
      rw [List.getElem_cons_drop, List.take_append_drop]
    obtain ⟨before, line, after, rfl, hholds, hne, habove⟩ := (hsplit ▸ hrows).exists_line
    have htake : (rows.take height).length = height := List.length_take_of_le hmore.le
    have hfails : ofMapRows height width (rowsOfLines (before ++ line :: after)) =
        .error (.map (headerLines + (rows.take height).length + 1)
          (.rowCount rows.length height)) := by
      rw [hfound, htake]
      exact ofMapRows_of_surplus hmore
    exact ⟨before, line, after, _, _, _, _, rfl, habove, htake, hholds, hne,
      failsAt_of_rows hheader habove hfails⟩

/-- A map with an empty line before its rows, the second of which is too short. -/
def marsh : String :=
  "type octile\nheight 2\nwidth 3\nmap\n\n...\n..\n"

/-- A map with an empty line before its rows, the second of which is too much. -/
def heath : String :=
  "type octile\nheight 1\nwidth 1\nmap\n\n.\n.\n"

theorem hasHeader_marsh : HasHeader marsh.toList 2 3 [[], "...".toList, "..".toList] :=
  ⟨_, _, _, _, Text.hasLines_iff.mpr rfl, Text.hasWords_iff.mpr rfl,
    ⟨['2'], Text.hasWords_iff.mpr rfl, readNatural?_eq_some_iff.mp rfl⟩,
    ⟨['3'], Text.hasWords_iff.mpr rfl, readNatural?_eq_some_iff.mp rfl⟩, trim_eq_map_iff.mp rfl⟩

theorem hasHeader_heath : HasHeader heath.toList 1 1 [[], ['.'], ['.']] :=
  ⟨_, _, _, _, Text.hasLines_iff.mpr rfl, Text.hasWords_iff.mpr rfl,
    ⟨['1'], Text.hasWords_iff.mpr rfl, readNatural?_eq_some_iff.mp rfl⟩,
    ⟨['1'], Text.hasWords_iff.mpr rfl, readNatural?_eq_some_iff.mp rfl⟩, trim_eq_map_iff.mp rfl⟩

theorem hasRows_marsh :
    HasRows [[], "...".toList, "..".toList] ["...".toList, "..".toList] :=
  hasRows_iff.mpr rfl

theorem hasRows_heath : HasRows [[], ['.'], ['.']] [['.'], ['.']] :=
  hasRows_iff.mpr rfl

/-- What is read of the marsh and of the heath fails at some line, and the error has the number
six. -/
theorem fault_number_marsh :
    (∃ before line number, FailsAt marsh before line (.rowLength 2 3) number 6) ∧
    ∃ before line number, FailsAt heath before line (.rowCount 2 1) number 6 := by
  constructor
  · obtain ⟨before, line, _, _, row, number, reported, _, _, _, _, _, hfails⟩ :=
      (ofMap_fault_number hasHeader_marsh hasRows_marsh).1 rfl ⟨"..".toList, by decide, by decide⟩
    have hread : ofMap marsh = .error (.map 6 (.rowLength 2 3)) := by decide
    obtain ⟨hreported, hcause⟩ := Error.map.inj (Except.error.inj (hfails.fails.symm.trans hread))
    exact ⟨before, line, number, hreported ▸ hcause ▸ hfails⟩
  · obtain ⟨before, line, _, _, _, number, reported, _, _, _, _, _, hfails⟩ :=
      (ofMap_fault_number hasHeader_heath hasRows_heath).2 (by decide)
    have hread : ofMap heath = .error (.map 6 (.rowCount 2 1)) := by decide
    obtain ⟨hreported, _⟩ := Error.map.inj (Except.error.inj (hfails.fails.symm.trans hread))
    exact ⟨before, line, number, hreported ▸ hfails⟩

/-- **An error can name the wrong line.** Behind the headers of these two maps, the second row is
the first that is too short or too much. It stands on the seventh line, but the error names the
sixth one, on which the first row stands. -/
theorem fault_number_too_small :
    (HasHeader marsh.toList 2 3 [[], "...".toList, "..".toList] ∧
      HasRows [[], "...".toList, "..".toList] ["...".toList, "..".toList] ∧
      ofMap marsh = .error (.map 6 (.rowLength 2 3)) ∧
      (Text.lines marsh.toList)[5]? = some "...".toList ∧
      (Text.lines marsh.toList)[6]? = some "..".toList) ∧
    (HasHeader heath.toList 1 1 [[], ['.'], ['.']] ∧
      HasRows [[], ['.'], ['.']] [['.'], ['.']] ∧
      ofMap heath = .error (.map 6 (.rowCount 2 1)) ∧
      (Text.lines heath.toList)[5]? = some ['.'] ∧
      (Text.lines heath.toList)[6]? = some ['.']) :=
  ⟨⟨hasHeader_marsh, hasRows_marsh, by decide⟩, hasHeader_heath, hasRows_heath, by decide⟩

end Wayfinding.Grid
