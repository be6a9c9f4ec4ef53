import Wayfinding.Grid.Drawing
import Wayfinding.Proofs.Grid.Maps

/-!
# Drawings are read back

* `hasLines_draw`: the lines of a drawing are its rows, one for each row of the grid, with a
  character for each column (`charAt_drawRows`).
* `pictures_drawRows_iff`: without a path they stand for the grid that was drawn, unless it has
  columns but no rows.
* `reads_drawing`: so a drawing is read back as rows, and as a map if a header stands before it.
-/

namespace Wayfinding.Grid

variable {grid : Grid} {path : List Cell} {cell : Cell} {row : List Char}

/-! ## 1. The rows of a drawing -/

theorem length_drawRows : (grid.drawRows path).length = grid.height := by
  unfold drawRows
  rw [List.length_map, List.length_range]

theorem length_of_mem_drawRows (h : row ∈ grid.drawRows path) : row.length = grid.width := by
  obtain ⟨_, _, rfl⟩ := List.mem_map.mp h
  rw [List.length_map, List.length_range]

/-- **Each cell has its character.** -/
theorem charAt_drawRows (h : grid.Inside cell) :
    charAt (grid.drawRows path) cell = some (grid.symbol path.head? path.getLast? path cell) := by
  unfold charAt drawRows
  rw [List.getElem?_map, List.getElem?_range h.1, Option.map_some, Option.bind_some,
    List.getElem?_map, List.getElem?_range h.2, Option.map_some]

theorem symbol_mem (first last : Option Cell) :
    grid.symbol first last path cell ∈ ['S', 'G', '*', '@', '.'] := by
  unfold symbol
  split_ifs <;> decide

theorem isPlainLine_of_mem_drawRows (h : row ∈ grid.drawRows path) : Text.IsPlainLine row := by
  have hplain : ∀ c ∈ ['S', 'G', '*', '@', '.'], c ≠ '\n' ∧ c ≠ '\r' := by simp
  obtain ⟨r, _, rfl⟩ := List.mem_map.mp h
  refine Text.isPlainLine_of_forall fun c hc => ?_
  obtain ⟨col, _, rfl⟩ := List.mem_map.mp hc
  exact hplain _ (symbol_mem _ _)

/-- **The lines of a drawing are its rows.** -/
theorem hasLines_draw : Text.HasLines (grid.draw path) (grid.drawRows path) := by
  have hplain : ∀ row ∈ grid.drawRows path, Text.IsPlainLine row := fun _ hrow =>
    isPlainLine_of_mem_drawRows hrow
  have hwritten := Text.hasLines_written hplain .nil
  rwa [List.append_nil, List.append_nil] at hwritten

/-! ## 2. Reading a drawing -/

theorem symbol_nil : grid.symbol none none [] cell = if grid.isObstacle cell then '@' else '.' := by
  simp [symbol]

/-- **A drawing stands for the grid that was drawn.** Only the columns of a grid without rows are
lost. -/
theorem pictures_drawRows_iff :
    Pictures (grid.drawRows []) grid ↔ 0 < grid.height ∨ grid.width = 0 := by
  constructor
  · intro h
    by_cases hzero : grid.height = 0
    · exact .inr (h.empty (List.length_eq_zero_iff.mp (length_drawRows.trans hzero)))
    · exact .inl (Nat.pos_of_ne_zero hzero)
  · intro h
    refine ⟨length_drawRows, fun _ hrow => length_of_mem_drawRows hrow, fun hnil => ?_, ?_⟩
    · have hzero : grid.height = 0 := length_drawRows.symm.trans (congrArg List.length hnil)
      exact h.resolve_left (Nat.ne_of_gt · hzero)
    · intro cell c hc
      have hin : grid.Inside cell :=
        inside_of_charAt length_drawRows (fun _ hrow => length_of_mem_drawRows hrow) hc
      rw [charAt_drawRows hin, List.head?_nil, List.getLast?_nil, symbol_nil,
        Option.some.injEq] at hc
      rw [← hc]
      cases grid.isObstacle cell <;> decide

/-- **A drawing without empty rows has the rows that are drawn.** -/
theorem hasRows_drawRows (h : 0 < grid.width ∨ grid.height = 0) :
    HasRows (grid.drawRows path) (grid.drawRows path) := by
  refine hasRows_self fun row hrow => ⟨fun hnil => ?_, (isPlainLine_of_mem_drawRows hrow).2⟩
  have hwidth : grid.width = 0 :=
    (length_of_mem_drawRows hrow).symm.trans (congrArg List.length hnil)
  have hpos : 0 < grid.height := length_drawRows ▸ List.length_pos_of_mem hrow
  omega

/-- The rows of a grid without columns are all empty. -/
theorem hasRows_drawRows_nil (h : grid.width = 0) : HasRows (grid.drawRows path) [] := by
  refine hasRows_nil fun row hrow => ?_
  exact List.length_eq_zero_iff.mp ((length_of_mem_drawRows hrow).trans h)

/-! ## 3. Reading a map -/

/-- The text of the map of a grid: a header with its dimensions, and its drawing. -/
def mapText (grid : Grid) : String :=
  "type octile\nheight " ++ toString grid.height ++ "\nwidth " ++ toString grid.width ++
    "\nmap\n" ++ String.ofList (grid.draw [])

/-- The line of a header with a number. -/
def fieldLine (name : String) (n : Nat) : List Char :=
  name.toList ++ ' ' :: Nat.toDigits 10 n

theorem isBlank_of_isDigit {c : Char} (h : c.isDigit = true) : Text.isBlank c = false := by
  simp only [Char.isDigit, Bool.and_eq_true, decide_eq_true_eq, ge_iff_le,
    UInt32.le_iff_toNat_le] at h
  obtain ⟨hlow, hhigh⟩ := h
  have hfrom : 48 ≤ c.toNat := hlow
  have hto : c.toNat ≤ 57 := hhigh
  rw [← Bool.not_eq_true]
  simp only [Text.isBlank, Bool.or_eq_true, Bool.and_eq_true, decide_eq_true_eq, beq_iff_eq]
  omega

theorem hasWords_fieldLine {name : String} {n : Nat} (hne : name.toList ≠ [])
    (hname : ∀ c ∈ name.toList, Text.isBlank c = false) :
    Text.HasWords (fieldLine name n) [name.toList, Nat.toDigits 10 n] := by
  have hdigits : ∀ c ∈ Nat.toDigits 10 n, Text.isBlank c = false := fun c hc =>
    isBlank_of_isDigit (isDigit_of_mem_toDigits hc)
  have hnumber : Text.HasWords (Nat.toDigits 10 n) [Nat.toDigits 10 n] := by
    have hword := Text.HasWords.word Nat.toDigits_ne_nil hdigits (fun c hc => by cases hc) .nil
    rwa [List.append_nil] at hword
  refine .word hne hname (fun c hc => ?_) (.blank (by decide) hnumber)
  cases hc
  decide

/-- **A number is read from its line**, if it has at most 64 bits. -/
theorem isField_fieldLine_iff {name : String} {n m : Nat} (hne : name.toList ≠ [])
    (hname : ∀ c ∈ name.toList, Text.isBlank c = false) :
    IsField name (fieldLine name n) m ↔ n = m ∧ n ≤ maxNatural := by
  have hwords : Text.HasWords (fieldLine name n) _ := hasWords_fieldLine hne hname
  rw [← isNumeral_toDigits_iff]
  constructor
  · intro ⟨value, hvalue, hnumeral⟩
    have hsame := hwords.words_eq.symm.trans hvalue.words_eq
    rw [List.cons.injEq, List.cons.injEq] at hsame
    exact hsame.2.1 ▸ hnumeral
  · intro hnumeral
    exact ⟨_, hwords, hnumeral⟩

/-- The lines of the header. -/
def headerRows (grid : Grid) : List (List Char) :=
  ["type octile".toList, fieldLine "height" grid.height, fieldLine "width" grid.width, "map".toList]

theorem toList_mapText :
    grid.mapText.toList = grid.headerRows.flatMap (· ++ ['\n']) ++ grid.draw [] := by
  unfold mapText headerRows fieldLine
  simp only [String.toList_append, Nat.toString_eq_ofList_toDigits, String.toList_ofList,
    List.flatMap_cons, List.flatMap_nil, List.append_assoc, List.cons_append, List.nil_append]
  rfl

theorem isPlainLine_fieldLine {name : String} {n : Nat}
    (hname : ∀ c ∈ name.toList, c ≠ '\n' ∧ c ≠ '\r') : Text.IsPlainLine (fieldLine name n) := by
  refine Text.isPlainLine_of_forall fun c hc => ?_
  rcases List.mem_append.mp hc with hc | hc
  · exact hname c hc
  rcases List.mem_cons.mp hc with rfl | hc
  · decide
  · have hdigit : c.isDigit = true := isDigit_of_mem_toDigits hc
    constructor
    · rintro rfl
      exact absurd hdigit (by decide)
    · rintro rfl
      exact absurd hdigit (by decide)

theorem hasLines_mapText :
    Text.HasLines grid.mapText.toList (grid.headerRows ++ grid.drawRows []) := by
  rw [toList_mapText]
  refine Text.hasLines_written ?_ hasLines_draw
  unfold headerRows
  simp only [List.forall_mem_cons]
  exact ⟨Text.isPlainLine_of_forall (by simp), isPlainLine_fieldLine (by simp),
    isPlainLine_fieldLine (by simp), Text.isPlainLine_of_forall (by simp), nofun⟩

/-- **The header of a map is read**, if the dimensions have at most 64 bits, and the rows of the
drawing are what comes after it. -/
theorem hasHeader_mapText_iff {height width : Nat} {body : List (List Char)} :
    HasHeader grid.mapText.toList height width body ↔
      (grid.height = height ∧ grid.height ≤ maxNatural) ∧
      (grid.width = width ∧ grid.width ≤ maxNatural) ∧ grid.drawRows [] = body := by
  have hheightLine : IsField "height" (fieldLine "height" grid.height) height ↔ _ :=
    isField_fieldLine_iff (by simp) (by simp [Text.isBlank])
  have hwidthLine : IsField "width" (fieldLine "width" grid.width) width ↔ _ :=
    isField_fieldLine_iff (by simp) (by simp [Text.isBlank])
  rw [← hheightLine, ← hwidthLine]
  constructor
  · rintro ⟨kind, first, second, mark, hlines, hheader⟩
    have hsame := hasLines_mapText.lines_eq.symm.trans hlines.lines_eq
    unfold headerRows at hsame
    simp only [List.cons_append, List.nil_append, List.cons.injEq] at hsame
    obtain ⟨_, rfl, rfl, _, rfl⟩ := hsame
    exact ⟨hheader.height, hheader.width, rfl⟩
  · rintro ⟨hheight, hwidth, rfl⟩
    exact ⟨_, _, _, _, hasLines_mapText, Text.hasWords_iff.mpr (by decide), hheight, hwidth,
      trim_eq_map_iff.mp (by decide)⟩

/-- **A drawing is read back.** Its lines are read as the rows of the grid that was drawn, unless
this has columns but no rows. Behind a header they are read as the map of this grid, if it has both
rows and columns or neither; the dimensions of a grid have 64 bits. -/
theorem reads_drawing (grid : Grid) :
    (ofRows (Text.lines (grid.draw [])) = .ok grid ↔ 0 < grid.height ∨ grid.width = 0) ∧
    (ofMap grid.mapText = .ok grid ↔
      (0 < grid.height ∧ 0 < grid.width ∨ grid.height = 0 ∧ grid.width = 0) ∧
      grid.height ≤ maxNatural ∧ grid.width ≤ maxNatural) := by
  constructor
  · rw [hasLines_draw.lines_eq, ofRows_eq_ok_iff, pictures_drawRows_iff]
  · constructor
    · intro h
      obtain ⟨height, width, body, hheader⟩ := exists_header_of_ofMap h
      rw [ofMap_of_header hheader] at h
      obtain ⟨⟨rfl, hheight⟩, ⟨rfl, hwidth⟩, rfl⟩ := hasHeader_mapText_iff.mp hheader
      obtain ⟨hlength, _, hpictures⟩ := ofMapRows_eq_ok_iff.mp h
      refine ⟨?_, hheight, hwidth⟩
      by_cases hzero : grid.width = 0
      · rw [hasRows_iff.mp (hasRows_drawRows_nil hzero)] at hlength
        exact .inr ⟨hlength.symm, hzero⟩
      · refine .inl ⟨Nat.pos_of_ne_zero fun hnone => ?_, Nat.pos_of_ne_zero hzero⟩
        rw [hnone] at hlength
        exact hzero (hpictures.empty (List.length_eq_zero_iff.mp hlength))
    · intro ⟨hdimensions, hheight, hwidth⟩
      have hheader : HasHeader grid.mapText.toList grid.height grid.width (grid.drawRows []) :=
        hasHeader_mapText_iff.mpr ⟨⟨rfl, hheight⟩, ⟨rfl, hwidth⟩, rfl⟩
      have hrows : HasRows (grid.drawRows []) (grid.drawRows []) :=
        hasRows_drawRows (by omega)
      rw [ofMap_of_header hheader, hasRows_iff.mp hrows]
      exact ofMapRows_eq_ok_iff.mpr ⟨length_drawRows, rfl, pictures_drawRows_iff.mpr (by omega)⟩

end Wayfinding.Grid
