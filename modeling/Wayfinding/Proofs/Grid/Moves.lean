import Mathlib.Tactic.Ring
import Wayfinding.Plan.Basic
import Wayfinding.Proofs.Search.Walk

/-!
# Moves on a grid

* `Neighbourhood.Adjacent` says in rows and columns which cells are next to one another; `Grid.Step`
  is a move to such a cell if it is open.
* `Grid.spot` is the number of a cell in the padded grid. The border keeps every move inside
  (`moveBy_spot`), and no move enters it, so the legal moves from a spot are the steps of its cell
  (`legalMove_spot_iff`).
* So the search on the padded grid walks exactly where the grid has a walk (`walk_spot_iff`).
-/

namespace Wayfinding

/-! ## 1. Cells next to one another -/

/-- The direction leads from one cell to the other. -/
def Direction.Leads (direction : Direction) (a b : Cell) : Prop :=
  (b.row : Int) = a.row + direction.rows ∧ (b.col : Int) = a.col + direction.cols

theorem Direction.leads_shifted {direction : Direction} {a b : Cell} :
    direction.Leads a.shifted b.shifted ↔ direction.Leads a b := by
  unfold Leads Cell.shifted
  push_cast
  omega

theorem Cell.shifted_unshifted {cell : Cell} (hr : 0 < cell.row) (hc : 0 < cell.col) :
    cell.unshifted.shifted = cell := by
  obtain ⟨row, col⟩ := cell
  exact congrArg₂ Cell.mk (Nat.sub_add_cancel hr) (Nat.sub_add_cancel hc)

namespace Neighbourhood

/-- The cells next to a cell: with `four` its row or its column differs by one, with `eight` neither
differs by more than one. -/
def Adjacent : Neighbourhood → Cell → Cell → Prop
  | four, a, b => Metric.gap a.row b.row + Metric.gap a.col b.col = 1
  | eight, a, b => max (Metric.gap a.row b.row) (Metric.gap a.col b.col) = 1

variable {neighbourhood : Neighbourhood} {direction : Direction} {a b : Cell}

theorem directions_bounds (h : direction ∈ neighbourhood.directions) :
    (-1 ≤ direction.rows ∧ direction.rows ≤ 1) ∧ -1 ≤ direction.cols ∧ direction.cols ≤ 1 := by
  cases neighbourhood with
  | four =>
      have hall : ∀ d ∈ straight, (-1 ≤ d.rows ∧ d.rows ≤ 1) ∧ -1 ≤ d.cols ∧ d.cols ≤ 1 := by decide
      exact hall direction h
  | eight =>
      have hall : ∀ d ∈ straight ++ diagonal,
        (-1 ≤ d.rows ∧ d.rows ≤ 1) ∧ -1 ≤ d.cols ∧ d.cols ≤ 1 := by decide
      exact hall direction h

/-- **The directions lead to the cells next to a cell**, and to all of them. -/
theorem adjacent_iff : neighbourhood.Adjacent a b ↔
    ∃ direction ∈ neighbourhood.directions, direction.Leads a b := by
  cases neighbourhood with
  | four =>
      unfold Adjacent Metric.gap directions straight Direction.Leads
      simp only [List.mem_cons, List.not_mem_nil, or_false, exists_eq_or_imp, exists_eq_left]
      omega
  | eight =>
      unfold Adjacent Metric.gap directions straight diagonal Direction.Leads
      simp only [List.cons_append, List.nil_append, List.mem_cons, List.not_mem_nil, or_false,
        exists_eq_or_imp, exists_eq_left]
      omega

end Neighbourhood

/-! ## 2. Spots on the padded grid -/

namespace Grid

/-- A move to a cell of the grid that has no obstacle. -/
def Step (grid : Grid) (neighbourhood : Neighbourhood) (a b : Cell) : Prop :=
  neighbourhood.Adjacent a b ∧ grid.isObstacle b = false

theorem index_shifted_lt {grid : Grid} {cell : Cell} (h : grid.Inside cell) :
    grid.padded.index cell.shifted < grid.padded.size :=
  index_lt (inside_padded h)

/-- The number of a cell of the grid in the padded grid. -/
def spot (grid : Grid) (cell : Cell) (h : grid.Inside cell) : Fin grid.padded.size :=
  ⟨grid.padded.index cell.shifted, index_shifted_lt h⟩

variable {grid : Grid} {neighbourhood : Neighbourhood} {direction : Direction} {a b cell : Cell}
  {next : Fin grid.padded.size}

theorem locatePadded_of_inside (endpoint : Endpoint) (h : grid.Inside cell) :
    grid.locatePadded endpoint cell = .ok (grid.spot cell h) :=
  dif_pos h

theorem cellAt_spot (h : grid.Inside cell) :
    grid.padded.cellAt (grid.spot cell h).val = cell.shifted :=
  cellAt_index (inside_padded h).1

theorem spot_injective (ha : grid.Inside a) (hb : grid.Inside b)
    (h : grid.spot a ha = grid.spot b hb) : a = b := by
  have hcell := congrArg (fun i => (grid.padded.cellAt i.val).unshifted) h
  simp only [cellAt_spot] at hcell
  exact hcell

/-- The cell of the grid that has a number in the padded grid. -/
def unspot (grid : Grid) (i : Fin grid.padded.size) : Cell :=
  (grid.padded.cellAt i.val).unshifted

@[simp] theorem unspot_spot (h : grid.Inside cell) : grid.unspot (grid.spot cell h) = cell := by
  rw [unspot, cellAt_spot, Cell.unshifted_shifted]

/-- Different spots are different cells. -/
theorem unspot_injOn :
    Set.InjOn grid.unspot {i | ∃ (cell : Cell) (hc : grid.Inside cell), i = grid.spot cell hc} := by
  intro i hi j hj hsame
  obtain ⟨a, ha, rfl⟩ := hi
  obtain ⟨b, hb, rfl⟩ := hj
  rw [unspot_spot, unspot_spot] at hsame
  subst hsame
  rfl

theorem inside_of_open (h : grid.isObstacle cell = false) : grid.Inside cell := by
  by_contra hout
  unfold isObstacle at h
  rw [dif_neg hout] at h
  cases h

theorem blocked_spot (h : grid.Inside cell) :
    grid.padded.blocked.get (grid.spot cell h) = grid.isObstacle cell := by
  have hinside := inside_padded h
  rw [← isObstacle_padded_shifted, isObstacle_of_inside hinside (index_shifted_lt h)]
  rfl

/-! ## 3. Moves between spots -/

/-- A direction makes the same difference of cell numbers everywhere. -/
theorem index_of_leads (h : direction.Leads a b) :
    (grid.index b : Int) = grid.index a + Neighbourhood.offset grid.height direction := by
  unfold index Neighbourhood.offset
  push_cast
  rw [h.1, h.2]
  ring

/-- A direction leads from a cell of the grid to a cell of the padded grid. -/
theorem exists_leads (h : grid.Inside cell) (hd : direction ∈ neighbourhood.directions) :
    ∃ c, grid.padded.Inside c ∧ direction.Leads cell.shifted c := by
  obtain ⟨⟨hrlo, hrhi⟩, hclo, hchi⟩ := Neighbourhood.directions_bounds hd
  have hrow := h.1
  have hcol := h.2
  refine ⟨⟨(cell.row + 1 + direction.rows).toNat, (cell.col + 1 + direction.cols).toNat⟩,
    ⟨?_, ?_⟩, ?_, ?_⟩
  · show (cell.row + 1 + direction.rows).toNat < grid.height + 2
    omega
  · show (cell.col + 1 + direction.cols).toNat < grid.width + 2
    omega
  · show ((cell.row + 1 + direction.rows).toNat : Int) = (cell.row + 1 : Nat) + direction.rows
    omega
  · show ((cell.col + 1 + direction.cols).toNat : Int) = (cell.col + 1 : Nat) + direction.cols
    omega

/-- **No move leaves the padded grid.** It leads from a cell of the grid to the cell of the padded
grid that lies in its direction. -/
theorem moveBy_spot (h : grid.Inside cell) (hd : direction ∈ neighbourhood.directions) :
    ∃ (c : Cell) (hin : grid.padded.Inside c), direction.Leads cell.shifted c ∧
      moveBy (grid.spot cell h) (Neighbourhood.offset grid.padded.height direction) =
        some ⟨grid.padded.index c, index_lt hin⟩ := by
  obtain ⟨c, hin, hleads⟩ := exists_leads h hd
  exact ⟨c, hin, hleads, moveBy_eq_some_iff.mpr (index_of_leads hleads)⟩

/-- An open cell of the padded grid is an open cell of the grid. -/
theorem exists_shifted_of_open {c : Cell} (h : grid.padded.isObstacle c = false) :
    ∃ b, c = b.shifted ∧ grid.isObstacle b = false := by
  have htable : grid.padded.isObstacle c = grid.isObstaclePadded c :=
    isObstacle_tabulate (inside_of_open h)
  rw [htable] at h
  unfold isObstaclePadded at h
  by_cases hpos : 0 < c.row ∧ 0 < c.col
  · rw [if_pos hpos] at h
    exact ⟨c.unshifted, (Cell.shifted_unshifted hpos.1 hpos.2).symm, h⟩
  · rw [if_neg hpos] at h
    cases h

/-- **The legal moves from a spot are the steps from its cell.** -/
theorem legalMove_spot_iff (h : grid.Inside cell) :
    LegalMove grid.padded.blocked (neighbourhood.offsets grid.padded.height)
        (grid.spot cell h) next ↔
      ∃ (b : Cell) (hb : grid.Inside b),
        grid.Step neighbourhood cell b ∧ next = grid.spot b hb := by
  constructor
  · rintro ⟨hopen, offset, ho, hnext⟩
    obtain ⟨direction, hd, rfl⟩ := List.mem_map.mp ho
    obtain ⟨c, hin, hleads, hmove⟩ := moveBy_spot h hd
    have hsame : next = ⟨grid.padded.index c, index_lt hin⟩ :=
      Option.some.inj ((moveBy_eq_some_iff.mpr hnext).symm.trans hmove)
    subst hsame
    have hfree := (isObstacle_of_inside hin (index_lt hin)).trans hopen
    obtain ⟨b, rfl, hb⟩ := exists_shifted_of_open hfree
    have hadjacent : neighbourhood.Adjacent cell b :=
      Neighbourhood.adjacent_iff.mpr ⟨direction, hd, Direction.leads_shifted.mp hleads⟩
    exact ⟨b, inside_of_open hb, ⟨hadjacent, hb⟩, rfl⟩
  · rintro ⟨b, hb, ⟨hadjacent, hopen⟩, rfl⟩
    obtain ⟨direction, hd, hleads⟩ := Neighbourhood.adjacent_iff.mp hadjacent
    exact ⟨(blocked_spot hb).trans hopen, _, List.mem_map_of_mem hd,
      index_of_leads (Direction.leads_shifted.mpr hleads)⟩

/-! ## 4. Walks -/

variable {start goal : Cell} {k : Nat}

/-- A walk on the padded grid that begins at a cell of the grid stays on cells of the grid. -/
theorem exists_cell_of_walk (hs : grid.Inside start)
    (h : Walk (LegalMove grid.padded.blocked (neighbourhood.offsets grid.padded.height))
      (grid.spot start hs) k next) :
    ∃ (b : Cell) (hb : grid.Inside b), next = grid.spot b hb ∧
      Walk (grid.Step neighbourhood) start k b := by
  induction h with
  | stay => exact ⟨start, hs, rfl, .stay⟩
  | step _ hm ih =>
      obtain ⟨b, hb, rfl, hwalk⟩ := ih
      obtain ⟨c, hc, hstep, rfl⟩ := (legalMove_spot_iff hb).mp hm
      exact ⟨c, hc, rfl, hwalk.step hstep⟩

theorem exists_walk_spot (hs : grid.Inside start)
    (h : Walk (grid.Step neighbourhood) start k cell) :
    ∃ hc : grid.Inside cell,
      Walk (LegalMove grid.padded.blocked (neighbourhood.offsets grid.padded.height))
        (grid.spot start hs) k (grid.spot cell hc) := by
  induction h with
  | stay => exact ⟨hs, .stay⟩
  | @step k last next _ hm ih =>
      obtain ⟨hlast, hwalk⟩ := ih
      have hnext : grid.Inside next := inside_of_open hm.2
      exact ⟨hnext, hwalk.step ((legalMove_spot_iff hlast).mpr ⟨next, hnext, hm, rfl⟩)⟩

/-- **The padded grid has the walks of the grid.** -/
theorem walk_spot_iff (hs : grid.Inside start) (hg : grid.Inside goal) :
    Walk (LegalMove grid.padded.blocked (neighbourhood.offsets grid.padded.height))
        (grid.spot start hs) k (grid.spot goal hg) ↔
      Walk (grid.Step neighbourhood) start k goal := by
  constructor
  · intro h
    obtain ⟨b, hb, hsame, hwalk⟩ := exists_cell_of_walk hs h
    rw [spot_injective hg hb hsame]
    exact hwalk
  · intro h
    obtain ⟨_, hwalk⟩ := exists_walk_spot hs h
    exact hwalk

/-- The cells that steps lead to from a cell, which is one of them. -/
def reachable (grid : Grid) (neighbourhood : Neighbourhood) (start : Cell) : Set Cell :=
  {cell | Relation.ReflTransGen (grid.Step neighbourhood) start cell}

theorem inside_of_mem_reachable (hs : grid.Inside start)
    (h : cell ∈ grid.reachable neighbourhood start) : grid.Inside cell := by
  cases h with
  | refl => exact hs
  | tail _ hstep => exact inside_of_open hstep.2

end Grid

end Wayfinding
