import Mathlib.Data.List.Nodup
import Wayfinding.Proofs.Grid.Border

/-!
# Offsets are moves in a direction

* `Neighbourhood.compass` names the directions of a move, from the north on.
* In the padded grid, each offset leads from a cell of the grid to the cell in its direction, and no
  two of them lead to the same cell (`exists_targets`). This holds in the first and the last row as
  well, where without a border an offset would lead to another column.
* `offsets_padded` puts this together with what stands on the border and inside it.
-/

namespace Wayfinding

/-! ## 1. Directions by name -/

namespace Direction

def north : Direction := ⟨-1, 0⟩

def south : Direction := ⟨1, 0⟩

def west : Direction := ⟨0, -1⟩

def east : Direction := ⟨0, 1⟩

def northWest : Direction := ⟨-1, -1⟩

def southWest : Direction := ⟨1, -1⟩

def northEast : Direction := ⟨-1, 1⟩

def southEast : Direction := ⟨1, 1⟩

variable {direction other : Direction} {a b c : Cell}

/-- Only one direction leads from one cell to another. -/
theorem Leads.direction_unique (h : direction.Leads a b) (hother : other.Leads a b) :
    direction = other := by
  have hrows : direction.rows = other.rows := by
    have := h.1
    have := hother.1
    omega
  have hcols : direction.cols = other.cols := by
    have := h.2
    have := hother.2
    omega
  exact congrArg₂ Direction.mk hrows hcols

/-- A direction leads to one cell only. -/
theorem Leads.cell_unique (h : direction.Leads a b) (hother : direction.Leads a c) : b = c := by
  have hrow : b.row = c.row := by
    have := h.1
    have := hother.1
    omega
  have hcol : b.col = c.col := by
    have := h.2
    have := hother.2
    omega
  exact congrArg₂ Cell.mk hrow hcol

end Direction

namespace Neighbourhood

open Direction

/-- The directions of a move in the order of its offsets: first those to the sides, then those over
the corners. -/
def compass : Neighbourhood → List Direction
  | four => [north, south, west, east]
  | eight => [north, south, west, east, northWest, southWest, northEast, southEast]

theorem compass_eq (neighbourhood : Neighbourhood) :
    neighbourhood.compass = neighbourhood.directions := by
  cases neighbourhood with
  | four => rfl
  | eight => rfl

theorem nodup_compass (neighbourhood : Neighbourhood) : neighbourhood.compass.Nodup := by
  cases neighbourhood with
  | four => decide
  | eight => decide

end Neighbourhood

/-! ## 2. Where offsets lead -/

namespace Grid

variable {grid : Grid} {neighbourhood : Neighbourhood} {cell c : Cell}

/-- The direction leads from a cell of the grid to the cell of the padded grid with this number. -/
def LeadsTo (grid : Grid) (cell : Cell) (direction : Direction) (target : Fin grid.padded.size) :
    Prop :=
  direction.Leads cell.shifted (grid.padded.cellAt target)

/-- Directions and the numbers of the cells that they lead to determine each other. -/
theorem biUnique_leadsTo (grid : Grid) (cell : Cell) : Relator.BiUnique (grid.LeadsTo cell) := by
  constructor
  · intro direction other target h hother
    exact Direction.Leads.direction_unique h hother
  · intro direction target other h hother
    have hcell := congrArg grid.padded.index (Direction.Leads.cell_unique h hother)
    rw [index_cellAt, index_cellAt] at hcell
    exact Fin.ext hcell

/-- **Every direction has a target**, and its offset leads there. -/
theorem exists_targets (h : grid.Inside cell) {directions : List Direction}
    (hd : ∀ direction ∈ directions, direction ∈ neighbourhood.directions) :
    ∃ targets : List (Fin grid.padded.size), List.Forall₂ (grid.LeadsTo cell) directions targets ∧
      (directions.map (Neighbourhood.offset grid.padded.height)).map
        (moveBy (grid.spot cell h)) = targets.map some := by
  induction directions with
  | nil => exact ⟨[], .nil, rfl⟩
  | cons direction directions ih =>
      obtain ⟨targets, hleads, hmoves⟩ :=
        ih fun other hother => hd other (List.mem_cons_of_mem _ hother)
      obtain ⟨c, hin, hfirst, hmove⟩ := moveBy_spot h (hd direction List.mem_cons_self)
      refine ⟨⟨grid.padded.index c, index_lt hin⟩ :: targets, .cons ?_ hleads, ?_⟩
      · have hcell : grid.padded.cellAt (grid.padded.index c) = c := cellAt_index hin.1
        unfold LeadsTo
        rw [hcell]
        exact hfirst
      · rw [List.map_cons, List.map_cons, List.map_cons, hmove, hmoves]

/-- The number of a target is that of the cell and the offset together. -/
theorem forall₂_of_moveBy {i : Fin grid.padded.size} {offsets : List Int}
    {targets : List (Fin grid.padded.size)} (h : offsets.map (moveBy i) = targets.map some) :
    List.Forall₂ (fun offset target => (target.val : Int) = i.val + offset) offsets targets := by
  rw [← List.forall₂_eq_eq_eq, List.forall₂_map_left_iff, List.forall₂_map_right_iff] at h
  exact h.imp fun _ _ hmove => moveBy_eq_some_iff.mp hmove

/-! ## 3. Cells of the padded grid -/

/-- The cell lies in the first or last row or column of the padded grid. -/
def OnBorder (grid : Grid) (c : Cell) : Prop :=
  c.row = 0 ∨ c.row = grid.height + 1 ∨ c.col = 0 ∨ c.col = grid.width + 1

theorem isBlocked?_of_onBorder (hin : grid.padded.Inside c) (h : grid.OnBorder c) :
    grid.padded.isBlocked? (grid.padded.index c) = .ok true := by
  rw [isBlocked?_index hin]
  refine congrArg Except.ok (isObstacle_padded_of_new fun old hold hsame => ?_)
  subst hsame
  obtain ⟨hrow, hcol⟩ := hold
  obtain h | h | h | h := h
  · exact Nat.succ_ne_zero _ h
  · exact hrow.ne (Nat.succ.inj h)
  · exact Nat.succ_ne_zero _ h
  · exact hcol.ne (Nat.succ.inj h)

theorem isBlocked?_shifted (h : grid.Inside cell) :
    grid.padded.isBlocked? (grid.padded.index cell.shifted) = grid.isBlocked? (grid.index cell) := by
  rw [isBlocked?_index (inside_padded h), isBlocked?_index h, isObstacle_padded_shifted]

/-- **On a padded grid offsets are moves.** From a cell of the grid, the offsets in their order lead
to numbers of the padded grid, and these are the numbers of the cells to the north, the south, the
west and the east, then to the north-west, the south-west, the north-east and the south-east. No two
of them are the same. Every cell of the border has an obstacle, and inside it all is as in the grid,
from which the padded grid is copied cell by cell. -/
theorem offsets_padded (grid : Grid) (neighbourhood : Neighbourhood) :
    (∀ cell (h : grid.Inside cell), ∃ targets : List (Fin grid.padded.size),
      (neighbourhood.offsets grid.padded.height).map (moveBy (grid.spot cell h)) =
          targets.map some ∧
        List.Forall₂ (fun offset target =>
          (target.val : Int) = grid.padded.index cell.shifted + offset)
          (neighbourhood.offsets grid.padded.height) targets ∧
        List.Forall₂ (fun direction target =>
          direction.Leads cell.shifted (grid.padded.cellAt target.val))
          neighbourhood.compass targets ∧
        targets.Nodup) ∧
    (∀ c, grid.padded.Inside c → grid.OnBorder c →
      grid.padded.isBlocked? (grid.padded.index c) = .ok true) ∧
    (∀ cell, grid.Inside cell →
      grid.padded.isBlocked? (grid.padded.index cell.shifted) =
        grid.isBlocked? (grid.index cell)) ∧
    grid.copiedPadded = .ok grid.padded := by
  refine ⟨fun cell h => ?_, fun c => isBlocked?_of_onBorder, fun cell => isBlocked?_shifted,
    copiedPadded_eq grid⟩
  have hall : ∀ direction ∈ neighbourhood.directions, direction ∈ neighbourhood.directions :=
    fun _ hd => hd
  obtain ⟨targets, hleads, hmoves⟩ := exists_targets h hall
  rw [← Neighbourhood.compass_eq] at hleads
  have hnodup : targets.Nodup :=
    (List.rel_nodup (biUnique_leadsTo grid cell) hleads).mp neighbourhood.nodup_compass
  exact ⟨targets, hmoves, forall₂_of_moveBy hmoves, hleads, hnodup⟩

/-- A grid of one open cell. -/
def cabin : Grid :=
  ⟨1, 1, #v[false]⟩

/-- Around the cabin stand the eight cells of its border, to which the offsets lead in their order.
All of them have an obstacle, and the cabin is open. -/
theorem offsets_padded_cabin :
    (∃ targets : List (Fin cabin.padded.size),
      targets.map Fin.val = [3, 5, 1, 7, 0, 2, 6, 8] ∧
        List.Forall₂ (fun direction target =>
          direction.Leads (Cell.shifted ⟨0, 0⟩) (cabin.padded.cellAt target.val))
          Neighbourhood.eight.compass targets ∧
        targets.Nodup) ∧
      cabin.padded.isBlocked? (cabin.padded.index ⟨2, 1⟩) = .ok true ∧
      cabin.padded.isBlocked? 4 = .ok false := by
  obtain ⟨hmoves, hborder, hinner, _⟩ := offsets_padded cabin .eight
  obtain ⟨targets, hmap, _, hleads, hnodup⟩ := hmoves ⟨0, 0⟩ (by decide)
  have hnumbers : ((Neighbourhood.eight.offsets cabin.padded.height).map
      (moveBy (cabin.spot ⟨0, 0⟩ (by decide)))).map (Option.map Fin.val) =
        ([3, 5, 1, 7, 0, 2, 6, 8] : List Nat).map some := by decide
  rw [hmap, List.map_map] at hnumbers
  have hvalues : targets.map Fin.val = [3, 5, 1, 7, 0, 2, 6, 8] :=
    List.map_injective_iff.mpr (Option.some_injective _) (List.map_map.trans hnumbers)
  exact ⟨⟨targets, hvalues, hleads, hnodup⟩, hborder ⟨2, 1⟩ (by decide) (Or.inr (Or.inl rfl)),
    (hinner ⟨0, 0⟩ (by decide)).trans (by decide)⟩

end Grid

end Wayfinding
