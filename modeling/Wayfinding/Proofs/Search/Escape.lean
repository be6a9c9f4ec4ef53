import Wayfinding.Proofs.Search.Completeness

/-!
# Searches that fail

* `Grid.Refuses` lists what is wrong with the input of a search before it begins, in the order in
  which it is looked at.
* A search of a valid input fails only for a move out of the grid, from a cell that can be reached
  and is not the goal (`Problem.solve_error`). Whether such a move is made before the goal is found
  depends on the priority. Where the goal cannot be reached every move is made
  (`Problem.not_leaves_of_unreachable`), so there the failure is certain.
* `search_escapes`: both together, for any formula.
-/

namespace Wayfinding

variable {n : Nat} {problem : Problem n}

/-! ## 1. Moves out of the grid -/

/-- No cell has the number that the offset leads to. -/
def Leaves (cell : Fin n) (offset : Int) : Prop :=
  cell.val + offset < 0 ∨ n ≤ cell.val + offset

namespace Problem

/-- **A search fails only for a move out of the grid** from a cell that can be reached and is not
the goal. -/
theorem solve_error {error : Error} (h : problem.solve = .error error) :
    ∃ cell ∈ problem.reachable, cell ≠ problem.goal ∧
      ∃ offset ∈ problem.offsets, Leaves cell offset ∧ error = .escape cell offset n := by
  obtain ⟨s, cell, label, hs, hl, hg, offset, ho, hnone, he⟩ := solve_error_cases h
  exact ⟨cell, hs.reached.tree.mem_reachable hl, hg, offset, ho, moveBy_eq_none_iff.mp hnone, he⟩

/-- A search that does not fail has nowhere to leave the grid if it cannot reach the goal: it made
the moves of every cell that can be reached. -/
theorem not_leaves_of_unreachable {outcome : Outcome n} (h : problem.solve = .ok outcome)
    (hg : problem.goal ∉ problem.reachable) {cell : Fin n} (hc : cell ∈ problem.reachable)
    {offset : Int} (ho : offset ∈ problem.offsets) : ¬ Leaves cell offset := by
  obtain ⟨s, hs, _, ⟨hf, _⟩ | ⟨_, _, _, _, _, hl, _, _⟩⟩ := solve_ok_cases h
  · obtain ⟨next, hmove, _⟩ := hs.explored cell (hs.settled_of_exhausted hf hc) offset ho
    intro hleaves
    rw [moveBy_eq_none_iff.mpr hleaves] at hmove
    cases hmove
  · exact absurd (hs.reached.tree.mem_reachable hl) hg

end Problem

/-! ## 2. Searches of a grid -/

namespace Grid

/-- What a search refuses before it begins. -/
inductive Refuses (grid : Grid) (start goal : Nat) (estimates : Array Nat) : Error → Prop where
  | start (hs : grid.size ≤ start) :
      Refuses grid start goal estimates (.index .start start grid.size)
  | goal (hs : start < grid.size) (hg : grid.size ≤ goal) :
      Refuses grid start goal estimates (.index .goal goal grid.size)
  | table (hs : start < grid.size) (hg : goal < grid.size) (he : estimates.size ≠ grid.size) :
      Refuses grid start goal estimates (.tableSize .heuristic grid.size estimates.size)

variable {grid : Grid} {offsets : List Int} {start goal : Nat} {estimates : Array Nat}
  {formula : Formula}

/-- What is refused is an error, whatever the offsets and the formula. -/
theorem search_refused {error : Error} (h : grid.Refuses start goal estimates error) :
    grid.search offsets start goal estimates formula = .error error := by
  unfold search checkIndex
  cases h with
  | start hs =>
      rw [dif_neg (Nat.not_lt.mpr hs)]
      rfl
  | goal hs hg =>
      rw [dif_pos hs, dif_neg (Nat.not_lt.mpr hg)]
      rfl
  | table hs hg he =>
      rw [dif_pos hs, dif_pos hg]
      exact dif_neg he

/-- The input of a search is refused or valid. -/
theorem refuses_or_valid (grid : Grid) (start goal : Nat) (estimates : Array Nat) :
    (∃ error, grid.Refuses start goal estimates error) ∨
      start < grid.size ∧ goal < grid.size ∧ estimates.size = grid.size := by
  by_cases hs : start < grid.size
  · by_cases hg : goal < grid.size
    · by_cases he : estimates.size = grid.size
      · exact Or.inr ⟨hs, hg, he⟩
      · exact Or.inl ⟨_, .table hs hg he⟩
    · exact Or.inl ⟨_, .goal hs (Nat.not_lt.mp hg)⟩
  · exact Or.inl ⟨_, .start (Nat.not_lt.mp hs)⟩

/-- What is not refused is searched. -/
theorem search_eq_solve (hs : start < grid.size) (hg : goal < grid.size)
    (he : estimates.size = grid.size) :
    grid.search offsets start goal estimates formula =
      Problem.solve ⟨grid.blocked, offsets, ⟨estimates, he⟩, formula.priority, ⟨start, hs⟩,
        ⟨goal, hg⟩⟩ := by
  unfold search checkIndex
  rw [dif_pos hs, dif_pos hg]
  exact dif_pos he

end Grid

/-- **When a search fails.** A start or a goal that is no cell and a table of the wrong size are
refused first, in this order. After that it fails only for a move out of the grid from a cell that
can be reached and is not the goal. If there is no such move it does not fail; if there is one and
the goal cannot be reached, it does. -/
theorem search_escapes (grid : Grid) (offsets : List Int) (start goal : Nat)
    (estimates : Array Nat) (formula : Formula) :
    (∀ error, grid.Refuses start goal estimates error →
      grid.search offsets start goal estimates formula = .error error) ∧
    ∀ (hs : start < grid.size) (hg : goal < grid.size), estimates.size = grid.size →
      (∀ error, grid.search offsets start goal estimates formula = .error error →
        ∃ cell ∈ reachable grid.blocked offsets ⟨start, hs⟩, cell ≠ ⟨goal, hg⟩ ∧
          ∃ offset ∈ offsets, Leaves cell offset ∧ error = .escape cell offset grid.size) ∧
      ((∀ cell ∈ reachable grid.blocked offsets ⟨start, hs⟩, cell ≠ ⟨goal, hg⟩ →
          ∀ offset ∈ offsets, ¬ Leaves cell offset) →
        ∃ outcome, grid.search offsets start goal estimates formula = .ok outcome) ∧
      (⟨goal, hg⟩ ∉ reachable grid.blocked offsets ⟨start, hs⟩ →
        (∃ cell ∈ reachable grid.blocked offsets ⟨start, hs⟩, ∃ offset ∈ offsets,
          Leaves cell offset) →
        ∃ cell offset, grid.search offsets start goal estimates formula =
          .error (.escape cell offset grid.size)) := by
  refine ⟨fun error h => Grid.search_refused h, fun hs hg he => ?_⟩
  rw [Grid.search_eq_solve hs hg he]
  refine ⟨fun error h => Problem.solve_error h, fun hinside => ?_, fun hgoal hleaves => ?_⟩
  · cases hsolve : Problem.solve ⟨grid.blocked, offsets, ⟨estimates, he⟩, formula.priority,
      ⟨start, hs⟩, ⟨goal, hg⟩⟩ with
    | ok outcome => exact ⟨outcome, rfl⟩
    | error error =>
        obtain ⟨cell, hc, hne, offset, ho, hout, _⟩ := Problem.solve_error hsolve
        exact absurd hout (hinside cell hc hne offset ho)
  · cases hsolve : Problem.solve ⟨grid.blocked, offsets, ⟨estimates, he⟩, formula.priority,
      ⟨start, hs⟩, ⟨goal, hg⟩⟩ with
    | ok outcome =>
        obtain ⟨cell, hc, offset, ho, hout⟩ := hleaves
        exact absurd hout (Problem.not_leaves_of_unreachable hsolve hgoal hc ho)
    | error error =>
        obtain ⟨cell, _, _, offset, _, _, rfl⟩ := Problem.solve_error hsolve
        exact ⟨cell, offset, rfl⟩

/-- On the lane the obstacle on the first cell is never reached. To the right a move leaves the
grid, to the left none does. A goal that is no cell is refused before the empty table. -/
theorem escapes_lane :
    lane.search [1] 5 6 #[] ⟨"G", .travelled⟩ = .error (.index .goal 6 6) ∧
      (∃ cell offset, lane.search [-1, 1] 4 0 #[0, 0, 0, 0, 0, 0] ⟨"H", .estimate⟩ =
        .error (.escape cell offset 6)) ∧
      ∃ outcome, lane.search [-1] 5 0 #[0, 0, 0, 0, 0, 0] ⟨"G", .travelled⟩ = .ok outcome := by
  have hfree {offsets : List Int} {start : Fin lane.size} (hs : start ≠ ⟨0, by decide⟩) :
      ⟨0, by decide⟩ ∉ reachable lane.blocked offsets start := fun hc =>
    absurd (free_of_mem_reachable hc hs.symm) (by decide)
  have hlast : LegalMove lane.blocked [-1, 1] ⟨4, by decide⟩ ⟨5, by decide⟩ :=
    ⟨by decide, 1, by decide, by decide⟩
  obtain ⟨hrefused, _⟩ := search_escapes lane [1] 5 6 #[] ⟨"G", .travelled⟩
  obtain ⟨_, hright⟩ := search_escapes lane [-1, 1] 4 0 #[0, 0, 0, 0, 0, 0] ⟨"H", .estimate⟩
  obtain ⟨_, hleft⟩ := search_escapes lane [-1] 5 0 #[0, 0, 0, 0, 0, 0] ⟨"G", .travelled⟩
  obtain ⟨_, _, hescape⟩ := hright (by decide) (by decide) rfl
  obtain ⟨_, hok, _⟩ := hleft (by decide) (by decide) rfl
  refine ⟨hrefused _ (.goal (by decide) (by decide)), ?_, hok fun cell hc _ offset ho => ?_⟩
  · exact hescape (hfree (by decide)) ⟨_, .single hlast, 1, by decide, Or.inr (by decide)⟩
  · have hpos : 0 < cell.val := by
      refine Nat.pos_of_ne_zero fun h0 => ?_
      cases (Fin.ext h0 : cell = ⟨0, by decide⟩)
      exact hfree (by decide) hc
    have hlt := cell.isLt
    rw [List.mem_singleton.mp ho, Leaves]
    omega

end Wayfinding
