import Wayfinding.Proofs.Plan.Optimality
import Wayfinding.Proofs.Search.Breadth
import Wayfinding.Proofs.Search.Expansion

/-!
# A* against Dijkstra

* Where the metric is zero, A* and Dijkstra are the same breadth-first search
  (`solve_eq_of_zero`).
* Where it is not, the distance to the goal is zero at the goal only, and A* expands no cell that is
  as far from the start as the goal is, while Dijkstra expands every nearer one.
* `expanded_aStar_le`: so A* never expands more cells than Dijkstra.
-/

namespace Wayfinding

variable {grid : Grid} {request : Request} {formula : Formula}

/-- The same request by a preset. -/
def Request.withPreset (request : Request) (preset : Preset) : Request :=
  { request with priority := .preset preset }

/-- Dijkstra compiles to the travelled cost. -/
theorem compile_dijkstra (h : request.priority = .preset .dijkstra) :
    ∃ formula, request.compile = .ok formula ∧ Formula.read .strict "G" = .ok formula := by
  refine ⟨⟨"G", .travelled⟩, ?_, by rfl⟩
  unfold Request.compile
  rw [h]
  rfl

section Problem

variable {hs : grid.Inside request.start} {hg : grid.Inside request.goal}

/-- Where the metric is zero, the values of `G+H` are compared as costs are. -/
theorem byCost_of_zero (hsize : grid.padded.size ≤ 2 ^ 53) (hzero : request.metric = .zero)
    (h : formula.IsLinear 1) : (request.problem grid formula hs hg).ByCost := by
  refine Problem.byCost_of_denotes fun cell cost hle => ?_
  have hestimate : (request.problem grid formula hs hg).estimates.get cell = 0 := by
    unfold Request.problem
    rw [hzero]
    exact Vector.getElem_ofFn _
  rw [hestimate]
  exact h cost 0 (by decide) (hle.trans hsize)

/-- **Where the metric is zero, `G+H` searches as `G` does.** -/
theorem solve_eq_of_zero {plain : Formula} (hsize : grid.padded.size ≤ 2 ^ 53)
    (hzero : request.metric = .zero) (h : formula.IsLinear 1)
    (hplain : Formula.read .strict "G" = .ok plain) :
    (request.problem grid formula hs hg).solve = (request.problem grid plain hs hg).solve := by
  have hcost : (request.problem grid plain hs hg).ByCost :=
    Problem.byCost_of_denotes fun _ _ hle => denotes_travelled hplain (hle.trans hsize) _
  exact (Problem.solve_eq_breadthFirst (byCost_of_zero hsize hzero h)).trans
    (Problem.solve_eq_breadthFirst hcost).symm

/-- The estimate is zero at the goal. -/
theorem estimate_goal : (request.problem grid formula hs hg).estimates.get
    (request.problem grid formula hs hg).goal = 0 :=
  (Metric.table_spot hg hg).trans (Metric.distance_self _ _)

/-- The estimate is zero at no other cell that can be reached, unless the metric is zero. -/
theorem estimate_pos (hmetric : request.metric ≠ .zero) {i : Fin grid.padded.size}
    (hi : i ∈ (request.problem grid formula hs hg).reachable)
    (hne : i ≠ (request.problem grid formula hs hg).goal) :
    0 < (request.problem grid formula hs hg).estimates.get i := by
  obtain ⟨cell, hc, rfl⟩ := exists_cell_of_reachable hi
  have hcell : cell ≠ request.goal := by
    intro hsame
    subst hsame
    exact hne rfl
  have hpos : 0 < request.metric.distance cell request.goal := Metric.distance_pos hmetric hcell
  rw [← Metric.table_spot hc hg] at hpos
  exact hpos

/-- **A search by `G+H` expands no more cells than one by `G`.** -/
theorem expanded_le_of_linear {plain : Formula} {few many : Outcome grid.padded.size}
    (hsize : 2 * grid.padded.size ≤ 2 ^ 53)
    (hpair : request.neighbourhood = .four ∨ request.metric ≠ .manhattan)
    (h : formula.IsLinear 1) (hplain : Formula.read .strict "G" = .ok plain)
    (hfew : (request.problem grid formula hs hg).solve = .ok few)
    (hmany : (request.problem grid plain hs hg).solve = .ok many) :
    few.expanded ≤ many.expanded := by
  by_cases hzero : request.metric = .zero
  · rw [solve_eq_of_zero (by omega) hzero h hplain, hmany] at hfew
    cases hfew
    exact Nat.le_refl _
  · have hguided := @guided_problem grid request formula hs hg 1 h hsize
    have hcost := @guided_problem grid request plain hs hg 0 (isLinear_travelled hplain) (by omega)
    rw [Metric.drop_eq_one hpair] at hguided
    exact Problem.expanded_le hguided hcost estimate_goal
      (fun _ hi hne => estimate_pos hzero hi hne) hfew hmany

end Problem

/-- **A* never expands more cells than Dijkstra.** Between two cells of a grid, with any metric for
moves in four directions and with any but the Manhattan distance for eight, both have a plan, and A*
has expanded no more cells than Dijkstra. If the goal cannot be reached, it has expanded as many.
The grid has less than `2 ^ 50` cells, its border included. -/
theorem expanded_aStar_le (hsize : grid.padded.size < 2 ^ 50) (hs : grid.Inside request.start)
    (hg : grid.Inside request.goal)
    (hpair : request.neighbourhood = .four ∨ request.metric ≠ .manhattan) :
    ∃ best dijkstra, (request.withPreset .aStar).plan grid = .ok best ∧
      (request.withPreset .dijkstra).plan grid = .ok dijkstra ∧
      best.expanded ≤ dijkstra.expanded ∧
      (request.goal ∉ grid.reachable request.neighbourhood request.start →
        best.expanded = dijkstra.expanded) := by
  obtain ⟨formula, hc, hlinear⟩ := @compile_aStar (request.withPreset .aStar) rfl
  obtain ⟨plain, hc', hplain⟩ := @compile_dijkstra (request.withPreset .dijkstra) rfl
  obtain ⟨few, hfew, hplan⟩ := @plan_of_compile grid (request.withPreset .aStar) formula hs hg hc
  obtain ⟨many, hmany, hplan'⟩ :=
    @plan_of_compile grid (request.withPreset .dijkstra) plain hs hg hc'
  refine ⟨_, _, hplan, hplan', ?_, fun hnot => ?_⟩
  · exact expanded_le_of_linear (by omega) hpair hlinear hplain hfew hmany
  · have hunreachable : (request.problem grid formula hs hg).goal ∉
        (request.problem grid formula hs hg).reachable := mt (spot_mem_reachable_iff hg).mp hnot
    exact (Problem.expanded_of_unreachable hfew hunreachable).trans
      (Problem.expanded_of_unreachable hmany hunreachable).symm

/-- A request for two cells in the middle row of a room. -/
def acrossRoom : Request where
  start := ⟨1, 1⟩
  goal := ⟨1, 3⟩

/-- In a room of three rows and four columns without obstacles A* goes straight to the goal, and
Dijkstra expands nine cells. -/
theorem expanded_room :
    ∃ best dijkstra, (acrossRoom.withPreset .aStar).plan (.allOpen 3 4) = .ok best ∧
      (acrossRoom.withPreset .dijkstra).plan (.allOpen 3 4) = .ok dijkstra ∧
      best.expanded = 2 ∧ dijkstra.expanded = 9 ∧ best.expanded ≤ dijkstra.expanded := by
  have hfew : ((acrossRoom.withPreset .aStar).plan (.allOpen 3 4)).map Plan.expanded = .ok 2 := by
    rfl
  have hmany : ((acrossRoom.withPreset .dijkstra).plan (.allOpen 3 4)).map Plan.expanded =
      .ok 9 := by rfl
  obtain ⟨best, dijkstra, hbest, hdijkstra, hle, _⟩ :=
    @expanded_aStar_le (.allOpen 3 4) acrossRoom (by decide) (by decide) (by decide) (by decide)
  rw [hbest] at hfew
  rw [hdijkstra] at hmany
  exact ⟨best, dijkstra, hbest, hdijkstra, Except.ok.inj hfew, Except.ok.inj hmany, hle⟩

end Wayfinding
