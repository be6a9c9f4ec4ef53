import Wayfinding.Proofs.Grid.Estimates
import Wayfinding.Proofs.Plan.Routes
import Wayfinding.Proofs.Search.Renumbering

/-!
# Plans on a grid with a border

A border of obstacles shifts every cell of a grid by one row and one column, and gives all of them
other numbers.

* `Grid.place` is the new number of a cell. Obstacles, distances and moves stay with the cell
  (`blocked_place`, `table_place`, `moveBy_place`).
* `renumbered_padded`: so the search of the shifted request is that of the request with its cells
  renumbered.
* `plan_padded`: hence the shifted request has the shifted plan, or fails in the same way, however
  many borders are put around the grid.
-/

namespace Wayfinding

variable {grid : Grid} {request : Request} {formula : Formula}

/-! ## 1. The number of a cell after a border is put around the grid -/

namespace Grid

/-- The number that a cell of the padded grid has after one more border is put around it. -/
def place (grid : Grid) (i : Fin grid.padded.size) : Fin grid.padded.padded.size :=
  grid.padded.spot (grid.padded.cellAt i) (inside_cellAt i.isLt)

theorem place_index {c : Cell} (h : grid.padded.Inside c) :
    grid.place ⟨grid.padded.index c, index_lt h⟩ = grid.padded.spot c h := by
  unfold place
  congr 1
  exact cellAt_index h.1

theorem place_spot {cell : Cell} (h : grid.Inside cell) :
    grid.place (grid.spot cell h) = grid.padded.spot cell.shifted (inside_padded h) :=
  place_index (inside_padded h)

theorem place_injective (grid : Grid) : Function.Injective grid.place := by
  intro i j hsame
  have hcell : grid.padded.cellAt i.val = grid.padded.cellAt j.val := spot_injective _ _ hsame
  have hindex := congrArg grid.padded.index hcell
  rw [index_cellAt, index_cellAt] at hindex
  exact Fin.ext hindex

theorem blocked_place (i : Fin grid.padded.size) :
    grid.padded.padded.blocked.get (grid.place i) = grid.padded.blocked.get i := by
  have hin : grid.padded.Inside (grid.padded.cellAt i) := inside_cellAt i.isLt
  rw [place, blocked_spot, isObstacle_of_inside hin (index_lt hin)]
  simp only [index_cellAt]
  rfl

theorem table_place (metric : Metric) (goal i : Fin grid.padded.size) :
    (metric.table grid.padded.padded (grid.place goal)).get (grid.place i) =
      (metric.table grid.padded goal).get i := by
  have hentry : (metric.table grid.padded goal).get i =
      metric.distance (grid.padded.cellAt i) (grid.padded.cellAt goal) := Vector.getElem_ofFn _
  rw [hentry]
  exact Metric.table_spot (inside_cellAt i.isLt) (inside_cellAt goal.isLt)

/-- **A direction leads from the place of a cell to the place of the cell that it leads to.** -/
theorem moveBy_place {neighbourhood : Neighbourhood} {direction : Direction} {cell : Cell}
    (h : grid.Inside cell) (hd : direction ∈ neighbourhood.directions) :
    ∃ next, moveBy (grid.spot cell h) (Neighbourhood.offset grid.padded.height direction) =
        some next ∧
      moveBy (grid.place (grid.spot cell h))
        (Neighbourhood.offset grid.padded.padded.height direction) = some (grid.place next) := by
  obtain ⟨c, hin, hleads, hmove⟩ := moveBy_spot h hd
  refine ⟨_, hmove, ?_⟩
  rw [place_index hin, place_spot h]
  exact moveBy_eq_some_iff.mpr (index_of_leads (Direction.leads_shifted.mpr hleads))

end Grid

/-! ## 2. The shifted request -/

/-- The request for the same cells after a border is put around the grid. -/
def Request.shifted (request : Request) : Request :=
  { request with start := request.start.shifted, goal := request.goal.shifted }

/-- The plan over the same cells after a border is put around the grid. -/
def Plan.shifted (plan : Plan) : Plan :=
  { plan with
    start := plan.start.shifted
    goal := plan.goal.shifted
    path := plan.path.map Cell.shifted }

section Problem

variable {hs : grid.Inside request.start} {hg : grid.Inside request.goal}

/-- **The search of the shifted request is the search of the request**, its cells renumbered. -/
theorem renumbered_padded (request : Request) (formula : Formula) (hs : grid.Inside request.start)
    (hg : grid.Inside request.goal) :
    (request.problem grid formula hs hg).Renumbered
      (request.shifted.problem grid.padded formula (Grid.inside_padded hs) (Grid.inside_padded hg))
      grid.place where
  injective := grid.place_injective
  start := (Grid.place_spot hs).symm
  goal := (Grid.place_spot hg).symm
  order a _ b _ cost cost' := by
    have hestimate (i : Fin grid.padded.size) :
        (request.shifted.problem grid.padded formula (Grid.inside_padded hs)
          (Grid.inside_padded hg)).estimates.get (grid.place i) =
        (request.problem grid formula hs hg).estimates.get i := by
      have htable := Grid.table_place request.metric (grid.spot request.goal hg) i
      rw [Grid.place_spot hg] at htable
      exact htable
    rw [hestimate a, hestimate b]
    rfl
  moves i hi := by
    obtain ⟨cell, hc, rfl⟩ := exists_cell_of_reachable hi
    refine List.forall₂_map_left_iff.mpr (List.forall₂_map_right_iff.mpr ?_)
    refine List.forall₂_same.mpr fun direction hd => ?_
    obtain ⟨next, hmove, hmove'⟩ := Grid.moveBy_place hc hd
    exact .stay next hmove hmove' (Grid.blocked_place next)

/-- What the search of the shifted request finds is reported as the shifted plan. -/
theorem report_renumber {outcome : Outcome grid.padded.size}
    (h : (request.problem grid formula hs hg).solve = .ok outcome) :
    request.shifted.report formula grid.padded (outcome.renumber grid.place) =
      (request.report formula grid outcome).shifted := by
  cases hroute : outcome.route with
  | none =>
      simp only [Request.report, Plan.shifted, Outcome.renumber, hroute]
      rfl
  | some route =>
      have hpath : (route.cells.map grid.place).map grid.padded.unspot =
          (route.cells.map grid.unspot).map Cell.shifted := by
        rw [List.map_map, List.map_map]
        refine List.map_congr_left fun i hi => ?_
        obtain ⟨cell, hc, rfl⟩ :=
          exists_cell_of_reachable ((Problem.solve_isRoute h hroute).mem_reachable hi)
        rw [Function.comp_apply, Function.comp_apply, Grid.place_spot, Grid.unspot_spot,
          Grid.unspot_spot]
      simp only [Request.report, Plan.shifted, Outcome.renumber, hroute, Option.map_some]
      congr 1

end Problem

/-! ## 3. Plans -/

/-- One border changes nothing about a plan but the numbers of rows and columns. -/
theorem plan_shifted (hs : grid.Inside request.start) (hg : grid.Inside request.goal) :
    request.shifted.plan grid.padded = (request.plan grid).map Plan.shifted := by
  cases hc : request.compile with
  | error error =>
      have hc' : request.shifted.compile = .error error := hc
      rw [plan_of_compile_error hc, plan_of_compile_error hc']
      rfl
  | ok formula =>
      have hc' : request.shifted.compile = .ok formula := hc
      obtain ⟨outcome, hsolve, hplan⟩ := plan_of_compile hs hg hc
      obtain ⟨outcome', hsolve', hplan'⟩ :=
        plan_of_compile (Grid.inside_padded hs) (Grid.inside_padded hg) hc'
      rw [Problem.solve_renumbered (renumbered_padded request formula hs hg), hsolve] at hsolve'
      cases hsolve'
      rw [hplan, hplan', report_renumber hsolve]
      rfl

/-- **Borders are invisible to a plan.** However many borders are put around a grid, a request
between two of its cells, shifted along with them, has the same plan up to that shift: the same cost,
the same numbers of expanded and of stale cells, and the same path. Or it fails as before, which can
only be because of its formula or its weight. -/
theorem plan_padded (hs : grid.Inside request.start) (hg : grid.Inside request.goal)
    (borders : Nat) :
    (Request.shifted^[borders] request).plan (Grid.padded^[borders] grid) =
        (request.plan grid).map Plan.shifted^[borders] ∧
      ∀ error, request.plan grid = .error error →
        (∃ fault, error = .formula fault) ∨ ∃ weight, error = .weight weight := by
  constructor
  · induction borders generalizing grid request with
    | zero => exact (congrFun Except.map_id (request.plan grid)).symm
    | succ borders ih =>
        rw [Function.iterate_succ_apply, Function.iterate_succ_apply,
          ih (Grid.inside_padded hs) (Grid.inside_padded hg), plan_shifted hs hg]
        cases request.plan grid with
        | error error => rfl
        | ok plan => rfl
  · intro error h
    cases hc : request.compile with
    | error refused =>
        cases (plan_of_compile_error hc).symm.trans h
        exact PriorityRule.compile_error_cases hc
    | ok formula =>
        obtain ⟨outcome, _, hplan⟩ := plan_of_compile hs hg hc
        cases hplan.symm.trans h

/-- Along the alley by a preset whose weight is not accepted. -/
def underweight : Request :=
  { through ⟨1, 2⟩ with priority := .preset (.weighted (-1)) }

/-- Two borders around the alley move its path by two rows and two columns. A weight that is not
accepted is refused behind them as well. -/
theorem plan_padded_alley :
    ((Request.shifted^[2] (through ⟨1, 2⟩)).plan (Grid.padded^[2] alley)).map Plan.path =
        .ok [⟨2, 2⟩, ⟨2, 3⟩, ⟨2, 4⟩, ⟨3, 4⟩] ∧
      (Request.shifted^[2] underweight).plan (Grid.padded^[2] alley) = .error (.weight (-1)) := by
  refine ⟨?_, ?_⟩
  · rw [(@plan_padded alley (through ⟨1, 2⟩) (by decide) (by decide) 2).1]
    rfl
  · rw [(@plan_padded alley underweight (by decide) (by decide) 2).1]
    rfl

end Wayfinding
