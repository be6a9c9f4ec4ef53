import Wayfinding.Proofs.Grid.Moves
import Wayfinding.Proofs.Search.Completeness

/-!
# The search of a request

* `Request.problem` is the search that a request leads to. It never fails (`exists_solve_problem`),
  so a request between two cells of the grid whose priority compiles has a plan (`plan_of_compile`),
  and every plan comes about in this way (`plan_ok_cases`).
* A priority does not compile for a fault in its formula or for its weight only
  (`PriorityRule.compile_error_cases`).
* The search reaches the spots of the cells that the steps of the grid lead to
  (`spot_mem_reachable_iff`).
-/

namespace Wayfinding

variable {grid : Grid} {request : Request} {formula : Formula}

/-! ## 1. The search -/

/-- The search for a request between two cells of the grid. -/
def Request.problem (request : Request) (grid : Grid) (formula : Formula)
    (hs : grid.Inside request.start) (hg : grid.Inside request.goal) :
    Problem grid.padded.size where
  blocked := grid.padded.blocked
  offsets := request.neighbourhood.offsets grid.padded.height
  estimates := request.metric.table grid.padded (grid.spot request.goal hg)
  priority := formula.priority
  start := grid.spot request.start hs
  goal := grid.spot request.goal hg

/-- In how many moves on the grid the goal can be reached from the start, every cell after the start
being open. -/
def Request.lengths (request : Request) (grid : Grid) : Set Nat :=
  {moves | Walk (grid.Step request.neighbourhood) request.start moves request.goal}

section Problem

variable {hs : grid.Inside request.start} {hg : grid.Inside request.goal}

/-- What is reached on the padded grid are cells of the grid. -/
theorem exists_cell_of_reachable {i : Fin grid.padded.size}
    (h : i ∈ (request.problem grid formula hs hg).reachable) :
    ∃ (cell : Cell) (hc : grid.Inside cell), i = grid.spot cell hc := by
  obtain ⟨_, hwalk⟩ := reflTransGen_iff_exists_walk.mp h
  obtain ⟨cell, hc, hi, _⟩ := Grid.exists_cell_of_walk hs hwalk
  exact ⟨cell, hc, hi⟩

/-- **The search of a request does not fail**: no move leaves the padded grid. -/
theorem exists_solve_problem (request : Request) (formula : Formula)
    (hs : grid.Inside request.start) (hg : grid.Inside request.goal) :
    ∃ outcome, (request.problem grid formula hs hg).solve = .ok outcome := by
  cases h : (request.problem grid formula hs hg).solve with
  | ok outcome => exact ⟨outcome, rfl⟩
  | error error =>
      obtain ⟨s, i, label, hs', hl, _, offset, ho, hnone, _⟩ := Problem.solve_error_cases h
      obtain ⟨cell, hc, rfl⟩ := exists_cell_of_reachable (hs'.reached.tree.mem_reachable hl)
      obtain ⟨direction, hd, rfl⟩ := List.mem_map.mp ho
      obtain ⟨_, _, _, hsome⟩ := Grid.moveBy_spot hc hd
      have hnone' : moveBy (grid.spot cell hc)
          (Neighbourhood.offset grid.padded.height direction) = none := hnone
      rw [hsome] at hnone'
      cases hnone'

/-- **A request between two cells of the grid whose priority compiles has a plan.** -/
theorem plan_of_compile (hs : grid.Inside request.start) (hg : grid.Inside request.goal)
    (hc : request.compile = .ok formula) :
    ∃ outcome, (request.problem grid formula hs hg).solve = .ok outcome ∧
      request.plan grid = .ok (request.report formula grid outcome) := by
  obtain ⟨outcome, hsolve⟩ := exists_solve_problem request formula hs hg
  refine ⟨outcome, hsolve, ?_⟩
  unfold Request.plan
  rw [hc, Grid.locatePadded_of_inside .start hs, Grid.locatePadded_of_inside .goal hg]
  show (request.problem grid formula hs hg).solve >>= _ = _
  rw [hsolve]
  rfl

/-- The search reaches the goal exactly if a walk leads to it. -/
theorem goal_mem_reachable_iff :
    (request.problem grid formula hs hg).goal ∈ (request.problem grid formula hs hg).reachable ↔
      (request.lengths grid).Nonempty := by
  constructor
  · intro h
    obtain ⟨moves, hwalk⟩ := reflTransGen_iff_exists_walk.mp h
    exact ⟨moves, (Grid.walk_spot_iff hs hg).mp hwalk⟩
  · rintro ⟨moves, hwalk⟩
    exact reflTransGen_iff_exists_walk.mpr ⟨moves, (Grid.walk_spot_iff hs hg).mpr hwalk⟩

/-- **The search reaches the spots of the cells that the steps of the grid lead to.** -/
theorem spot_mem_reachable_iff {cell : Cell} (hc : grid.Inside cell) :
    grid.spot cell hc ∈ (request.problem grid formula hs hg).reachable ↔
      cell ∈ grid.reachable request.neighbourhood request.start := by
  constructor
  · intro h
    obtain ⟨_, hwalk⟩ := reflTransGen_iff_exists_walk.mp h
    exact ((Grid.walk_spot_iff hs hc).mp hwalk).reflTransGen
  · intro h
    obtain ⟨_, hwalk⟩ := reflTransGen_iff_exists_walk.mp h
    exact ((Grid.walk_spot_iff hs hc).mpr hwalk).reflTransGen

/-- As many spots are reached as cells. -/
theorem encard_reachable (request : Request) (formula : Formula) (hs : grid.Inside request.start)
    (hg : grid.Inside request.goal) :
    (request.problem grid formula hs hg).reachable.encard =
      (grid.reachable request.neighbourhood request.start).encard := by
  have himage : grid.reachable request.neighbourhood request.start =
      grid.unspot '' (request.problem grid formula hs hg).reachable := by
    ext cell
    constructor
    · intro h
      have hc : grid.Inside cell := Grid.inside_of_mem_reachable hs h
      exact ⟨grid.spot cell hc, (spot_mem_reachable_iff hc).mpr h, Grid.unspot_spot hc⟩
    · intro h
      obtain ⟨i, hi, hcell⟩ := h
      obtain ⟨b, hb, rfl⟩ := exists_cell_of_reachable hi
      rw [Grid.unspot_spot] at hcell
      rw [← hcell]
      exact (spot_mem_reachable_iff hb).mp hi
  rw [himage, Set.InjOn.encard_image]
  exact Grid.unspot_injOn.mono fun i hi => exists_cell_of_reachable hi

end Problem

/-! ## 2. Priorities that do not compile -/

/-- A preset has a formula unless its weight is negative, infinite or no number. -/
theorem Preset.exists_weight_of_error {preset : Preset} {error : Error}
    (h : preset.formula = .error error) : ∃ weight, error = .weight weight := by
  cases preset with
  | weighted weight =>
      simp only [formula] at h
      split at h
      · cases h
        exact ⟨weight, rfl⟩
      · cases h
  | aStar => cases h
  | greedy => cases h
  | dijkstra => cases h

/-- **A priority does not compile** for a fault in its formula or for its weight only. -/
theorem PriorityRule.compile_error_cases {policy : Policy} {rule : PriorityRule} {error : Error}
    (h : rule.compile policy = .error error) :
    (∃ fault, error = .formula fault) ∨ ∃ weight, error = .weight weight := by
  have hread {read : Except Fault Formula} (h : read.mapError .formula = .error error) :
      ∃ fault, error = .formula fault := by
    cases read with
    | error fault =>
        cases h
        exact ⟨fault, rfl⟩
    | ok formula => cases h
  cases rule with
  | preset preset =>
      cases hsource : preset.formula with
      | error refused =>
          simp only [compile, hsource] at h
          cases h
          exact Or.inr (Preset.exists_weight_of_error hsource)
      | ok source =>
          simp only [compile, hsource] at h
          exact Or.inl (hread h)
  | formula source => exact Or.inl (hread h)

/-! ## 3. Plans -/

/-- A request whose priority does not compile fails before its cells are looked at. -/
theorem plan_of_compile_error {error : Error} (h : request.compile = .error error) :
    request.plan grid = .error error := by
  unfold Request.plan
  rw [h]
  rfl

/-- **Every plan comes from a search**: the priority compiles, both ends lie in the grid, and the
plan reports what the search found. -/
theorem plan_ok_cases {plan : Plan} (h : request.plan grid = .ok plan) :
    ∃ (formula : Formula) (hs : grid.Inside request.start) (hg : grid.Inside request.goal)
      (outcome : Outcome grid.padded.size),
      request.compile = .ok formula ∧
      (request.problem grid formula hs hg).solve = .ok outcome ∧
      plan = request.report formula grid outcome := by
  cases hc : request.compile with
  | error error => cases (plan_of_compile_error hc).symm.trans h
  | ok formula =>
      unfold Request.plan Grid.locatePadded at h
      by_cases hs : grid.Inside request.start
      · by_cases hg : grid.Inside request.goal
        · obtain ⟨outcome, hsolve, hplan⟩ := plan_of_compile hs hg hc
          refine ⟨formula, hs, hg, outcome, rfl, hsolve, ?_⟩
          unfold Request.plan Grid.locatePadded at hplan
          exact Except.ok.inj (h.symm.trans hplan)
        · rw [hc, dif_pos hs, dif_neg hg] at h
          cases h
      · rw [hc, dif_neg hs] at h
        cases h

end Wayfinding
