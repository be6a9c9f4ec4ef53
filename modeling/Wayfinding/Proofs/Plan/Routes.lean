import Wayfinding.Proofs.Plan.Search

/-!
# Plans are routes on the grid

* `Grid.IsPath` is what the path of a plan should be, said in rows and columns of the grid that was
  asked about, without its border.
* `IsRoute.isPath`: a route over spots of the padded grid is such a path over their cells.
* `plan_ok_isPath`: so a plan has a path whenever the goal can be reached, whatever the priority, and
  otherwise it has looked at every cell that can be.
-/

namespace Wayfinding

variable {grid : Grid} {request : Request}

/-- A path over cells of the grid by moves of the neighbourhood. It has no cell twice, and every
cell after the first one is open. -/
structure Grid.IsPath (grid : Grid) (neighbourhood : Neighbourhood) (start goal : Cell)
    (cells : List Cell) : Prop where
  head : cells.head? = some start
  last : cells.getLast? = some goal
  nodup : cells.Nodup
  inside : ∀ cell ∈ cells, grid.Inside cell
  moves : cells.IsChain neighbourhood.Adjacent
  free : ∀ cell ∈ cells.tail, grid.isObstacle cell = false

/-- **A route over spots is a path over their cells.** -/
theorem IsRoute.isPath {neighbourhood : Neighbourhood} {start goal : Cell}
    {route : Route grid.padded.size} (hs : grid.Inside start) (hg : grid.Inside goal)
    (h : IsRoute grid.padded.blocked (neighbourhood.offsets grid.padded.height)
      (grid.spot start hs) (grid.spot goal hg) route) :
    grid.IsPath neighbourhood start goal (route.cells.map grid.unspot) := by
  have hspot (i : Fin grid.padded.size) (hi : i ∈ route.cells) :
      ∃ (cell : Cell) (hc : grid.Inside cell), i = grid.spot cell hc := by
    obtain ⟨_, hwalk⟩ := reflTransGen_iff_exists_walk.mp (h.mem_reachable hi)
    obtain ⟨cell, hc, hsame, _⟩ := Grid.exists_cell_of_walk hs hwalk
    exact ⟨cell, hc, hsame⟩
  have hsteps : route.cells.IsChain fun i j =>
      grid.Step neighbourhood (grid.unspot i) (grid.unspot j) := by
    refine h.isChain_legalMove.imp_of_mem_imp fun i j hi _ hm => ?_
    obtain ⟨a, ha, rfl⟩ := hspot i hi
    obtain ⟨b, hb, hstep, rfl⟩ := (Grid.legalMove_spot_iff ha).mp hm
    simpa only [Grid.unspot_spot] using hstep
  refine ⟨?_, ?_, ?_, ?_, ?_, ?_⟩
  · rw [List.head?_map, h.head, Option.map_some, Grid.unspot_spot]
  · rw [List.getLast?_map, h.last, Option.map_some, Grid.unspot_spot]
  · exact h.nodup.map_on fun i hi j hj hsame => Grid.unspot_injOn (hspot i hi) (hspot j hj) hsame
  · intro cell hc
    obtain ⟨i, hi, rfl⟩ := List.mem_map.mp hc
    obtain ⟨a, ha, rfl⟩ := hspot i hi
    rw [Grid.unspot_spot]
    exact ha
  · exact (List.isChain_map _).mpr (hsteps.imp fun _ _ hstep => hstep.1)
  · intro cell hc
    rw [← List.map_tail] at hc
    obtain ⟨i, hi, rfl⟩ := List.mem_map.mp hc
    obtain ⟨a, ha, rfl⟩ := hspot i (List.mem_of_mem_tail hi)
    rw [Grid.unspot_spot, ← Grid.blocked_spot ha]
    exact h.free _ hi

/-- **What a plan says about the grid.** Whatever the priority, a plan reaches the goal exactly if
moves of the neighbourhood over open cells lead there. Its path is then a path on the grid with as
many moves as it costs. Otherwise it has no path, and every cell that can be reached was expanded. -/
theorem plan_ok_isPath {plan : Plan} (h : request.plan grid = .ok plan) :
    (plan.solved = true ↔
      request.goal ∈ grid.reachable request.neighbourhood request.start) ∧
    (plan.solved = true → ∃ cost, plan.cost = some cost ∧ plan.path.length = cost + 1 ∧
      grid.IsPath request.neighbourhood request.start request.goal plan.path) ∧
    (plan.solved = false → plan.path = [] ∧
      (grid.reachable request.neighbourhood request.start).encard = plan.expanded) := by
  obtain ⟨formula, hs, hg, outcome, _, hsolve, rfl⟩ := plan_ok_cases h
  have hsolved : (request.report formula grid outcome).solved = outcome.route.isSome :=
    Option.isSome_map
  rw [hsolved]
  refine ⟨(Problem.solve_isSome_iff hsolve).trans (spot_mem_reachable_iff hg), fun hsome => ?_,
    fun hnone => ?_⟩
  · obtain ⟨route, hroute⟩ := Option.isSome_iff_exists.mp hsome
    have hpath : (request.report formula grid outcome).path = route.cells.map grid.unspot := by
      simp only [Request.report, hroute]
      rfl
    have hisRoute := Problem.solve_isRoute hsolve hroute
    refine ⟨route.cost, ?_, ?_, ?_⟩
    · simp only [Request.report, hroute, Option.map_some]
    · rw [hpath, List.length_map, hisRoute.length]
    · rw [hpath]
      exact hisRoute.isPath hs hg
  · have hroute : outcome.route = none := Option.not_isSome_iff_eq_none.mp (by simp [hnone])
    refine ⟨by simp only [Request.report, hroute], ?_⟩
    rw [← encard_reachable request formula hs hg,
      ← (Set.toFinite _).cast_ncard_eq, ← (Problem.solve_none hsolve hroute).2]
    rfl

/-- Two rows of three cells. There are obstacles on the first cell of the first row and in the
middle of the second row. -/
def alley : Grid :=
  ⟨2, 3, #v[true, false, false, true, false, false]⟩

/-- From the first cell of the alley to another one, by a formula that prefers detours. -/
def through (goal : Cell) : Request where
  start := ⟨0, 0⟩
  goal := goal
  priority := .formula "H-G"

/-- There is a path from the obstacle on the first cell to the last one. The other obstacle is not
reached, but five cells are. -/
theorem isPath_alley :
    (∃ plan, (through ⟨1, 2⟩).plan alley = .ok plan ∧
      alley.IsPath .four ⟨0, 0⟩ ⟨1, 2⟩ plan.path ∧ plan.path.length = 4) ∧
    ∃ plan, (through ⟨1, 1⟩).plan alley = .ok plan ∧ plan.solved = false ∧
      (alley.reachable .four ⟨0, 0⟩).encard = 5 := by
  constructor
  · have hcost : ((through ⟨1, 2⟩).plan alley).map Plan.cost = .ok (some 3) := by rfl
    obtain ⟨_, _, hplan⟩ := @plan_of_compile alley (through ⟨1, 2⟩) _ (by decide)
      (by decide) rfl
    rw [hplan] at hcost
    have hsome := Except.ok.inj hcost
    obtain ⟨_, hpath, _⟩ := plan_ok_isPath hplan
    obtain ⟨cost, hcost', hlength, hisPath⟩ := hpath (by rw [Plan.solved, hsome]; rfl)
    cases hsome.symm.trans hcost'
    exact ⟨_, hplan, hisPath, hlength⟩
  · have hexpanded : ((through ⟨1, 1⟩).plan alley).map (fun plan => (plan.solved, plan.expanded)) =
        .ok (false, 5) := by rfl
    obtain ⟨_, _, hplan⟩ := @plan_of_compile alley (through ⟨1, 1⟩) _ (by decide)
      (by decide) rfl
    rw [hplan] at hexpanded
    have hboth := Prod.mk.inj (Except.ok.inj hexpanded)
    obtain ⟨_, _, hall⟩ := plan_ok_isPath hplan
    refine ⟨_, hplan, hboth.1, ?_⟩
    exact (hall hboth.1).2.trans (congrArg Nat.cast hboth.2)

end Wayfinding
