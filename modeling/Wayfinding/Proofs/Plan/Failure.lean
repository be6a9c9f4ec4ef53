import Wayfinding.Proofs.Grid.Border
import Wayfinding.Proofs.Grid.Tables
import Wayfinding.Proofs.Plan.Routes
import Wayfinding.Proofs.Search.Escape

/-!
# Requests that fail

* `Request.Refused` lists what is refused about a request: its priority, then its start, then its
  goal.
* `Request.planChecked` answers a request with nothing left out that could go wrong on the way: the
  border is built by copying, every number and every table is checked where it is used, a coordinate
  is asked for only of a grid with rows, and one that would fall below zero stops the search.
* `planChecked_eq`: none of these checks ever fails. What is refused is refused before the search,
  and nothing else fails (`plan_error_iff_refused`).
-/

namespace Wayfinding

variable {grid : Grid} {request : Request} {metric : Metric} {error : Error}

/-! ## 1. What is refused -/

/-- Why a priority does not compile. The formula of a preset is read strictly. -/
inductive PriorityRule.Refused (policy : Policy) : PriorityRule → Error → Prop where
  | weight {weight : Float} (h : weight.isFinite = false ∨ weight < 0) :
      Refused policy (.preset (.weighted weight)) (.weight weight)
  | preset {preset : Preset} {source : String} {fault : Fault} (hs : preset.formula = .ok source)
      (hf : Formula.readStrict source = .error fault) :
      Refused policy (.preset preset) (.formula fault)
  | formula {source : String} {fault : Fault} (hf : Formula.read policy source = .error fault) :
      Refused policy (.formula source) (.formula fault)

/-- What is wrong with a request. An end is looked at only if the priority compiles, the goal only
if the start lies in the grid. -/
inductive Request.Refused (request : Request) (grid : Grid) : Error → Prop where
  | priority {error : Error} (hp : request.priority.Refused request.policy error) :
      Refused request grid error
  | start (hp : ∀ error, ¬ request.priority.Refused request.policy error)
      (hs : ¬ grid.Inside request.start) :
      Refused request grid (.cell .start request.start grid.height grid.width)
  | goal (hp : ∀ error, ¬ request.priority.Refused request.policy error)
      (hs : grid.Inside request.start) (hg : ¬ grid.Inside request.goal) :
      Refused request grid (.cell .goal request.goal grid.height grid.width)

/-- The errors of a search whose input is invalid, and of a lookup that is out of range. -/
inductive Error.IsInternal : Error → Prop where
  | index (endpoint : Endpoint) (i size : Nat) : IsInternal (.index endpoint i size)
  | tableSize (table : Table) (expected actual : Nat) :
      IsInternal (.tableSize table expected actual)
  | escape (cell : Nat) (offset : Int) (size : Nat) : IsInternal (.escape cell offset size)
  | lookup (i size : Nat) : IsInternal (.lookup i size)
  | noRows : IsInternal .noRows

variable {policy : Policy} {rule : PriorityRule}

/-- A preset has no formula for a weight that is not finite or negative, and only then. -/
theorem Preset.formula_eq_error_iff {preset : Preset} :
    preset.formula = .error error ↔ ∃ weight, preset = .weighted weight ∧
      error = .weight weight ∧ (weight.isFinite = false ∨ weight < 0) := by
  cases preset with
  | weighted weight =>
      have hbad : (!weight.isFinite || decide (weight < 0)) = true ↔
          weight.isFinite = false ∨ weight < 0 := by
        rw [Bool.or_eq_true, Bool.not_eq_true', decide_eq_true_eq]
      simp only [formula, weighted.injEq, exists_eq_left', ← hbad]
      by_cases h : (!weight.isFinite || decide (weight < 0)) = true
      · simp only [h, if_true, and_true, Except.error.injEq, eq_comm]
      · simp only [h, if_false, and_false, reduceCtorEq]
  | aStar => simp [formula]
  | greedy => simp [formula]
  | dijkstra => simp [formula]

theorem PriorityRule.compile_preset {preset : Preset} {source : String}
    (hs : preset.formula = .ok source) :
    (PriorityRule.preset preset).compile policy =
      (Formula.readStrict source).mapError .formula := by
  simp only [compile, hs]
  rfl

/-- A priority that is refused does not compile. -/
theorem PriorityRule.compile_of_refused (h : rule.Refused policy error) :
    rule.compile policy = .error error := by
  cases h with
  | weight hbad =>
      simp only [compile, Preset.formula_eq_error_iff.mpr ⟨_, rfl, rfl, hbad⟩]
      rfl
  | preset hs hf =>
      rw [compile_preset hs, hf]
      rfl
  | formula hf =>
      simp only [compile, hf]
      rfl

/-- **A priority does not compile exactly for what is refused about it.** -/
theorem PriorityRule.compile_eq_error_iff :
    rule.compile policy = .error error ↔ rule.Refused policy error := by
  constructor
  · intro h
    have hfault {read : Except Fault Formula} (h : read.mapError .formula = .error error) :
        ∃ fault, read = .error fault ∧ error = .formula fault := by
      cases read with
      | error fault =>
          cases h
          exact ⟨fault, rfl, rfl⟩
      | ok formula => cases h
    cases rule with
    | preset preset =>
        cases hsource : preset.formula with
        | error refused =>
            obtain ⟨weight, rfl, rfl, hbad⟩ := Preset.formula_eq_error_iff.mp hsource
            simp only [compile, hsource] at h
            cases h
            exact .weight hbad
        | ok source =>
            obtain ⟨fault, hf, rfl⟩ := hfault ((compile_preset hsource).symm.trans h)
            exact .preset hsource hf
    | formula source =>
        obtain ⟨fault, hf, rfl⟩ := hfault h
        exact .formula hf
  · exact compile_of_refused

theorem PriorityRule.Refused.not_isInternal (h : rule.Refused policy error) :
    ¬ error.IsInternal := by
  intro hinternal
  cases h with
  | weight _ => cases hinternal
  | preset _ _ => cases hinternal
  | formula _ => cases hinternal

theorem Grid.locatePadded_of_not_inside {cell : Cell} (endpoint : Endpoint)
    (h : ¬ grid.Inside cell) :
    grid.locatePadded endpoint cell = .error (.cell endpoint cell grid.height grid.width) :=
  dif_neg h

namespace Request

/-- A priority of which nothing is refused compiles. -/
theorem exists_compile (h : ∀ error, ¬ request.priority.Refused request.policy error) :
    ∃ formula, request.compile = .ok formula := by
  cases hc : request.compile with
  | error error => exact absurd (PriorityRule.compile_eq_error_iff.mp hc) (h error)
  | ok formula => exact ⟨formula, rfl⟩

theorem not_refused_of_compile {formula : Formula} (h : request.compile = .ok formula)
    (error : Error) : ¬ request.priority.Refused request.policy error := by
  intro hp
  cases h.symm.trans (PriorityRule.compile_of_refused hp)

/-- A request that is refused fails, for the first thing that is wrong with it. -/
theorem plan_of_refused (h : request.Refused grid error) : request.plan grid = .error error := by
  cases h with
  | priority hp => exact plan_of_compile_error (PriorityRule.compile_of_refused hp)
  | start hp hs =>
      obtain ⟨formula, hc⟩ := exists_compile hp
      unfold plan
      rw [hc, Grid.locatePadded_of_not_inside .start hs]
      rfl
  | goal hp hs hg =>
      obtain ⟨formula, hc⟩ := exists_compile hp
      unfold plan
      rw [hc, Grid.locatePadded_of_inside .start hs, Grid.locatePadded_of_not_inside .goal hg]
      rfl

/-- **A request that is not refused has a plan.** -/
theorem exists_plan_or_refused (request : Request) (grid : Grid) :
    (∃ plan, request.plan grid = .ok plan) ∨ ∃ error, request.Refused grid error := by
  cases hc : request.compile with
  | error error => exact Or.inr ⟨error, .priority (PriorityRule.compile_eq_error_iff.mp hc)⟩
  | ok formula =>
      have hp := not_refused_of_compile hc
      by_cases hs : grid.Inside request.start
      · by_cases hg : grid.Inside request.goal
        · obtain ⟨outcome, _, hplan⟩ := plan_of_compile hs hg hc
          exact Or.inl ⟨_, hplan⟩
        · exact Or.inr ⟨_, .goal hp hs hg⟩
      · exact Or.inr ⟨_, .start hp hs⟩

/-- **A request fails exactly for what is refused about it.** -/
theorem plan_eq_error_iff : request.plan grid = .error error ↔ request.Refused grid error := by
  constructor
  · intro h
    obtain ⟨plan, hplan⟩ | ⟨refused, hrefused⟩ := exists_plan_or_refused request grid
    · cases hplan.symm.trans h
    · cases (plan_of_refused hrefused).symm.trans h
      exact hrefused
  · exact plan_of_refused

theorem Refused.not_isInternal (h : request.Refused grid error) : ¬ error.IsInternal := by
  intro hinternal
  cases h with
  | priority hp => exact hp.not_isInternal hinternal
  | start _ _ => cases hinternal
  | goal _ _ _ => cases hinternal

end Request

/-! ## 2. Requests answered with every check -/

/-- Why a request is not answered: it is refused, or a coordinate would fall below zero. -/
inductive Halt where
  | refused (error : Error)
  | belowZero (cell : Cell)

/-- A check that ends the answer if it fails. -/
def checked {α : Type} (check : Except Error α) : Except Halt α :=
  check.mapError .refused

/-- The cell one row and one column before, if there is one. -/
def Cell.unshifted? (cell : Cell) : Except Halt Cell :=
  if 0 < cell.row ∧ 0 < cell.col then .ok cell.unshifted else .error (.belowZero cell)

/-- The number in the padded grid of a cell that is looked up in both grids. -/
def Grid.locateShifted (grid padded : Grid) (endpoint : Endpoint) (cell : Cell) :
    Except Error (Fin padded.size) := do
  let _ ← grid.locate endpoint cell
  padded.locate endpoint cell.shifted

/-- The cells of the grid that a route of the padded grid leads over. -/
def Route.cellsChecked {padded : Grid} (route : Route padded.size) : Except Halt (List Cell) :=
  route.cells.mapM fun (i : Fin padded.size) => do
    let cell ← checked (padded.cellAt? i)
    cell.unshifted?

/-- Answers a request, checking all that could go wrong on the way. -/
def Request.planChecked (request : Request) (grid : Grid) : Except Halt Plan := do
  let formula ← checked request.compile
  let padded ← checked grid.copiedPadded
  let start ← checked (grid.locateShifted padded .start request.start)
  let goal ← checked (grid.locateShifted padded .goal request.goal)
  let estimates ← checked (request.metric.tableChecked padded goal)
  let outcome ← checked (padded.search (request.neighbourhood.offsets padded.height) start goal
    estimates.toArray formula)
  let path ← match outcome.route with
    | none => .ok []
    | some route => route.cellsChecked
  .ok
    { preset := request.priority.preset?
      formula := formula
      neighbourhood := request.neighbourhood
      metric := request.metric
      start := request.start
      goal := request.goal
      cost := outcome.route.map Route.cost
      expanded := outcome.expanded
      stale := outcome.stale
      path := path }

theorem checked_ok_bind {α β : Type} (a : α) (next : α → Except Halt β) :
    checked (.ok a) >>= next = next a :=
  rfl

theorem checked_error_bind {α β : Type} (error : Error) (next : α → Except Halt β) :
    checked (.error error) >>= next = .error (.refused error) :=
  rfl

/-- A cell that is looked up in the grid is found in the padded grid. -/
theorem Grid.locateShifted_padded (grid : Grid) (endpoint : Endpoint) (cell : Cell) :
    grid.locateShifted grid.padded endpoint cell = grid.locatePadded endpoint cell := by
  unfold locateShifted locatePadded locate
  by_cases h : grid.Inside cell
  · rw [dif_pos h, dif_pos h, dif_pos (inside_padded h)]
    rfl
  · rw [dif_neg h, dif_neg h]
    rfl

/-- The cells of a route over spots are found, and no coordinate falls below zero. -/
theorem Route.cellsChecked_eq {route : Route grid.padded.size}
    (h : ∀ i ∈ route.cells, ∃ (cell : Cell) (hc : grid.Inside cell), i = grid.spot cell hc) :
    route.cellsChecked = .ok (route.cells.map grid.unspot) := by
  unfold cellsChecked
  refine mapM_eq_ok fun i hi => ?_
  obtain ⟨cell, hc, rfl⟩ := h i hi
  rw [Grid.cellAt?_of_rows (Nat.succ_pos _), Grid.cellAt_spot, Grid.unspot_spot]
  show cell.shifted.unshifted? = _
  exact if_pos ⟨Nat.succ_pos _, Nat.succ_pos _⟩

/-- The search of a request passes the checks of its input. -/
theorem Request.search_problem {formula : Formula} (hs : grid.Inside request.start)
    (hg : grid.Inside request.goal) :
    grid.padded.search (request.neighbourhood.offsets grid.padded.height)
        (grid.spot request.start hs) (grid.spot request.goal hg)
        (request.metric.table grid.padded (grid.spot request.goal hg)).toList.toArray formula =
      (request.problem grid formula hs hg).solve :=
  Grid.search_eq_solve (Fin.isLt _) (Fin.isLt _)
    (Vector.size_toArray (request.metric.table grid.padded (grid.spot request.goal hg)))

/-- **No check on the way ever fails**: a request is answered with all of them as without. -/
theorem planChecked_eq (request : Request) (grid : Grid) :
    request.planChecked grid = checked (request.plan grid) := by
  unfold Request.planChecked
  simp only [Grid.copiedPadded_eq, checked_ok_bind, Grid.locateShifted_padded]
  cases hc : request.compile with
  | error error =>
      rw [plan_of_compile_error hc]
      rfl
  | ok formula =>
      rw [checked_ok_bind]
      by_cases hs : grid.Inside request.start
      · rw [Grid.locatePadded_of_inside .start hs, checked_ok_bind]
        by_cases hg : grid.Inside request.goal
        · obtain ⟨outcome, hsolve, hplan⟩ := plan_of_compile hs hg hc
          rw [Grid.locatePadded_of_inside .goal hg, checked_ok_bind,
            Metric.tableChecked_of_rows (Nat.succ_pos _), checked_ok_bind,
            Request.search_problem hs hg, hsolve, checked_ok_bind, hplan]
          cases hroute : outcome.route with
          | none =>
              simp only [Request.report, hroute]
              rfl
          | some route =>
              have hpath : route.cellsChecked = .ok (route.cells.map grid.unspot) :=
                Route.cellsChecked_eq fun i hi =>
                  exists_cell_of_reachable ((Problem.solve_isRoute hsolve hroute).mem_reachable hi)
              simp only [hpath, Request.report, hroute]
              rfl
        · rw [Grid.locatePadded_of_not_inside .goal hg, checked_error_bind,
            Request.plan_of_refused (.goal (Request.not_refused_of_compile hc) hs hg)]
          rfl
      · rw [Grid.locatePadded_of_not_inside .start hs, checked_error_bind,
          Request.plan_of_refused (.start (Request.not_refused_of_compile hc) hs)]
        rfl

/-! ## 3. Requests that fail -/

/-- **When a request fails.** It fails exactly for what is refused about it, the priority before the
start and the start before the goal, and has a plan otherwise. The search that it leads to is never
at fault: with every lookup, move and coordinate checked the answer is the same. -/
theorem plan_error_iff_refused (request : Request) (grid : Grid) :
    (∀ error, request.plan grid = .error error ↔ request.Refused grid error) ∧
    ((∃ plan, request.plan grid = .ok plan) ↔ ∀ error, ¬ request.Refused grid error) ∧
    (∀ error, request.plan grid = .error error → ¬ error.IsInternal) ∧
    request.planChecked grid = checked (request.plan grid) := by
  refine ⟨fun _ => Request.plan_eq_error_iff, ⟨fun h error hrefused => ?_, fun h => ?_⟩,
    fun error h => (Request.plan_eq_error_iff.mp h).not_isInternal, planChecked_eq request grid⟩
  · obtain ⟨plan, hplan⟩ := h
    cases hplan.symm.trans (Request.plan_of_refused hrefused)
  · obtain hplan | ⟨error, hrefused⟩ := request.exists_plan_or_refused grid
    · exact hplan
    · exact absurd hrefused (h error)

/-- A grid without rows and columns. -/
def nowhere : Grid :=
  ⟨0, 0, #v[]⟩

/-- A grid without cells refuses the start. The alley refuses a goal below it, but after a weight
that is not accepted. From the obstacle on its first cell there is a plan. -/
theorem refused_nowhere :
    (through ⟨1, 2⟩).plan nowhere = .error (.cell .start ⟨0, 0⟩ 0 0) ∧
      (through ⟨2, 0⟩).plan alley = .error (.cell .goal ⟨2, 0⟩ 2 3) ∧
      ({ through ⟨2, 0⟩ with priority := .preset (.weighted (-1)) } : Request).plan alley =
        .error (.weight (-1)) ∧
      ∃ plan, (through ⟨1, 2⟩).plan alley = .ok plan := by
  have hp (goal : Cell) (error : Error) :
      ¬ (through goal).priority.Refused (through goal).policy error := by
    have hcompile : ∃ formula, (through goal).compile = .ok formula := ⟨_, rfl⟩
    obtain ⟨formula, hc⟩ := hcompile
    exact Request.not_refused_of_compile hc error
  obtain ⟨hstart, _⟩ := plan_error_iff_refused (through ⟨1, 2⟩) nowhere
  obtain ⟨hgoal, _⟩ := plan_error_iff_refused (through ⟨2, 0⟩) alley
  obtain ⟨hweight, _⟩ := plan_error_iff_refused
    { through ⟨2, 0⟩ with priority := .preset (.weighted (-1)) } alley
  obtain ⟨_, hok, _⟩ := plan_error_iff_refused (through ⟨1, 2⟩) alley
  refine ⟨(hstart _).mpr (.start (hp _) (by decide)),
    (hgoal _).mpr (.goal (hp _) (by decide) (by decide)),
    (hweight _).mpr (.priority (.weight (Or.inr (by decide)))), hok.mpr fun error h => ?_⟩
  cases h with
  | priority h => exact hp _ error h
  | start _ hout => exact hout (by decide)
  | goal _ _ hout => exact hout (by decide)

end Wayfinding
