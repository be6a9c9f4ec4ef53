import Wayfinding.Proofs.Grid.Estimates
import Wayfinding.Proofs.Plan.Search
import Wayfinding.Proofs.Search.CostBound

/-!
# The cost of a plan

* A linear formula guides the search of a request (`guided_problem`), and the presets A* and
  weighted A* compile to linear formulas (`compile_aStar`, `compile_weighted`).
* `plan_cost`: so the cost of a plan is the least number of moves on the grid, or bounded by it.
-/

namespace Wayfinding

variable {grid : Grid} {request : Request} {formula : Formula}

/-! ## 1. Guided searches -/

section Problem

variable {hs : grid.Inside request.start} {hg : grid.Inside request.goal}

/-- No estimate is greater than the number of cells. -/
theorem estimates_le (request : Request) (formula : Formula) (hs : grid.Inside request.start)
    (hg : grid.Inside request.goal) (i : Fin grid.padded.size) :
    (request.problem grid formula hs hg).estimates.get i ≤ grid.padded.size := by
  have hle := request.metric.table_le grid.padded (grid.spot request.goal hg) i
  have hheight : 2 ≤ grid.padded.height := Nat.le_add_left 2 grid.height
  have hwidth : 2 ≤ grid.padded.width := Nat.le_add_left 2 grid.width
  exact hle.trans (Nat.add_le_mul hheight hwidth)

/-- **A linear formula guides the search of a request**, as far as its values stay exact. -/
theorem guided_problem {k : Nat} (h : formula.IsLinear k)
    (hsize : (k + 1) * grid.padded.size ≤ 2 ^ 53) :
    (request.problem grid formula hs hg).Guided k
      (Metric.drop request.neighbourhood request.metric) := by
  have hone : grid.padded.size ≤ (k + 1) * grid.padded.size :=
    Nat.le_mul_of_pos_left _ (Nat.succ_pos k)
  refine h.guided rfl (fun i => ?_) (fun i => ?_) fun a b ha hab => ?_
  · exact ((estimates_le request formula hs hg i).trans (hone.trans hsize)).trans_lt (by decide)
  · have hmul := Nat.mul_le_mul_left k (estimates_le request formula hs hg i)
    rw [Nat.add_mul, Nat.one_mul] at hsize
    omega
  · obtain ⟨cell, hc, rfl⟩ := exists_cell_of_reachable ha
    obtain ⟨next, hn, hstep, rfl⟩ := (Grid.legalMove_spot_iff hc).mp hab
    show (request.metric.table grid.padded _).get (grid.spot cell hc) ≤
      (request.metric.table grid.padded _).get (grid.spot next hn) + _
    rw [Metric.table_spot hc hg, Metric.table_spot hn hg]
    exact Metric.distance_le_of_adjacent hstep.1 request.goal

end Problem

/-! ## 2. Presets -/

/-- **A* compiles to a linear formula.** -/
theorem compile_aStar (h : request.priority = .preset .aStar) :
    ∃ formula, request.compile = .ok formula ∧ formula.IsLinear 1 := by
  have hread : Formula.read .strict "G+H" = .ok ⟨"G+H", .binary .add .travelled .estimate⟩ := by rfl
  refine ⟨⟨"G+H", .binary .add .travelled .estimate⟩, ?_, isLinear_sum hread⟩
  unfold Request.compile
  rw [h]
  rfl

/-- The text of a whole weight is that of a linear formula. -/
theorem formula_weighted {w : Nat} (hw : w ≤ 2 ^ 53) :
    (Preset.weighted w.toFloat).formula =
      .ok (String.ofList ('G' :: '+' :: Layout.plain.write w.toFloat ++ ['*', 'H'])) := by
  have hfinite : w.toFloat.isFinite = true := (denotes_toFloat hw).isFinite.1
  have hneg : ¬ w.toFloat < 0 := by
    intro h
    have hlt : w < 0 := (toFloat_lt_iff hw (Nat.zero_le _)).mp h
    exact Nat.not_lt_zero w hlt
  unfold Preset.formula
  dsimp only
  rw [hfinite, decide_eq_false hneg]
  rfl

/-- **Weighted A* with a whole weight compiles to a linear formula.** -/
theorem compile_weighted {w : Nat} (hw : w ≤ 2 ^ 53)
    (h : request.priority = .preset (.weighted w.toFloat)) :
    ∃ formula, request.compile = .ok formula ∧ formula.IsLinear w := by
  obtain ⟨formula, hread, htree⟩ : ∃ formula, Formula.readStrict
      (String.ofList ('G' :: '+' :: Layout.plain.write w.toFloat ++ ['*', 'H'])) = .ok formula ∧
        formula.tree = .linear w.toFloat :=
    ⟨_, read_linear (isLiteral_write (denotes_toFloat hw).isFinite.1 (isNegative_toFloat hw)) .strict,
      rfl⟩
  refine ⟨formula, ?_, isLinear_of_tree hw htree⟩
  unfold Request.compile PriorityRule.compile
  rw [h]
  dsimp only
  rw [formula_weighted hw]
  show (Formula.readStrict _).mapError Error.formula = _
  rw [hread]
  rfl

/-! ## 3. The cost of a plan -/

/-- **A plan by a linear formula.** It has no cost exactly if no walk leads to the goal; otherwise
its cost is the length of a walk, and each walk bounds it. -/
theorem plan_of_linear {k : Nat} (hs : grid.Inside request.start) (hg : grid.Inside request.goal)
    (hsize : (k + 1) * grid.padded.size ≤ 2 ^ 53) (hc : request.compile = .ok formula)
    (h : formula.IsLinear k) :
    ∃ plan, request.plan grid = .ok plan ∧ (plan.cost = none ↔ request.lengths grid = ∅) ∧
      ∀ cost, plan.cost = some cost → cost ∈ request.lengths grid ∧
        ∀ moves ∈ request.lengths grid,
          cost ≤ max 1 (k * Metric.drop request.neighbourhood request.metric) * moves := by
  obtain ⟨outcome, hsolve, hplan⟩ := plan_of_compile hs hg hc
  have hcost : (request.report formula grid outcome).cost = outcome.route.map Route.cost := rfl
  refine ⟨_, hplan, ?_, fun cost hsome => ?_⟩
  · rw [hcost, Option.map_eq_none_iff, ← Option.not_isSome_iff_eq_none,
      Problem.solve_isSome_iff hsolve, goal_mem_reachable_iff, Set.not_nonempty_iff_eq_empty]
  · rw [hcost, Option.map_eq_some_iff] at hsome
    obtain ⟨route, hroute, rfl⟩ := hsome
    obtain ⟨hwalk, hall⟩ := Problem.solve_cost_le (guided_problem h hsize) hsolve hroute
    exact ⟨(Grid.walk_spot_iff hs hg).mp hwalk,
      fun moves hm => hall moves ((Grid.walk_spot_iff hs hg).mpr hm)⟩

/-- A length that no other one is below is the least one. -/
theorem eq_some_iff_isLeast {lengths : Set Nat} {cost? : Option Nat}
    (hnone : cost? = none ↔ lengths = ∅)
    (hsome : ∀ cost, cost? = some cost → cost ∈ lengths ∧ ∀ moves ∈ lengths, cost ≤ moves)
    (least : Nat) : cost? = some least ↔ IsLeast lengths least := by
  constructor
  · intro h
    obtain ⟨hmem, hall⟩ := hsome least h
    exact ⟨hmem, hall⟩
  · intro hleast
    cases h : cost? with
    | none =>
        have hempty := hnone.mp h
        exact absurd (hempty ▸ hleast.1) (Set.notMem_empty least)
    | some cost =>
        obtain ⟨hmem, hall⟩ := hsome cost h
        exact congrArg some (Nat.le_antisymm (hall least hleast.1) (hleast.2 hmem))

/-- A* reaches every goal that can be reached, in the least number of moves unless corners are
measured by the Manhattan distance, and never in more than twice that number. -/
theorem plan_aStar (hsize : grid.padded.size < 2 ^ 40) (hs : grid.Inside request.start)
    (hg : grid.Inside request.goal) (hp : request.priority = .preset .aStar) :
    ∃ plan, request.plan grid = .ok plan ∧ (plan.cost = none ↔ request.lengths grid = ∅) ∧
      (request.neighbourhood = .four ∨ request.metric ≠ .manhattan →
        ∀ least, plan.cost = some least ↔ IsLeast (request.lengths grid) least) ∧
      ∀ cost least, plan.cost = some cost → IsLeast (request.lengths grid) least →
        cost ≤ 2 * least := by
  obtain ⟨formula, hc, hlinear⟩ := compile_aStar hp
  obtain ⟨plan, hplan, hnone, hsome⟩ := plan_of_linear hs hg (by omega) hc hlinear
  refine ⟨plan, hplan, hnone, fun hpair least => ?_, fun cost least hcost hleast => ?_⟩
  · refine eq_some_iff_isLeast hnone (fun cost hcost => ?_) least
    rw [Metric.drop_eq_one hpair] at hsome
    obtain ⟨hmem, hall⟩ := hsome cost hcost
    exact ⟨hmem, fun moves hm => (hall moves hm).trans_eq (Nat.one_mul moves)⟩
  · have hle := (hsome cost hcost).2 least hleast.1
    have hfactor : max 1 (1 * Metric.drop request.neighbourhood request.metric) ≤ 2 := by
      rw [Nat.one_mul]
      exact Nat.max_le.mpr ⟨by decide, Metric.drop_le_two⟩
    exact hle.trans (Nat.mul_le_mul_right least hfactor)

/-- Weighted A* reaches every goal that can be reached, at no more than the weight for each move of
a shortest walk. -/
theorem plan_weighted {weight : Nat} (hsize : grid.padded.size < 2 ^ 40)
    (hs : grid.Inside request.start) (hg : grid.Inside request.goal) (hlo : 1 ≤ weight)
    (hhi : weight ≤ 1000) (hp : request.priority = .preset (.weighted weight.toFloat)) :
    ∃ plan, request.plan grid = .ok plan ∧ (plan.cost = none ↔ request.lengths grid = ∅) ∧
      (request.neighbourhood = .four ∨ request.metric ≠ .manhattan →
        ∀ cost least, plan.cost = some cost → IsLeast (request.lengths grid) least →
          cost ≤ weight * least) := by
  obtain ⟨formula, hc, hlinear⟩ := compile_weighted (hhi.trans (by decide)) hp
  have hfit : (weight + 1) * grid.padded.size ≤ 2 ^ 53 := by
    calc (weight + 1) * grid.padded.size ≤ 1001 * 2 ^ 40 :=
          Nat.mul_le_mul (Nat.succ_le_succ hhi) hsize.le
      _ ≤ 2 ^ 53 := by decide
  obtain ⟨plan, hplan, hnone, hsome⟩ := plan_of_linear hs hg hfit hc hlinear
  refine ⟨plan, hplan, hnone, fun hpair cost least hcost hleast => ?_⟩
  have hle := (hsome cost hcost).2 least hleast.1
  rw [Metric.drop_eq_one hpair, Nat.mul_one, Nat.max_eq_right hlo] at hle
  exact hle

/-- **The cost of a plan on the grid.** Between two cells of a grid A* always has a plan: without a
cost if no walk leads to the goal, otherwise at the least number of moves, or at most twice that
when moves over corners are measured by the Manhattan distance. With a whole weight up to a thousand
the cost is at most that many times the least number. The grid has less than `2 ^ 40` cells, its
border included. -/
theorem plan_cost (hsize : grid.padded.size < 2 ^ 40) (hs : grid.Inside request.start)
    (hg : grid.Inside request.goal) :
    (request.priority = .preset .aStar →
      ∃ plan, request.plan grid = .ok plan ∧ (plan.cost = none ↔ request.lengths grid = ∅) ∧
        (request.neighbourhood = .four ∨ request.metric ≠ .manhattan →
          ∀ least, plan.cost = some least ↔ IsLeast (request.lengths grid) least) ∧
        ∀ cost least, plan.cost = some cost → IsLeast (request.lengths grid) least →
          cost ≤ 2 * least) ∧
    ∀ weight : Nat, 1 ≤ weight → weight ≤ 1000 →
      request.priority = .preset (.weighted weight.toFloat) →
      ∃ plan, request.plan grid = .ok plan ∧ (plan.cost = none ↔ request.lengths grid = ∅) ∧
        (request.neighbourhood = .four ∨ request.metric ≠ .manhattan →
          ∀ cost least, plan.cost = some cost → IsLeast (request.lengths grid) least →
            cost ≤ weight * least) :=
  ⟨plan_aStar hsize hs hg, fun _ hlo hhi hp => plan_weighted hsize hs hg hlo hhi hp⟩

/-- A grid of three rows and three columns with a wall in the middle that is open at the bottom. -/
def walled : Grid :=
  ⟨3, 3, #v[false, false, false, true, true, false, false, false, false]⟩

/-- From one side of the wall to the other. -/
def around (priority : PriorityRule) : Request where
  start := ⟨0, 0⟩
  goal := ⟨0, 2⟩
  priority := priority
  neighbourhood := .eight
  metric := .chebyshev

/-- Around the wall it takes four moves; with the weight three a plan takes at most twelve. -/
theorem plan_cost_around :
    IsLeast ((around (.preset .aStar)).lengths walled) 4 ∧
      ∃ plan, (around (.preset (.weighted (Nat.toFloat 3)))).plan walled = .ok plan ∧
        ∀ cost, plan.cost = some cost → cost ≤ 3 * 4 := by
  have hcost : ((around (.preset .aStar)).plan walled).map Plan.cost = .ok (some 4) := by rfl
  have hleast : IsLeast ((around (.preset .aStar)).lengths walled) 4 := by
    obtain ⟨plan, hplan, _, hiff, _⟩ := (@plan_cost walled (around (.preset .aStar)) (by decide)
      (by decide) (by decide)).1 rfl
    rw [hplan] at hcost
    exact (hiff (Or.inr (by decide)) 4).mp (Except.ok.inj hcost)
  obtain ⟨plan, hplan, _, hle⟩ := (@plan_cost walled (around (.preset (.weighted (Nat.toFloat 3))))
    (by decide) (by decide) (by decide)).2 3 (by decide) (by decide) rfl
  exact ⟨hleast, plan, hplan, fun cost hsome => hle (Or.inr (by decide)) cost 4 hsome hleast⟩

end Wayfinding
