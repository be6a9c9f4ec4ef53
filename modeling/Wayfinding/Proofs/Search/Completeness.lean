import Mathlib.Data.Set.Card
import Wayfinding.Proofs.Search.Soundness

/-!
# What a search finds

* `Problem.AtRound.settled_of_exhausted`: when nothing is left to expand, every cell that can be
  reached is settled. No order of expansion enters the argument.
* `search_ok_iff_reachable`: a search that does not fail finds the goal exactly if it can be
  reached, and expands all that can be reached if it does not find it. So neither depends on the
  formula, the estimates or the order of the offsets.
-/

namespace Wayfinding

variable {n : Nat} {problem : Problem n} {s : SearchState n}

/-! ## 1. Settled and reachable cells -/

/-- The cells that the moves of a problem lead to. -/
def Problem.reachable (problem : Problem n) : Set (Fin n) :=
  Wayfinding.reachable problem.blocked problem.offsets problem.start

namespace Problem

theorem AtRound.reachable_of_settled (h : problem.AtRound s) :
    (s.settledCells : Set (Fin n)) ⊆ problem.reachable := by
  intro cell hc
  obtain ⟨label, hl⟩ := h.reached.tree.labelled cell (SearchState.mem_settledCells.mp hc)
  exact h.reached.tree.mem_reachable hl

/-- Every labelled cell is settled when nothing is left to expand. -/
theorem Reached.settled_of_nil (h : problem.Reached s) (hf : s.frontier = []) {cell : Fin n}
    {label : Label n} (hl : s.labels.get cell = some label) : s.settled.get cell = true := by
  by_contra hc
  obtain ⟨entry, he, _⟩ := h.queue.live cell label hl (Bool.not_eq_true _ ▸ hc)
  rw [hf] at he
  exact List.not_mem_nil he

/-- **When nothing is left to expand, all that can be reached is settled.** -/
theorem AtRound.settled_of_exhausted (h : problem.AtRound s) (hf : s.dropStale.frontier = [])
    {cell : Fin n} (hc : cell ∈ problem.reachable) : s.settled.get cell = true := by
  have hr := h.reached_dropStale
  induction hc with
  | refl => exact hr.settled_of_nil hf h.reached.tree.start
  | tail _ hm ih =>
      rcases h.explored.covers ih hm with hset | ⟨_, label, _, hl, _⟩
      · exact hset
      · exact hr.settled_of_nil hf hl

variable {outcome : Outcome n}

/-- A search that finds nothing has expanded all that can be reached, and the goal is not there. -/
theorem solve_none (h : problem.solve = .ok outcome) (hr : outcome.route = none) :
    problem.goal ∉ problem.reachable ∧ outcome.expanded = problem.reachable.ncard := by
  obtain ⟨s, hs, hexp, ⟨hf, _⟩ | ⟨_, _, _, _, _, _, _, hroute⟩⟩ := solve_ok_cases h
  · have hsame : problem.reachable = (s.settledCells : Set (Fin n)) :=
      Set.Subset.antisymm
        (fun cell hc => SearchState.mem_settledCells.mpr (hs.settled_of_exhausted hf hc))
        hs.reachable_of_settled
    refine ⟨fun hg => ?_, ?_⟩
    · exact absurd (hs.reached.counts.goal.symm.trans (hs.settled_of_exhausted hf hg))
        Bool.false_ne_true
    · rw [hexp, hsame, Set.ncard_coe_finset, hs.reached.counts.expanded]
  · rw [hr] at hroute
    cases hroute

/-- A search that finds a route has expanded some of what can be reached, and not the goal. -/
theorem solve_some (h : problem.solve = .ok outcome) (hr : outcome.route ≠ none) :
    problem.goal ∈ problem.reachable ∧ outcome.expanded < problem.reachable.ncard := by
  obtain ⟨s, hs, hexp, ⟨_, hroute⟩ | ⟨_, _, label, _, _, hl, _, _⟩⟩ := solve_ok_cases h
  · exact absurd hroute hr
  · have hgoal : problem.goal ∈ problem.reachable := hs.reached.tree.mem_reachable hl
    refine ⟨hgoal, ?_⟩
    have hproper : (s.settledCells : Set (Fin n)) ⊂ problem.reachable := by
      refine ⟨hs.reachable_of_settled, fun hall => ?_⟩
      have := SearchState.mem_settledCells.mp (hall hgoal)
      exact absurd (hs.reached.counts.goal.symm.trans this) Bool.false_ne_true
    calc outcome.expanded = (s.settledCells : Set (Fin n)).ncard := by
          rw [hexp, Set.ncard_coe_finset, hs.reached.counts.expanded]
      _ < problem.reachable.ncard := Set.ncard_lt_ncard hproper

theorem solve_isSome_iff (h : problem.solve = .ok outcome) :
    outcome.route.isSome ↔ problem.goal ∈ problem.reachable := by
  rw [Option.isSome_iff_ne_none]
  exact ⟨fun hr => (solve_some h hr).1, fun hg hr => (solve_none h hr).1 hg⟩

/-- A search expands all that can be reached if the goal cannot be. -/
theorem expanded_of_unreachable (h : problem.solve = .ok outcome)
    (hg : problem.goal ∉ problem.reachable) : outcome.expanded = problem.reachable.ncard := by
  refine (solve_none h ?_).2
  rw [← Option.not_isSome_iff_eq_none, solve_isSome_iff h]
  exact hg

end Problem

/-! ## 2. Searches of a grid -/

/-- **A search finds the goal exactly if it can be reached.** Without a route every cell that can be
reached was expanded, with a route fewer. So any two searches with the same offsets in any order
agree on whether there is a route, and if not, on how many cells are expanded. -/
theorem search_ok_iff_reachable {grid : Grid} {offsets : List Int} {start goal : Nat}
    {estimates : Array Nat} {formula : Formula} {outcome : Outcome grid.size}
    (h : grid.search offsets start goal estimates formula = .ok outcome) :
    ∃ (hs : start < grid.size) (hg : goal < grid.size),
      (outcome.route.isSome ↔ ⟨goal, hg⟩ ∈ reachable grid.blocked offsets ⟨start, hs⟩) ∧
      (start = goal → outcome.route.isSome) ∧
      (outcome.route = none →
        outcome.expanded = (reachable grid.blocked offsets ⟨start, hs⟩).ncard) ∧
      (outcome.route.isSome →
        outcome.expanded ≤ (reachable grid.blocked offsets ⟨start, hs⟩).ncard - 1) ∧
      ∀ (offsets' : List Int) (estimates' : Array Nat) (formula' : Formula)
        (outcome' : Outcome grid.size), offsets'.Perm offsets →
        grid.search offsets' start goal estimates' formula' = .ok outcome' →
        (outcome'.route.isSome ↔ outcome.route.isSome) ∧
        (outcome.route = none → outcome'.expanded = outcome.expanded) := by
  obtain ⟨hs, hg, _, hsolve⟩ := Grid.search_ok h
  have hiff := Problem.solve_isSome_iff hsolve
  refine ⟨hs, hg, hiff, fun e => ?_, fun hr => (Problem.solve_none hsolve hr).2, fun hr => ?_,
    fun offsets' estimates' formula' outcome' hperm h' => ?_⟩
  · subst e
    exact hiff.mpr start_mem_reachable
  · exact Nat.le_sub_one_of_lt (Problem.solve_some hsolve (Option.isSome_iff_ne_none.mp hr)).2
  · obtain ⟨_, _, _, hsolve'⟩ := Grid.search_ok h'
    have hsame : reachable grid.blocked offsets' ⟨start, hs⟩ =
        reachable grid.blocked offsets ⟨start, hs⟩ := reachable_congr fun _ => hperm.mem_iff
    have hiff' := Problem.solve_isSome_iff hsolve'
    simp only [Problem.reachable, hsame] at hiff'
    refine ⟨hiff'.trans hiff.symm, fun hr => ?_⟩
    have hr' : outcome'.route = none := by
      rw [← Option.not_isSome_iff_eq_none, hiff'.trans hiff.symm, Option.not_isSome_iff_eq_none]
      exact hr
    rw [(Problem.solve_none hsolve' hr').2, (Problem.solve_none hsolve hr).2]
    simp only [Problem.reachable, hsame]

/-- On the lane the goal is found for any formula; without a move that leads on, nothing is. -/
theorem reachable_lane :
    lane.search [-2, -1] 5 1 #[1, 3, 1, 2, 1, 4] ⟨"H", .estimate⟩ =
        .ok ⟨some laneRoute, 4, 1⟩ ∧
      4 ≤ (reachable lane.blocked [-2, -1] ⟨5, by decide⟩).ncard - 1 ∧
      (∀ outcome, lane.search [-1, -2] 5 1 #[0, 0, 0, 0, 0, 0] ⟨"G", .travelled⟩ = .ok outcome →
        outcome.route.isSome) ∧
      lane.search [0] 5 1 #[1, 3, 1, 2, 1, 4] ⟨"H", .estimate⟩ = .ok ⟨none, 1, 0⟩ ∧
      (reachable lane.blocked [0] ⟨5, by decide⟩).ncard = 1 := by
  have hfound : lane.search [-2, -1] 5 1 #[1, 3, 1, 2, 1, 4] ⟨"H", .estimate⟩ =
      .ok ⟨some laneRoute, 4, 1⟩ := by rfl
  have hnone : lane.search [0] 5 1 #[1, 3, 1, 2, 1, 4] ⟨"H", .estimate⟩ = .ok ⟨none, 1, 0⟩ := by
    rfl
  obtain ⟨_, _, _, _, _, hless, hany⟩ := search_ok_iff_reachable hfound
  obtain ⟨_, _, _, _, hall, _⟩ := search_ok_iff_reachable hnone
  refine ⟨hfound, hless rfl, fun outcome h => ?_, hnone, (hall rfl).symm⟩
  exact (hany [-1, -2] _ _ outcome (List.Perm.swap _ _ _) h).1.mpr rfl

end Wayfinding
