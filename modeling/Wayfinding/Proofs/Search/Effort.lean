import Wayfinding.Proofs.Search.Escape
import Wayfinding.Proofs.Search.Turns

/-!
# What a search costs

* `SearchState.Tally`: every entry that was made is accounted for. Its cell was expanded for it, it
  was passed over, or it is still in the frontier.
* `Problem.Logged`: no cell is expanded twice, and a cell that is expanded makes no more entries
  than there are offsets. So the turns of a run are bounded by the cells that it expanded, although
  the frontier grows while entries are taken off it.
* `search_halts`: every search halts, with bounds for what it expands, passes over and makes.
-/

namespace Wayfinding

variable {n : Nat} {problem : Problem n} {s t : SearchState n}

/-! ## 1. Entries -/

/-- Every entry was expanded, passed over or is still to come, and none costs more than there are
expanded cells. -/
structure SearchState.Tally (s : SearchState n) : Prop where
  entries : s.expanded + s.stale + s.frontier.length = 1 + s.serial
  cost_le : ∀ entry ∈ s.frontier, entry.cost ≤ s.expanded

theorem SearchState.Tally.initial : problem.initial.Tally where
  entries := rfl
  cost_le entry he := by
    cases List.mem_singleton.mp he
    exact Nat.le_refl _

theorem SearchState.Tally.step (h : s.Tally) (hc : s.Counts problem) (hs : problem.Step s t) :
    t.Tally := by
  obtain ⟨hentries, hcost⟩ := h
  cases hs with
  | pass entry others hf hs =>
      rw [hf, List.length_cons] at hentries
      refine ⟨?_, fun e he => hcost e (hf ▸ List.mem_cons_of_mem _ he)⟩
      show s.expanded + (s.stale + 1) + others.length = 1 + s.serial
      omega
  | close entry others hf hs hg =>
      rw [hf, List.length_cons] at hentries
      refine ⟨?_, fun e he => (hcost e (hf ▸ List.mem_cons_of_mem _ he)).trans (Nat.le_succ _)⟩
      show s.expanded + 1 + s.stale + others.length = 1 + s.serial
      omega
  | discover cell next label hl hset hm hn hi =>
      refine ⟨?_, fun e he => ?_⟩
      · show s.expanded + s.stale + (s.frontier.push _).length = 1 + (s.serial + 1)
        rw [Frontier.length_push]
        omega
      · -- the new entry costs one more than a settled cell, which costs less than was expanded
        rcases Frontier.mem_push.mp he with rfl | he
        · exact hc.cost_lt cell label hl hset
        · exact hcost e he

theorem Problem.Reached.tally (h : problem.Reached s) : s.Tally := by
  induction h with
  | refl => exact .initial
  | tail hr hs ih => exact ih.step (Problem.Reached.counts hr) hs

namespace Problem

/-- A move passes over no entry and makes at most one. -/
theorem visit_entries (problem : Problem n) (cell : Fin n) (cost : Nat) (next : Fin n)
    (s : SearchState n) : (problem.visit cell cost next s).stale = s.stale ∧
      (problem.visit cell cost next s).serial ≤ s.serial + 1 := by
  rcases visit_eq_or_discover problem cell cost next s with h | h
  · rw [h]
    exact ⟨rfl, Nat.le_succ _⟩
  · rw [h]
    exact ⟨rfl, Nat.le_refl _⟩

/-- Moves pass over no entry, and each of them makes at most one. -/
theorem visitAll_entries {cell : Fin n} {cost : Nat} {offsets : List Int}
    (h : problem.visitAll cell cost offsets s = .ok t) :
    t.stale = s.stale ∧ t.serial ≤ s.serial + offsets.length := by
  induction offsets generalizing s with
  | nil =>
      cases h
      exact ⟨rfl, Nat.le_refl _⟩
  | cons offset others ih =>
      obtain ⟨next, _, hothers⟩ := visitAll_cons_ok h
      obtain ⟨hstale, hserial⟩ := ih hothers
      obtain ⟨hvisit, hvisit'⟩ := visit_entries problem cell cost next s
      refine ⟨hstale.trans hvisit, hserial.trans ?_⟩
      rw [List.length_cons]
      omega

/-! ## 2. The log -/

/-- What a log says of the state after its turns. -/
structure Logged (problem : Problem n) (log : List (Option (Fin n))) (s : SearchState n) :
    Prop where
  nodup : log.reduceOption.Nodup
  settled : ∀ cell, cell ∈ log.reduceOption ↔ s.settled.get cell = true
  expanded : s.expanded = log.reduceOption.length
  stale : s.stale = log.count none
  length : log.length = s.expanded + s.stale
  serial : s.serial ≤ s.expanded * problem.offsets.length

variable {log : List (Option (Fin n))}

theorem Logged.initial : problem.Logged [] problem.initial where
  nodup := List.nodup_nil
  settled cell := by
    rw [settled_initial]
    exact ⟨fun h => absurd h List.not_mem_nil, nofun⟩
  expanded := rfl
  stale := rfl
  length := rfl
  serial := Nat.zero_le _

theorem Logged.turn {expanded : Option (Fin n)} (h : problem.Logged log s)
    (hr : problem.Run log s) (ht : problem.Turn s expanded t) :
    problem.Logged (expanded :: log) t := by
  cases ht with
  | pass entry others hf hs =>
      refine ⟨?_, ?_, ?_, ?_, ?_, h.serial⟩
      · rw [List.reduceOption_cons_of_none]
        exact h.nodup
      · rw [List.reduceOption_cons_of_none]
        exact h.settled
      · rw [List.reduceOption_cons_of_none]
        exact h.expanded
      · rw [List.count_cons_self, ← h.stale]
        rfl
      · rw [List.length_cons, h.length]
        rfl
  | expand entry others t hf hs hg ht =>
      have hmoves : problem.visitAll entry.cell entry.cost problem.offsets
          (s.close entry others) = .ok t := ht
      obtain ⟨hsettled, hexpanded⟩ := visitAll_frame hmoves
      obtain ⟨hstale, hserial⟩ := visitAll_entries hmoves
      rw [SearchState.expanded_close] at hexpanded
      have hnew : s.settled.get entry.cell = false :=
        hr.reached.queue.not_settled (hf ▸ List.mem_cons_self) hs
      refine ⟨?_, fun cell => ?_, ?_, ?_, ?_, ?_⟩
      · rw [List.reduceOption_cons_of_some]
        refine List.nodup_cons.mpr ⟨fun hin => ?_, h.nodup⟩
        rw [h.settled, hnew] at hin
        cases hin
      · rw [List.reduceOption_cons_of_some, List.mem_cons, h.settled, hsettled,
          SearchState.settled_close]
      · rw [List.reduceOption_cons_of_some, List.length_cons, hexpanded, h.expanded]
      · rw [List.count_cons_of_ne (Option.some_ne_none _), ← h.stale]
        exact hstale
      · rw [List.length_cons, h.length, hexpanded, hstale]
        exact Nat.add_right_comm _ _ _
      · rw [hexpanded, Nat.succ_mul]
        exact hserial.trans (Nat.add_le_add_right h.serial _)

theorem Run.logged (h : problem.Run log s) : problem.Logged log s := by
  induction h with
  | start => exact .initial
  | turn hr ht ih => exact ih.turn hr ht

/-! ## 3. Bounds -/

/-- **The turns and what they leave in the frontier are bounded** by the number of expanded cells,
for each of which no more entries were made than there are offsets. -/
theorem Run.length_add_le (h : problem.Run log s) :
    log.length + s.frontier.length ≤ 1 + s.expanded * problem.offsets.length := by
  rw [h.logged.length, h.reached.tally.entries]
  exact Nat.add_le_add_left h.logged.serial 1

/-- Only cells without an obstacle are expanded, besides the start. -/
theorem Reached.expanded_le (h : problem.Reached s) :
    s.expanded ≤ problem.blocked.toList.count false +
      if problem.blocked.get problem.start then 1 else 0 := by
  have hopen : (Finset.univ.filter fun cell => problem.blocked.get cell = false).card =
      problem.blocked.toList.count false :=
    Fin.card_filter_univ_eq_vector_get_eq_count false
      ⟨problem.blocked.toList, problem.blocked.length_toList⟩
  have hfree (cell : Fin n) (hc : cell ∈ s.settledCells) (hne : cell ≠ problem.start) :
      cell ∈ Finset.univ.filter fun cell => problem.blocked.get cell = false := by
    obtain ⟨label, hl⟩ := h.tree.labelled cell (SearchState.mem_settledCells.mp hc)
    exact Finset.mem_filter.mpr
      ⟨Finset.mem_univ _, free_of_mem_reachable (h.tree.mem_reachable hl) hne⟩
  rw [← h.counts.expanded, ← hopen]
  cases hstart : problem.blocked.get problem.start with
  | true =>
      rw [if_pos rfl]
      refine (Finset.card_le_card fun cell hc => ?_).trans (Finset.card_insert_le problem.start _)
      by_cases hne : cell = problem.start
      · exact Finset.mem_insert.mpr (Or.inl hne)
      · exact Finset.mem_insert_of_mem (hfree cell hc hne)
  | false =>
      rw [if_neg Bool.false_ne_true, Nat.add_zero]
      refine Finset.card_le_card fun cell hc => ?_
      by_cases hne : cell = problem.start
      · exact Finset.mem_filter.mpr ⟨Finset.mem_univ _, hne ▸ hstart⟩
      · exact hfree cell hc hne

/-- **Every run can be led on to where the search halts**, which has the result of
`Problem.solve`. -/
theorem Run.exists_halts (h : problem.Run log s) :
    ∃ log' s', problem.Run log' s' ∧ problem.Halts s' problem.solve := by
  -- on how many turns are left of those that any run can have
  induction hleft : 1 + n * problem.offsets.length - log.length using Nat.strong_induction_on
    generalizing log s with
  | _ left ih =>
      rcases h.turns_or_halts with ⟨expanded, t, ht⟩ | hhalts
      · have hnext := h.turn ht
        have hle := hnext.length_add_le
        have hn := Nat.mul_le_mul_right problem.offsets.length hnext.reached.counts.expanded_le
        rw [List.length_cons] at hle
        exact ih _ (by rw [List.length_cons]; omega) hnext rfl
      · exact ⟨log, s, h, hhalts⟩

variable {outcome : Outcome n}

/-- What a search reports is what it has counted. -/
theorem Halts.counts (h : problem.Halts s (.ok outcome)) :
    outcome.expanded = s.expanded ∧ outcome.stale = s.stale := by
  cases h with
  | exhausted hf => exact ⟨rfl, rfl⟩
  | found entry others label cells hf hs hg hl hb => exact ⟨rfl, rfl⟩

/-- The entry of a goal that is found is still in the frontier. -/
theorem Halts.solved_le (h : problem.Halts s (.ok outcome)) :
    (if outcome.route.isSome then 1 else 0) ≤ s.frontier.length := by
  cases h with
  | exhausted hf => exact Nat.zero_le _
  | found entry others label cells hf hs hg hl hb =>
      rw [hf]
      exact Nat.succ_le_succ (Nat.zero_le _)

end Problem

/-! ## 4. Searches of a grid -/

/-- What is searched in a grid. -/
def Grid.toProblem (grid : Grid) (offsets : List Int) (start goal : Fin grid.size)
    (estimates : Vector Nat grid.size) (formula : Formula) : Problem grid.size :=
  ⟨grid.blocked, offsets, estimates, formula.priority, start, goal⟩

/-- **Every search halts, within bounds.** Whatever the grid, the offsets and the formula, the turns
come to an end, and with what the search reports. No cell is expanded twice, and no more cells are
expanded than there are open ones, besides a start that is an obstacle. The turns, and with them the
entries that are passed over, are bounded by the expanded cells. No entry costs more than there are
expanded cells when it is made, and from every cell that is discovered the parents lead back to the
start in as many steps as it costs. -/
theorem search_halts (grid : Grid) (offsets : List Int) (start goal : Fin grid.size)
    (estimates : Vector Nat grid.size) (formula : Formula) :
    (∃ log s, (grid.toProblem offsets start goal estimates formula).Run log s ∧
      (grid.toProblem offsets start goal estimates formula).Halts s
        (grid.search offsets start goal estimates.toArray formula)) ∧
    (∀ log s, (grid.toProblem offsets start goal estimates formula).Run log s →
      log.reduceOption.Nodup ∧ s.expanded = log.reduceOption.length ∧ s.stale = log.count none ∧
      s.expanded ≤ grid.openCount + (if grid.blocked.get start then 1 else 0) ∧
      log.length + s.frontier.length ≤ 1 + s.expanded * offsets.length) ∧
    (∀ s, (grid.toProblem offsets start goal estimates formula).Meets s →
      (∀ entry ∈ s.frontier, entry.cost ≤ s.expanded) ∧
      ∀ cell label, s.labels.get cell = some label →
        ∃ cells, s.ReadsBack start cell cells ∧ cells.length = label.cost + 1) ∧
    ∀ outcome, grid.search offsets start goal estimates.toArray formula = .ok outcome →
      outcome.expanded ≤ grid.openCount + (if grid.blocked.get start then 1 else 0) ∧
      outcome.expanded + outcome.stale + (if outcome.route.isSome then 1 else 0) ≤
        1 + outcome.expanded * offsets.length ∧
      ∀ route, outcome.route = some route → route.cells.length = route.cost + 1 := by
  have hsearch : grid.search offsets start goal estimates.toArray formula =
      (grid.toProblem offsets start goal estimates formula).solve :=
    Grid.search_eq_solve start.isLt goal.isLt estimates.size_toArray
  rw [hsearch]
  have hstart : (grid.toProblem offsets start goal estimates formula).Run [] _ := .start
  obtain ⟨log, s, hrun, hhalts⟩ := hstart.exists_halts
  refine ⟨⟨log, s, hrun, hhalts⟩, fun log s hr => ?_, fun s hs => ?_, fun outcome ho => ?_⟩
  · exact ⟨hr.logged.nodup, hr.logged.expanded, hr.logged.stale, hr.reached.expanded_le,
      hr.length_add_le⟩
  · refine ⟨hs.reached.tally.cost_le, fun cell label hl => ?_⟩
    exact ⟨_, hs.reached.tree.readsBack hl rfl, hs.reached.tree.length_traceBack hl⟩
  · rw [ho] at hhalts
    obtain ⟨hexpanded, hstale⟩ := hhalts.counts
    refine ⟨hexpanded ▸ hrun.reached.expanded_le, ?_, fun route hroute => ?_⟩
    · calc outcome.expanded + outcome.stale + (if outcome.route.isSome then 1 else 0)
        _ ≤ log.length + s.frontier.length := by
            rw [hexpanded, hstale, hrun.logged.length]
            exact Nat.add_le_add_left hhalts.solved_le _
        _ ≤ 1 + outcome.expanded * offsets.length := hexpanded ▸ hrun.length_add_le
    · exact (Problem.solve_isRoute ho hroute).length

/-- On the lane four cells are expanded and one entry is passed over before the goal is next. -/
theorem halts_lane :
    lane.search [-2, -1] 5 1 #[1, 3, 1, 2, 1, 4] ⟨"H", .estimate⟩ =
        .ok ⟨some laneRoute, 4, 1⟩ ∧
      4 ≤ lane.openCount + 0 ∧ 4 + 1 + 1 ≤ 1 + 4 * 2 ∧ laneRoute.cells.length = 2 + 1 ∧
      ∃ log s, (lane.toProblem [-2, -1] ⟨5, by decide⟩ ⟨1, by decide⟩ #v[1, 3, 1, 2, 1, 4]
          ⟨"H", .estimate⟩).Run log s ∧
        log.reduceOption.Nodup ∧ log.reduceOption.length = 4 ∧ log.count none = 1 ∧
        ∀ entry ∈ s.frontier, entry.cost ≤ 4 := by
  have hsearch : lane.search [-2, -1] 5 1 #[1, 3, 1, 2, 1, 4] ⟨"H", .estimate⟩ =
      .ok ⟨some laneRoute, 4, 1⟩ := by rfl
  obtain ⟨⟨log, s, hrun, hhalts⟩, hruns, hmeets, houtcomes⟩ := search_halts lane [-2, -1]
    ⟨5, by decide⟩ ⟨1, by decide⟩ #v[1, 3, 1, 2, 1, 4] ⟨"H", .estimate⟩
  obtain ⟨hopen, hbound, hlength⟩ := houtcomes _ hsearch
  obtain ⟨hnodup, hexpanded, hstale, _⟩ := hruns log s hrun
  obtain ⟨hcost, _⟩ := hmeets s (.between hrun)
  have hcounts := Problem.Halts.counts (hsearch ▸ hhalts)
  refine ⟨hsearch, hopen, hbound, hlength laneRoute rfl, log, s, hrun, hnodup, ?_, ?_, ?_⟩
  · rw [← hexpanded, ← hcounts.1]
  · rw [← hstale, ← hcounts.2]
  · rw [← hcounts.1] at hcost
    exact hcost

end Wayfinding
