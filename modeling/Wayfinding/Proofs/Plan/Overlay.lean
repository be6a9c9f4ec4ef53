import Mathlib.Data.List.Nodup
import Wayfinding.Proofs.Grid.Drawings
import Wayfinding.Proofs.Plan.Routes

/-!
# The drawing of a plan

* `Grid.count_draw`: a character stands in a drawing as often as there are cells that it stands for.
* `Grid.IsPath.exists_between`: a path to another cell begins with its start and ends with its goal,
  and what lies between has neither. So each cell of the path has the character it should.
* `plan_draw_shows`: the drawing of a plan shows its path on the grid, and nothing else on it.
-/

namespace Wayfinding

namespace Grid

variable {grid : Grid} {cell start goal : Cell} {path marked : List Cell} {c : Char}

/-! ## 1. Counting characters -/

/-- The cells of a grid, row by row. -/
def cellsByRow (grid : Grid) : List Cell :=
  (List.range grid.height).flatMap fun row => (List.range grid.width).map fun col => ⟨row, col⟩

theorem mem_cellsByRow : cell ∈ grid.cellsByRow ↔ grid.Inside cell := by
  unfold cellsByRow Inside
  simp only [List.mem_flatMap, List.mem_map, List.mem_range]
  constructor
  · rintro ⟨row, hrow, col, hcol, rfl⟩
    exact ⟨hrow, hcol⟩
  · intro h
    exact ⟨cell.row, h.1, cell.col, h.2, rfl⟩

theorem nodup_cellsByRow : grid.cellsByRow.Nodup := by
  refine List.nodup_flatMap.mpr ⟨fun row _ => ?_, ?_⟩
  · exact List.nodup_range.map fun _ _ hsame => congrArg Cell.col hsame
  · refine List.nodup_range.imp fun hne => ?_
    intro cell hcell hother
    obtain ⟨_, _, rfl⟩ := List.mem_map.mp hcell
    obtain ⟨_, _, hsame⟩ := List.mem_map.mp hother
    exact hne (congrArg Cell.row hsame).symm

/-- The characters of a drawing are those of the cells, but for the line feeds. -/
theorem count_draw_eq (hc : c ≠ '\n') : (grid.draw path).count c =
    (grid.cellsByRow.map (grid.symbol path.head? path.getLast? path)).count c := by
  have hfeed : ['\n'].count c = 0 := List.count_eq_zero.mpr fun h => hc (List.mem_singleton.mp h)
  unfold draw drawRows cellsByRow
  rw [List.flatMap_map, List.map_flatMap, List.count_flatMap, List.count_flatMap]
  refine congrArg List.sum (List.map_congr_left fun row _ => ?_)
  simp only [Function.comp_apply, List.count_append, hfeed, Nat.add_zero, List.map_map]
  rfl

/-- **A character stands in a drawing as often as there are cells that it stands for.** -/
theorem count_draw (hc : c ≠ '\n') (hmarked : marked.Nodup)
    (hinside : ∀ cell ∈ marked, grid.Inside cell)
    (h : ∀ cell, grid.symbol path.head? path.getLast? path cell = c ↔ cell ∈ marked) :
    (grid.draw path).count c = marked.length := by
  have hperm : (grid.cellsByRow.filter fun cell =>
      grid.symbol path.head? path.getLast? path cell == c).Perm marked := by
    refine (List.perm_ext_iff_of_nodup (nodup_cellsByRow.filter _) hmarked).mpr fun cell => ?_
    rw [List.mem_filter, beq_iff_eq, h cell, mem_cellsByRow]
    exact ⟨And.right, fun hm => ⟨hinside cell hm, hm⟩⟩
  rw [count_draw_eq hc, List.count_eq_countP, List.countP_map, List.countP_eq_length_filter]
  exact hperm.length_eq

/-! ## 2. The character of a cell -/

section Symbol

variable {first last : Option Cell}

theorem symbol_eq_start_iff : grid.symbol first last path cell = 'S' ↔ first = some cell := by
  unfold symbol
  split_ifs with hfirst <;> simp [hfirst]

theorem symbol_eq_goal_iff :
    grid.symbol first last path cell = 'G' ↔ first ≠ some cell ∧ last = some cell := by
  unfold symbol
  split_ifs with hfirst hlast <;> simp [*]

theorem symbol_eq_between_iff : grid.symbol first last path cell = '*' ↔
    first ≠ some cell ∧ last ≠ some cell ∧ cell ∈ path := by
  unfold symbol
  split_ifs with hfirst hlast hmem <;> simp [*]

end Symbol

variable {neighbourhood : Neighbourhood}

/-- **A path to another cell has its ends apart from the cells between them.** -/
theorem IsPath.exists_between (h : grid.IsPath neighbourhood start goal path) (hne : start ≠ goal) :
    ∃ between, path = start :: (between ++ [goal]) := by
  obtain ⟨front, rfl⟩ := List.getLast?_eq_some_iff.mp h.last
  cases front with
  | nil => exact absurd (Option.some.inj h.head) hne.symm
  | cons first between =>
      cases h.head
      exact ⟨between, rfl⟩

/-- A path to its own start is this cell alone. -/
theorem IsPath.eq_single (h : grid.IsPath neighbourhood start start path) : path = [start] := by
  obtain ⟨front, rfl⟩ := List.getLast?_eq_some_iff.mp h.last
  cases front with
  | nil => rfl
  | cons first between =>
      cases h.head
      exact absurd (List.mem_append_right _ List.mem_cons_self) (List.nodup_cons.mp h.nodup).1

/-! ## 3. Drawings of paths -/

/-- The text shows a path of so many moves on the grid, and nothing else. There is one `S`, on the
start, and one `G`, on the goal, unless this is the start. There is an asterisk on each remaining
cell of the path. Apart from the path the grid is seen. -/
structure Shows (grid : Grid) (start goal : Cell) (cost : Nat) (path : List Cell)
    (text : List Char) : Prop where
  lineCount : (Text.lines text).length = grid.height
  lineLength : ∀ line ∈ Text.lines text, line.length = grid.width
  startAt : ∀ cell, charAt (Text.lines text) cell = some 'S' ↔ cell = start
  startCount : text.count 'S' = 1
  goalAt : ∀ cell, charAt (Text.lines text) cell = some 'G' ↔ start ≠ goal ∧ cell = goal
  goalCount : text.count 'G' = if start = goal then 0 else 1
  betweenAt : ∀ cell, charAt (Text.lines text) cell = some '*' ↔
    cell ∈ path ∧ cell ≠ start ∧ cell ≠ goal
  betweenCount : text.count '*' = if start = goal then 0 else cost - 1
  apart : ∀ cell, grid.Inside cell → cell ∉ path →
    charAt (Text.lines text) cell = some (if grid.isObstacle cell then '@' else '.')

theorem charAt_draw_eq_some_iff : charAt (Text.lines (grid.draw path)) cell = some c ↔
    grid.Inside cell ∧ grid.symbol path.head? path.getLast? path cell = c := by
  rw [hasLines_draw.lines_eq]
  constructor
  · intro h
    have hin : grid.Inside cell :=
      inside_of_charAt length_drawRows (fun _ hrow => length_of_mem_drawRows hrow) h
    rw [charAt_drawRows hin, Option.some.injEq] at h
    exact ⟨hin, h⟩
  · rintro ⟨hin, rfl⟩
    exact charAt_drawRows hin

section Path

variable (h : grid.IsPath neighbourhood start goal path)
include h

theorem IsPath.start_mem : start ∈ path :=
  List.mem_of_head? h.head

theorem IsPath.goal_mem : goal ∈ path :=
  List.mem_of_getLast? h.last

/-- Which character stands for a cell. -/
theorem IsPath.symbol_eq_start_iff :
    grid.symbol path.head? path.getLast? path cell = 'S' ↔ cell = start := by
  rw [Grid.symbol_eq_start_iff, h.head, Option.some.injEq, eq_comm]

theorem IsPath.symbol_eq_goal_iff :
    grid.symbol path.head? path.getLast? path cell = 'G' ↔ start ≠ goal ∧ cell = goal := by
  rw [Grid.symbol_eq_goal_iff, h.head, h.last, ne_eq, Option.some.injEq, Option.some.injEq]
  constructor
  · rintro ⟨hne, rfl⟩
    exact ⟨hne, rfl⟩
  · rintro ⟨hne, rfl⟩
    exact ⟨hne, rfl⟩

theorem IsPath.symbol_eq_between_iff :
    grid.symbol path.head? path.getLast? path cell = '*' ↔
      cell ∈ path ∧ cell ≠ start ∧ cell ≠ goal := by
  rw [Grid.symbol_eq_between_iff, h.head, h.last, ne_eq, ne_eq, Option.some.injEq,
    Option.some.injEq, eq_comm, eq_comm (a := goal)]
  exact ⟨fun ⟨hs, hg, hmem⟩ => ⟨hmem, hs, hg⟩, fun ⟨hmem, hs, hg⟩ => ⟨hs, hg, hmem⟩⟩

theorem IsPath.count_goal : (grid.draw path).count 'G' = if start = goal then 0 else 1 := by
  have hgoal := h.inside goal h.goal_mem
  split_ifs with hsame
  · exact count_draw (by decide) List.nodup_nil nofun fun cell => by
      simp only [h.symbol_eq_goal_iff, hsame, ne_eq, not_true_eq_false, false_and, List.not_mem_nil]
  · exact count_draw (by decide) (List.nodup_singleton goal) (by simpa using hgoal) fun cell => by
      simp only [h.symbol_eq_goal_iff, hsame, ne_eq, not_false_eq_true, true_and,
        List.mem_singleton]

/-- **There are as many asterisks as moves, less one**, unless the start is the goal. -/
theorem IsPath.count_between {cost : Nat} (hlength : path.length = cost + 1) :
    (grid.draw path).count '*' = if start = goal then 0 else cost - 1 := by
  split_ifs with hsame
  · subst hsame
    refine count_draw (by decide) List.nodup_nil nofun fun cell => ?_
    rw [h.symbol_eq_between_iff, h.eq_single, List.mem_singleton]
    simp only [List.not_mem_nil, iff_false, not_and]
    exact fun hstart hno => absurd hstart hno
  · obtain ⟨between, hpath⟩ := h.exists_between hsame
    have hnodup := h.nodup
    rw [hpath, List.nodup_cons, List.nodup_append] at hnodup
    obtain ⟨hstart, hbetween, _, hgoal⟩ := hnodup
    have hcount : between.length = cost - 1 := by
      rw [hpath, List.length_cons, List.length_append, List.length_singleton] at hlength
      omega
    rw [← hcount]
    have hmem : ∀ cell ∈ between, cell ∈ path := fun cell hcell => by
      rw [hpath]
      exact List.mem_cons_of_mem _ (List.mem_append_left _ hcell)
    refine count_draw (by decide) hbetween (fun cell hcell => h.inside cell (hmem cell hcell))
      fun cell => ?_
    rw [h.symbol_eq_between_iff]
    constructor
    · intro ⟨hcell, hs, hg⟩
      rw [hpath, List.mem_cons, List.mem_append, List.mem_singleton] at hcell
      exact (hcell.resolve_left hs).resolve_right hg
    · intro hcell
      refine ⟨hmem cell hcell, ?_, hgoal cell hcell goal List.mem_cons_self⟩
      rintro rfl
      exact hstart (List.mem_append_left _ hcell)

/-- **The drawing of a path shows it.** -/
theorem IsPath.shows {cost : Nat} (hlength : path.length = cost + 1) :
    grid.Shows start goal cost path (grid.draw path) where
  lineCount := by rw [hasLines_draw.lines_eq, length_drawRows]
  lineLength := by
    rw [hasLines_draw.lines_eq]
    exact fun _ hline => length_of_mem_drawRows hline
  startAt := fun cell => by
    rw [charAt_draw_eq_some_iff, h.symbol_eq_start_iff, and_iff_right_iff_imp]
    rintro rfl
    exact h.inside _ h.start_mem
  startCount := by
    refine count_draw (by decide) (List.nodup_singleton start) ?_ fun cell => ?_
    · exact List.forall_mem_singleton.mpr (h.inside _ h.start_mem)
    · rw [h.symbol_eq_start_iff, List.mem_singleton]
  goalAt := fun cell => by
    rw [charAt_draw_eq_some_iff, h.symbol_eq_goal_iff, and_iff_right_iff_imp]
    rintro ⟨_, rfl⟩
    exact h.inside _ h.goal_mem
  goalCount := h.count_goal
  betweenAt := fun cell => by
    rw [charAt_draw_eq_some_iff, h.symbol_eq_between_iff, and_iff_right_iff_imp]
    exact fun hcell => h.inside _ hcell.1
  betweenCount := h.count_between hlength
  apart := fun cell hin hcell => by
    have hs : start ≠ cell := fun hsame => hcell (hsame ▸ h.start_mem)
    have hg : goal ≠ cell := fun hsame => hcell (hsame ▸ h.goal_mem)
    refine charAt_draw_eq_some_iff.mpr ⟨hin, ?_⟩
    rw [h.head, h.last]
    simp only [symbol, Option.some.injEq, hs, hg, hcell, if_false]

end Path

end Grid

/-! ## 4. Drawings of plans -/

variable {grid : Grid} {request : Request} {plan : Plan}

/-- The path of a plan that reaches the goal has as many moves as the plan costs. -/
theorem exists_isPath_of_solved (h : request.plan grid = .ok plan) (hsolved : plan.solved = true) :
    ∃ cost, plan.cost = some cost ∧ plan.path.length = cost + 1 ∧
      grid.IsPath request.neighbourhood request.start request.goal plan.path := by
  obtain ⟨formula, hs, hg, outcome, _, hsolve, rfl⟩ := plan_ok_cases h
  cases hroute : outcome.route with
  | none => simp [Plan.solved, Request.report, hroute] at hsolved
  | some route =>
      have hisRoute := Problem.solve_isRoute hsolve hroute
      have hpath : (request.report formula grid outcome).path = route.cells.map grid.unspot := by
        simp only [Request.report, hroute]
        rfl
      refine ⟨route.cost, ?_, ?_, ?_⟩
      · simp only [Request.report, hroute, Option.map_some]
      · rw [hpath, List.length_map, hisRoute.length]
      · rw [hpath]
        exact hisRoute.isPath hs hg

/-- **The drawing of a plan that reaches the goal shows its path.** It has a line for each row of
the grid, with a character for each column: an `S` on the start, a `G` on any other goal, asterisks
on the cells between them, one less than the plan costs, and all else as it is on the grid. -/
theorem plan_draw_shows (h : request.plan grid = .ok plan) (hsolved : plan.solved = true) :
    ∃ cost, plan.cost = some cost ∧
      grid.Shows request.start request.goal cost plan.path (grid.draw plan.path) := by
  obtain ⟨cost, hcost, hlength, hpath⟩ := exists_isPath_of_solved h hsolved
  exact ⟨cost, hcost, hpath.shows hlength⟩

/-- The way through the alley is drawn: three moves, so two asterisks. -/
theorem draw_shows_alley :
    ∃ plan, (through ⟨1, 2⟩).plan alley = .ok plan ∧ plan.solved = true ∧
      alley.Shows ⟨0, 0⟩ ⟨1, 2⟩ 3 plan.path (alley.draw plan.path) ∧
      (alley.draw plan.path).count '*' = 2 := by
  have hread : ((through ⟨1, 2⟩).plan alley).map Plan.cost = .ok (some 3) := by rfl
  obtain ⟨_, _, hplan⟩ := @plan_of_compile alley (through ⟨1, 2⟩) _ (by decide) (by decide) rfl
  rw [hplan] at hread
  have hthree := Except.ok.inj hread
  have hsolved := congrArg Option.isSome hthree
  obtain ⟨cost, hcost, hshows⟩ := plan_draw_shows hplan hsolved
  cases hthree.symm.trans hcost
  exact ⟨_, hplan, hsolved, hshows, hshows.betweenCount⟩

end Wayfinding
