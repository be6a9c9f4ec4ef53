import Wayfinding.Proofs.Formula.Linear
import Wayfinding.Proofs.Search.Soundness

/-!
# First discovered, first expanded

* `breadthFirst` is a plain breadth-first search: a cell is marked when it is discovered, with its
  depth and the cell it was discovered from, and waits in a queue (`BreadthState`).
* `Problem.ByCost` says that priorities are compared as travelled costs are. Then the frontier holds
  no more than two consecutive costs, no cell is improved, and a new entry goes to the end of the
  frontier (`Levelled`): the frontier is the queue.
* `search_eq_searchBreadthFirst`: so a search by the travelled cost alone is a breadth-first search,
  up to the route, the number of expanded cells and the errors.
-/

namespace Wayfinding

variable {n : Nat}

/-! ## 1. Breadth-first search -/

/-- A breadth-first search under way. A marked cell has a depth, by how many moves away from the
start it was marked, and as its parent the cell that it was discovered from. The marked cells that
wait are in the queue, the first one first. `expanded` counts those that were taken from it and
expanded. -/
structure BreadthState (n : Nat) where
  depths : Vector (Option Nat) n
  parents : Vector (Option (Fin n)) n
  queue : List (Fin n)
  expanded : Nat

namespace BreadthState

/-- Only one cell is marked. -/
def single (start : Fin n) : BreadthState n where
  depths := (Vector.replicate n none).set start (some 0) start.isLt
  parents := Vector.replicate n none
  queue := [start]
  expanded := 0

/-- How many moves away from the start a marked cell is. -/
def depth (b : BreadthState n) (cell : Fin n) : Nat :=
  (b.depths.get cell).getD 0

/-- Marks a cell that is discovered from another one, and puts it at the end of the queue. -/
def mark (b : BreadthState n) (next parent : Fin n) (depth : Nat) : BreadthState n where
  depths := b.depths.set next (some depth) next.isLt
  parents := b.parents.set next (some parent) next.isLt
  queue := b.queue ++ [next]
  expanded := b.expanded

/-- A move from a cell at the given depth to `next`. -/
def visit (b : BreadthState n) (blocked : Vector Bool n) (cell : Fin n) (depth : Nat)
    (next : Fin n) : BreadthState n :=
  if blocked.get next || (b.depths.get next).isSome then b else b.mark next cell (depth + 1)

/-- All moves from a cell at the given depth. None of them may leave the grid. -/
def visitAll (b : BreadthState n) (blocked : Vector Bool n) (cell : Fin n) (depth : Nat) :
    List Int → Except Error (BreadthState n)
  | [] => .ok b
  | offset :: others =>
    match moveBy cell offset with
    | none => .error (.escape cell offset n)
    | some next => (b.visit blocked cell depth next).visitAll blocked cell depth others

/-- Takes the first cell from the queue, which leaves the others. -/
def take (b : BreadthState n) (others : List (Fin n)) : BreadthState n :=
  { b with
    queue := others
    expanded := b.expanded + 1 }

/-- The cells from `cell` back over the cells they were discovered from, at most so many. -/
def ancestors (b : BreadthState n) : Nat → Fin n → List (Fin n)
  | 0, cell => [cell]
  | steps + 1, cell =>
    match b.parents.get cell with
    | none => [cell]
    | some parent => cell :: b.ancestors steps parent

/-- The way to a marked cell in the tree of discoveries. -/
def route (b : BreadthState n) (cell : Fin n) : Route n :=
  ⟨b.depth cell, (b.ancestors n cell).reverse⟩

/-- Takes cells from the queue and expands them until the goal is taken or the queue is empty, at
most so many. -/
def run (blocked : Vector Bool n) (offsets : List Int) (goal : Fin n) :
    Nat → BreadthState n → Except Error (Outcome n)
  | 0, b => .ok ⟨none, b.expanded, 0⟩
  | left + 1, b =>
    match b.queue with
    | [] => .ok ⟨none, b.expanded, 0⟩
    | cell :: others =>
      if cell = goal then .ok ⟨some (b.route cell), b.expanded, 0⟩
      else
        match (b.take others).visitAll blocked cell (b.depth cell) offsets with
        | .error error => .error error
        | .ok next => run blocked offsets goal left next

end BreadthState

/-- Searches breadth-first until the goal is taken from the queue or the queue is empty. -/
def breadthFirst (blocked : Vector Bool n) (offsets : List Int) (start goal : Fin n) :
    Except Error (Outcome n) :=
  BreadthState.run blocked offsets goal (n + 1) (.single start)

/-- Searches a grid breadth-first from one cell number to another. The estimates are only counted. -/
def Grid.searchBreadthFirst (grid : Grid) (offsets : List Int) (start goal : Nat)
    (estimates : Array Nat) : Except Error (Outcome grid.size) := do
  let start ← grid.checkIndex .start start
  let goal ← grid.checkIndex .goal goal
  if estimates.size = grid.size then breadthFirst grid.blocked offsets start goal
  else .error (.tableSize .heuristic grid.size estimates.size)

/-! ## 2. Priorities by the cost -/

/-- An entry that every other one comes before goes to the end. -/
theorem Frontier.push_eq_append {entry : Entry n} {frontier : Frontier n}
    (h : ∀ other ∈ frontier, other.before entry = true) :
    frontier.push entry = frontier ++ [entry] := by
  induction frontier with
  | nil => rfl
  | cons first others ih =>
      have hnot : ¬ entry.before first = true := by
        intro hb
        have hfirst := Entry.before_iff.mp (h first List.mem_cons_self)
        exact lt_asymm hfirst (Entry.before_iff.mp hb)
      rw [Frontier.push, if_neg hnot, ih fun other ho => h other (List.mem_cons_of_mem _ ho)]
      rfl

/-- Priorities are compared as travelled costs are, whatever the estimates. -/
def Problem.ByCost (problem : Problem n) : Prop :=
  ∀ (a b : Fin n) (cost cost' : Nat), cost ≤ n → cost' ≤ n →
    (rank (problem.priority cost (problem.estimates.get a)) <
      rank (problem.priority cost' (problem.estimates.get b)) ↔ cost < cost')

namespace SearchState.Queue

variable {problem : Problem n} {s : SearchState n} {entry other : Entry n}

/-- Entries of lower cost come first, and older ones of the same cost. -/
theorem before_of_cost_le (h : s.Queue problem) (hby : problem.ByCost) (ho : other ∈ s.frontier)
    (hentry : entry.priority = problem.priority entry.cost (problem.estimates.get entry.cell))
    (hle : entry.cost ≤ n) (hcost : other.cost ≤ entry.cost) (hserial : s.serial < entry.serial) :
    other.before entry = true := by
  have hforth := hby other.cell entry.cell other.cost entry.cost (hcost.trans hle) hle
  have hback := hby entry.cell other.cell entry.cost other.cost hle (hcost.trans hle)
  have holder : other.serial < entry.serial := (h.serial other ho).trans_lt hserial
  rw [Entry.before_iff, Entry.key, Entry.key, Prod.Lex.toLex_lt_toLex, Prod.Lex.toLex_lt_toLex,
    h.priority other ho, hentry]
  rcases hcost.lt_or_eq with hlt | heq
  · exact Or.inl (hforth.mpr hlt)
  · refine Or.inr ⟨le_antisymm ?_ ?_, Or.inr ⟨?_, holder⟩⟩
    · exact not_lt.mp fun hlt => (hback.mp hlt).ne heq.symm
    · exact not_lt.mp fun hlt => (hforth.mp hlt).ne heq
    · exact congrArg OrderDual.toDual heq

/-- The next entry has the least cost. -/
theorem cost_head_le (h : s.Queue problem) (hby : problem.ByCost) {others : Frontier n}
    (hf : s.frontier = entry :: others) (ho : other ∈ s.frontier) (hle : entry.cost ≤ n)
    (hle' : other.cost ≤ n) : entry.cost ≤ other.cost := by
  have hrank := h.rank_head_le hf ho
  rw [h.priority entry (hf ▸ List.mem_cons_self), h.priority other ho, ← not_lt,
    hby other.cell entry.cell other.cost entry.cost hle' hle, not_lt] at hrank
  exact hrank

end SearchState.Queue

/-! ## 3. The frontier is the queue -/

/-- Both searches know the same, and the frontier is the queue: nothing in it is stale, and its
costs are `depth` and one more. -/
structure Levelled (problem : Problem n) (depth : Nat) (s : SearchState n) (b : BreadthState n) :
    Prop where
  reached : problem.Reached s
  labels : ∀ cell : Fin n,
    s.labels.get cell = (b.depths.get cell).map fun depth => ⟨depth, b.parents.get cell⟩
  queue : b.queue = s.frontier.map Entry.cell
  expanded : b.expanded = s.expanded
  stale : s.stale = 0
  live : ∀ entry ∈ s.frontier, s.isStale entry = false
  least : ∀ entry ∈ s.frontier, depth ≤ entry.cost
  greatest : ∀ (cell : Fin n) (label : Label n), s.labels.get cell = some label →
    label.cost ≤ depth + 1

namespace Levelled

variable {problem : Problem n} {depth : Nat} {s : SearchState n} {b : BreadthState n}
  {cell next : Fin n} {label : Label n} {offsets : List Int}

theorem initial (problem : Problem n) : Levelled problem 0 problem.initial (.single problem.start) where
  reached := .refl
  labels cell := by
    rw [Problem.labels_initial, BreadthState.single, get_set]
    by_cases hcell : cell = problem.start
    · rw [if_pos hcell, if_pos hcell]
      simp
    · rw [if_neg hcell, if_neg hcell]
      simp
  queue := rfl
  expanded := rfl
  stale := rfl
  live entry he := by
    cases List.mem_singleton.mp he
    refine SearchState.isStale_eq_false_iff.mpr ⟨⟨0, none⟩, ?_, rfl⟩
    rw [Problem.labels_initial, if_pos rfl]
  least _ _ := Nat.zero_le _
  greatest cell label hl := by
    obtain ⟨_, rfl⟩ := Problem.labels_initial_eq_some hl
    exact Nat.zero_le _

theorem cost_le (h : Levelled problem depth s b) {entry : Entry n} (he : entry ∈ s.frontier) :
    entry.cost ≤ depth + 1 := by
  obtain ⟨label, hl, hcost⟩ := SearchState.isStale_eq_false_iff.mp (h.live entry he)
  exact hcost ▸ h.greatest entry.cell label hl

/-- A marked cell is a labelled one. -/
theorem marked_iff (h : Levelled problem depth s b) :
    (b.depths.get cell).isSome = true ↔ ∃ label, s.labels.get cell = some label := by
  rw [h.labels cell, ← Option.isSome_iff_exists, Option.isSome_map]

/-- **A discovery goes to the end of the frontier**, as a mark does to the end of the queue. -/
theorem discover (h : Levelled problem depth s b) (hby : problem.ByCost) (hle : depth + 1 ≤ n)
    (hnew : s.labels.get next = none)
    (hr : problem.Reached (problem.discover next cell (depth + 1) s)) :
    Levelled problem depth (problem.discover next cell (depth + 1) s)
      (b.mark next cell (depth + 1)) := by
  have hfrontier : (problem.discover next cell (depth + 1) s).frontier =
      s.frontier ++ [problem.entryFor next (depth + 1) s] :=
    Frontier.push_eq_append fun other ho => h.reached.queue.before_of_cost_le hby ho rfl hle
      (h.cost_le ho) (Nat.lt_succ_self _)
  refine ⟨hr, fun c => ?_, ?_, h.expanded, h.stale, fun entry he => ?_, fun entry he => ?_,
    fun c known hk => ?_⟩
  · rw [Problem.labels_discover, BreadthState.mark, get_set, get_set]
    by_cases hc : c = next
    · rw [if_pos hc, if_pos hc, if_pos hc]
      rfl
    · rw [if_neg hc, if_neg hc, if_neg hc]
      exact h.labels c
  · rw [hfrontier, List.map_append, ← h.queue]
    rfl
  · rw [SearchState.isStale_eq_false_iff]
    rcases Frontier.mem_push.mp he with rfl | ho
    · exact ⟨_, Problem.labels_discover_self, rfl⟩
    · obtain ⟨known, hk, hcost⟩ := SearchState.isStale_eq_false_iff.mp (h.live entry ho)
      have hother : entry.cell ≠ next := by
        intro hsame
        rw [hsame, hnew] at hk
        cases hk
      exact ⟨known, (Problem.labels_discover_of_ne hother).trans hk, hcost⟩
  · rcases Frontier.mem_push.mp he with rfl | ho
    · exact Nat.le_succ _
    · exact h.least entry ho
  · rcases Problem.labels_discover_eq_some hk with ⟨_, rfl⟩ | ⟨_, hold⟩
    · exact Nat.le_refl _
    · exact h.greatest c known hold

/-- **A move discovers a cell exactly if it was not marked.** What is known already is never
improved. -/
theorem visit (h : Levelled problem label.cost s b) (hby : problem.ByCost)
    (hl : s.labels.get cell = some label) (hc : s.settled.get cell = true)
    (hm : ∃ offset ∈ problem.offsets, (next.val : Int) = cell.val + offset) :
    Levelled problem label.cost (problem.visit cell label.cost next s)
      (b.visit problem.blocked cell label.cost next) := by
  have hr : problem.Reached (problem.visit cell label.cost next s) :=
    h.reached.trans (Problem.steps_visit problem hl hc hm).1
  have hle : label.cost + 1 ≤ n :=
    (h.reached.counts.cost_lt cell label hl hc).trans_le h.reached.counts.expanded_le
  unfold Problem.visit BreadthState.visit at *
  cases hb : problem.blocked.get next with
  | true => exact h
  | false =>
      by_cases hmark : (b.depths.get next).isSome = true
      · obtain ⟨known, hk⟩ := h.marked_iff.mp hmark
        have hworse : Problem.improves (label.cost + 1) (s.labels.get next) = false := by
          rw [hk]
          exact decide_eq_false (h.greatest next known hk).not_gt
        simp only [hworse, hmark, Bool.false_eq_true, if_false, Bool.false_or, if_true, ite_self]
        exact h
      · have hnew : s.labels.get next = none := by
          rw [h.marked_iff] at hmark
          exact Option.eq_none_iff_forall_ne_some.mpr fun known hk => hmark ⟨known, hk⟩
        have hopen : s.settled.get next = false := by
          by_contra hset
          obtain ⟨known, hk⟩ := h.reached.tree.labelled next (Bool.not_eq_false _ ▸ hset)
          rw [hnew] at hk
          cases hk
        simp only [hb, hopen, hnew, hmark, Problem.improves, Bool.false_eq_true, if_false,
          Bool.false_or, if_true] at hr ⊢
        exact h.discover hby hle hnew hr

/-- **All moves of a cell are made in step**, up to the first one that leaves the grid. -/
theorem visitAll (h : Levelled problem label.cost s b) (hby : problem.ByCost)
    (hl : s.labels.get cell = some label) (hc : s.settled.get cell = true)
    (ho : ∀ offset ∈ offsets, offset ∈ problem.offsets) :
    Both (Levelled problem label.cost) (problem.visitAll cell label.cost offsets s)
      (b.visitAll problem.blocked cell label.cost offsets) := by
  induction offsets generalizing s b with
  | nil => exact .ok h
  | cons offset others ih =>
      rw [Problem.visitAll, BreadthState.visitAll]
      cases hmove : moveBy cell offset with
      | none => exact .error _
      | some next =>
          have hm : ∃ offset ∈ problem.offsets, (next.val : Int) = cell.val + offset :=
            ⟨offset, ho offset List.mem_cons_self, moveBy_eq_some_iff.mp hmove⟩
          have hext := SearchState.Extends.of_steps (Problem.steps_visit problem hl hc hm).1
          exact ih (h.visit hby hl hc hm) ((hext.same cell hc).trans hl) (hext.settled cell hc)
            fun o hin => ho o (List.mem_cons_of_mem _ hin)

/-- The way back over the labels is the way back over the discoveries. -/
theorem ancestors_eq (h : Levelled problem depth s b) {k steps : Nat}
    (hl : s.labels.get cell = some label) (hk : label.cost = k) (hle : k ≤ steps) :
    b.ancestors steps cell = s.traceBack k cell := by
  have hparent {c : Fin n} {known : Label n} (hknown : s.labels.get c = some known) :
      b.parents.get c = known.parent := by
    rw [h.labels c, Option.map_eq_some_iff] at hknown
    obtain ⟨_, _, rfl⟩ := hknown
    rfl
  induction k generalizing cell label steps with
  | zero =>
      cases h.reached.tree.eq_start hl hk
      have hroot : b.parents.get problem.start = none := hparent h.reached.tree.start
      cases steps with
      | zero => rfl
      | succ steps => rw [BreadthState.ancestors, hroot, SearchState.traceBack]
  | succ k ih =>
      obtain ⟨parent, above, hp, ha, hak, _⟩ := h.reached.tree.exists_parent hl hk
      cases steps with
      | zero => cases hle
      | succ steps =>
          rw [BreadthState.ancestors, hparent hl, hp, SearchState.traceBack_succ hl hp k]
          exact congrArg (cell :: ·) (ih ha hak (Nat.le_of_succ_le_succ hle))

theorem route_eq (h : Levelled problem depth s b) (hl : s.labels.get cell = some label) :
    b.route cell = s.route cell label.cost := by
  have hdepth : b.depth cell = label.cost := by
    rw [h.labels cell, Option.map_eq_some_iff] at hl
    obtain ⟨d, hd, rfl⟩ := hl
    rw [BreadthState.depth, hd, Option.getD_some]
  have htrace : b.ancestors n cell = s.traceBack label.cost cell :=
    h.ancestors_eq hl rfl (h.reached.counts.cost_le_size hl)
  rw [BreadthState.route, SearchState.route, hdepth, htrace]

/-- **Closing the next cell is taking it from the queue.** From then on the costs are its own and
one more. -/
theorem close (h : Levelled problem depth s b) (hby : problem.ByCost) {entry : Entry n}
    {others : Frontier n} (hf : s.frontier = entry :: others) (hg : entry.cell ≠ problem.goal) :
    Levelled problem entry.cost (s.close entry others) (b.take (others.map Entry.cell)) := by
  have hmem : entry ∈ s.frontier := hf ▸ List.mem_cons_self
  have hsize (e : Entry n) (he : e ∈ s.frontier) : e.cost ≤ n := by
    obtain ⟨label, hl, hcost⟩ := SearchState.isStale_eq_false_iff.mp (h.live e he)
    exact hcost ▸ h.reached.counts.cost_le_size hl
  have hin (e : Entry n) (he : e ∈ others) : e ∈ s.frontier := hf ▸ List.mem_cons_of_mem _ he
  refine ⟨h.reached.tail (.close s entry others hf (h.live entry hmem) hg), h.labels, rfl,
    congrArg (· + 1) h.expanded, h.stale, fun e he => h.live e (hin e he), fun e he => ?_,
    fun cell label hl => ?_⟩
  · exact h.reached.queue.cost_head_le hby hf (hin e he) (hsize entry hmem) (hsize e (hin e he))
  · exact (h.greatest cell label hl).trans (Nat.succ_le_succ (h.least entry hmem))

/-- **Every round is made in step**, whether it is the last one or not. -/
theorem rounds_eq (h : Levelled problem depth s b) (hby : problem.ByCost) (left : Nat) :
    problem.rounds left s =
      BreadthState.run problem.blocked problem.offsets problem.goal left b := by
  induction left generalizing depth s b with
  | zero =>
      rw [Problem.rounds, BreadthState.run, h.expanded, ← h.stale]
      rfl
  | succ left ih =>
      rw [Problem.rounds, BreadthState.run]
      cases hf : s.frontier with
      | nil =>
          have hdrop := SearchState.dropStale_of_nil hf
          have hqueue : b.queue = [] := by rw [h.queue, hf, List.map_nil]
          simp only [hdrop, hf, hqueue]
          rw [h.expanded, ← h.stale]
          rfl
      | cons entry others =>
          have hlive := h.live entry (hf ▸ List.mem_cons_self)
          have hdrop := SearchState.dropStale_of_live hf hlive
          have hqueue : b.queue = entry.cell :: others.map Entry.cell := by
            rw [h.queue, hf, List.map_cons]
          obtain ⟨label, hl, hcost⟩ := SearchState.isStale_eq_false_iff.mp hlive
          simp only [hdrop, hf, hqueue]
          by_cases hg : entry.cell = problem.goal
          · rw [if_pos hg, if_pos hg, h.route_eq hl, hcost, h.expanded, ← h.stale]
            rfl
          · rw [if_neg hg, if_neg hg]
            have hclosed := h.close hby hf hg
            rw [← hcost] at hclosed
            have hset : (s.close entry others).settled.get entry.cell = true :=
              SearchState.settled_close.mpr (Or.inl rfl)
            have hmoves := hclosed.visitAll hby hl hset fun _ ho => ho
            have hdepth : b.depth entry.cell = label.cost := congrArg Route.cost (h.route_eq hl)
            rw [hdepth]
            rw [hcost] at hmoves ⊢
            change Both _ (problem.expand entry { s with frontier := others }) _ at hmoves
            generalize problem.expand entry { s with frontier := others } = best at hmoves ⊢
            generalize (b.take (others.map Entry.cell)).visitAll problem.blocked entry.cell
              entry.cost problem.offsets = breadth at hmoves ⊢
            cases hmoves with
            | error error => rfl
            | ok hnext => exact ih hnext

end Levelled

/-! ## 4. Searches by the cost -/

namespace Problem

variable {problem : Problem n}

/-- Priorities that are the costs themselves are compared as costs are. -/
theorem byCost_of_denotes (h : ∀ (cell : Fin n) (cost : Nat), cost ≤ n →
    Denotes (problem.priority cost (problem.estimates.get cell)).toModel.unpack cost) :
    problem.ByCost :=
  fun a b cost cost' hle hle' => rank_lt_iff_of_denotes (h a cost hle) (h b cost' hle')

/-- **Where priorities are compared as costs are, a search is breadth-first.** -/
theorem solve_eq_breadthFirst (hby : problem.ByCost) :
    problem.solve = breadthFirst problem.blocked problem.offsets problem.start problem.goal :=
  (Levelled.initial problem).rounds_eq hby (n + 1)

end Problem

/-- **The rounds are enough** for the breadth-first search: it is not cut off. -/
theorem BreadthState.run_add (blocked : Vector Bool n) (offsets : List Int) (start goal : Fin n)
    (hn : n ≤ 2 ^ 53) (more : Nat) :
    run blocked offsets goal (n + 1 + more) (.single start) =
      breadthFirst blocked offsets start goal := by
  let problem : Problem n :=
    ⟨blocked, offsets, Vector.replicate n 0, fun cost _ => cost.toFloat, start, goal⟩
  have hby : problem.ByCost :=
    Problem.byCost_of_denotes fun _ _ hle => denotes_toFloat (hle.trans hn)
  have hlong := (Levelled.initial problem).rounds_eq hby (n + 1 + more)
  rw [Problem.rounds_add .refl (Nat.lt_succ_self n)] at hlong
  exact hlong.symm.trans (Problem.solve_eq_breadthFirst hby)

/-- **A search by the travelled cost is breadth-first.** On a grid of at most `2 ^ 53` cells, where
floats are exact, a search by `G` finds what a breadth-first search finds: the same error, or the
same route after the same number of expanded cells, and it never passes over an entry. -/
theorem search_eq_searchBreadthFirst {grid : Grid} {policy : Policy} {formula : Formula}
    (hsize : grid.size ≤ 2 ^ 53) (hread : Formula.read policy "G" = .ok formula)
    (offsets : List Int) (start goal : Nat) (estimates : Array Nat) :
    grid.search offsets start goal estimates formula =
      grid.searchBreadthFirst offsets start goal estimates := by
  unfold Grid.search Grid.searchBreadthFirst
  cases grid.checkIndex .start start with
  | error error => rfl
  | ok start =>
      cases grid.checkIndex .goal goal with
      | error error => rfl
      | ok goal =>
          by_cases htable : estimates.size = grid.size
          · simp only [bind, Except.bind, dif_pos htable, if_pos htable]
            exact Problem.solve_eq_breadthFirst <| Problem.byCost_of_denotes fun _ _ hle =>
              denotes_travelled hread (hle.trans hsize) _
          · simp only [bind, Except.bind, dif_neg htable, if_neg htable]

/-- On the lane the goal is the fourth cell to be taken from the queue. A move that leaves the lane
is the same error. -/
theorem searchBreadthFirst_lane :
    lane.search [-2, -1] 5 1 #[1, 3, 1, 2, 1, 4] ⟨"G", .travelled⟩ =
        lane.searchBreadthFirst [-2, -1] 5 1 #[1, 3, 1, 2, 1, 4] ∧
      lane.searchBreadthFirst [-2, -1] 5 1 #[1, 3, 1, 2, 1, 4] = .ok ⟨some laneRoute, 3, 0⟩ ∧
      lane.search [-2, -4] 5 0 #[1, 3, 1, 2, 1, 4] ⟨"G", .travelled⟩ =
        .error (.escape 3 (-4) 6) := by
  have hread : Formula.read .strict "G" = .ok ⟨"G", .travelled⟩ := by rfl
  have hsize : lane.size ≤ 2 ^ 53 := by decide
  refine ⟨search_eq_searchBreadthFirst hsize hread _ _ _ _, by rfl, ?_⟩
  rw [search_eq_searchBreadthFirst hsize hread]
  rfl

end Wayfinding
