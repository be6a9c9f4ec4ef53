import Wayfinding.Formula.Basic
import Wayfinding.Grid.Basic
import Wayfinding.Search.Frontier

/-!
# Best-first search

* A `Problem` has a set of cells, differences of cell numbers as moves, an estimate for each cell
  and a priority for a travelled cost and an estimate. Every move costs one.
* The search keeps a `Label` for each discovered cell: its least cost so far and the cell it was
  reached from. A cheaper way makes a new label and a new entry; the old entry stays in the
  frontier and is passed over as stale when its turn comes. A settled cell is never opened again.
* `Problem.rounds` settles a new cell in every round but the last, so there are no more rounds than
  cells and one.
* `Grid.search` checks its input and searches.
-/

namespace Wayfinding

/-- What is searched, with `n` cells. No move may lead to a blocked one. The moves are differences
of cell numbers, in the order in which they are tried; `estimates` has the cost that is estimated to
remain at each cell, and `priority` is that at a travelled cost and an estimate. -/
structure Problem (n : Nat) where
  blocked : Vector Bool n
  offsets : List Int
  estimates : Vector Nat n
  priority : Nat → Nat → Float
  start : Fin n
  goal : Fin n

/-- The best known way to a cell: what it costs, and the cell before it, none for the start. -/
structure Label (n : Nat) where
  cost : Nat
  parent : Option (Fin n)
deriving DecidableEq

/-- A search under way. The discovered cells have labels, the expanded ones are settled. `serial` is
the serial number of the last entry, `expanded` counts the cells that were expanded and `stale` the
entries that were passed over. -/
structure SearchState (n : Nat) where
  labels : Vector (Option (Label n)) n
  settled : Vector Bool n
  frontier : Frontier n
  serial : Nat
  expanded : Nat
  stale : Nat

/-- A way from the start to the goal. -/
structure Route (n : Nat) where
  cost : Nat
  cells : List (Fin n)
deriving DecidableEq

/-- What a search found. -/
structure Outcome (n : Nat) where
  route : Option (Route n)
  expanded : Nat
  stale : Nat
deriving DecidableEq

variable {n : Nat}

/-! ## 1. Moves -/

/-- The cell that a move leads to, if there is one. -/
def moveBy (cell : Fin n) (offset : Int) : Option (Fin n) :=
  if h : 0 ≤ cell.val + offset ∧ cell.val + offset < n then
    some ⟨(cell.val + offset).toNat, by omega⟩
  else none

theorem moveBy_eq_some_iff {cell next : Fin n} {offset : Int} :
    moveBy cell offset = some next ↔ (next.val : Int) = cell.val + offset := by
  unfold moveBy
  split
  · rename_i h
    simp only [Option.some.injEq, Fin.ext_iff]
    omega
  · have := next.isLt
    simp only [reduceCtorEq, false_iff]
    omega

theorem moveBy_eq_none_iff {cell : Fin n} {offset : Int} :
    moveBy cell offset = none ↔ cell.val + offset < 0 ∨ n ≤ cell.val + offset := by
  unfold moveBy
  split
  · simp only [reduceCtorEq, false_iff]
    omega
  · simp only [true_iff]
    omega

/-- Counts a cell as expanded. -/
def SearchState.settle (s : SearchState n) (cell : Fin n) : SearchState n :=
  { s with settled := s.settled.set cell true, expanded := s.expanded + 1 }

namespace Problem

/-- A way to `next` of the given cost, over `parent`, is the best one so far. -/
def discover (problem : Problem n) (next parent : Fin n) (cost : Nat) (s : SearchState n) :
    SearchState n :=
  { s with
    labels := s.labels.set next (some ⟨cost, some parent⟩)
    serial := s.serial + 1
    frontier := s.frontier.push
      ⟨problem.priority cost (problem.estimates.get next), cost, s.serial + 1, next⟩ }

/-- Whether a way of the given cost is better than the best known one. -/
def improves (cost : Nat) : Option (Label n) → Bool
  | none => true
  | some label => decide (cost < label.cost)

/-- A move from `cell`, reached at the given cost, to `next`. -/
def visit (problem : Problem n) (cell : Fin n) (cost : Nat) (next : Fin n) (s : SearchState n) :
    SearchState n :=
  if problem.blocked.get next || s.settled.get next then s
  else if improves (cost + 1) (s.labels.get next) then problem.discover next cell (cost + 1) s
  else s

/-- All moves from `cell`, reached at the given cost. None of them may leave the grid. -/
def visitAll (problem : Problem n) (cell : Fin n) (cost : Nat) :
    List Int → SearchState n → Except Error (SearchState n)
  | [], s => .ok s
  | offset :: others, s =>
    match moveBy cell offset with
    | none => .error (.escape cell offset n)
    | some next => visitAll problem cell cost others (problem.visit cell cost next s)

/-- Settles the cell of an entry and makes its moves. -/
def expand (problem : Problem n) (entry : Entry n) (s : SearchState n) :
    Except Error (SearchState n) :=
  problem.visitAll entry.cell entry.cost problem.offsets (s.settle entry.cell)

end Problem

/-! ## 2. Rounds -/

namespace SearchState

/-- Whether a better way than that of the entry was found since. -/
def isStale (s : SearchState n) (entry : Entry n) : Bool :=
  (s.labels.get entry.cell).map Label.cost != some entry.cost

/-- Passes over the stale entries that are next. -/
def dropStale (s : SearchState n) : SearchState n :=
  { s with
    frontier := s.frontier.dropWhile s.isStale
    stale := s.stale + (s.frontier.takeWhile s.isStale).length }

/-- The cells on the best known way to `cell`, from there back over at most `steps` moves. -/
def traceBack (s : SearchState n) : Nat → Fin n → List (Fin n)
  | 0, cell => [cell]
  | steps + 1, cell =>
    match (s.labels.get cell).bind Label.parent with
    | none => [cell]
    | some parent => cell :: s.traceBack steps parent

/-- The way to a cell at a cost, which is the number of its moves. -/
def route (s : SearchState n) (cell : Fin n) (cost : Nat) : Route n :=
  ⟨cost, (s.traceBack cost cell).reverse⟩

/-- The outcome if the search ends here. -/
def outcome (s : SearchState n) (route : Option (Route n)) : Outcome n :=
  ⟨route, s.expanded, s.stale⟩

end SearchState

namespace Problem

/-- The search before its first round: only the start is discovered. -/
def initial (problem : Problem n) : SearchState n where
  labels := (Vector.replicate n none).set problem.start (some ⟨0, none⟩)
  settled := Vector.replicate n false
  frontier := [⟨problem.priority 0 (problem.estimates.get problem.start), 0, 0, problem.start⟩]
  serial := 0
  expanded := 0
  stale := 0

/-- Expands the next entry until it is the goal or there is none, for at most so many rounds. -/
def rounds (problem : Problem n) : Nat → SearchState n → Except Error (Outcome n)
  | 0, s => .ok (s.outcome none)
  | left + 1, s =>
    let s := s.dropStale
    match s.frontier with
    | [] => .ok (s.outcome none)
    | entry :: others =>
      if entry.cell = problem.goal then .ok (s.outcome (some (s.route entry.cell entry.cost)))
      else
        match problem.expand entry { s with frontier := others } with
        | .error error => .error error
        | .ok next => problem.rounds left next

/-- Searches until the goal is reached or nothing is left to expand. -/
def solve (problem : Problem n) : Except Error (Outcome n) :=
  problem.rounds (n + 1) problem.initial

end Problem

/-! ## 3. Searching a grid -/

/-- Searches a grid from one cell number to another. -/
def Grid.search (grid : Grid) (offsets : List Int) (start goal : Nat) (estimates : Array Nat)
    (formula : Formula) : Except Error (Outcome grid.size) := do
  let start ← grid.checkIndex .start start
  let goal ← grid.checkIndex .goal goal
  if h : estimates.size = grid.size then
    Problem.solve ⟨grid.blocked, offsets, ⟨estimates, h⟩, formula.priority, start, goal⟩
  else .error (.tableSize .heuristic grid.size estimates.size)

/-- The cost of a route as a signed 64-bit number, minus one if there is none. -/
def reportedCost : Option Nat → Int
  | none => -1
  | some cost => min cost 0x7fffffffffffffff

end Wayfinding
