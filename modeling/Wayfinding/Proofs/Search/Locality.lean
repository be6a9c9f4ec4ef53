import Wayfinding.Proofs.Search.Alike
import Wayfinding.Proofs.Search.Escape
import Wayfinding.Proofs.Search.Renumbering

/-!
# What a search does not look at

* `surroundings` are the cells that the moves from all that can be reached lead to. A search looks
  at obstacles there only, and at the estimates of what can be reached. The start is settled before
  a move leads back to it, so whether it is an obstacle itself never matters.
* `Problem.SameNear.solve_eq`: so two problems that agree there have the same solution.
* `search_local`: in particular nothing matters about a region that is cut off, nor the estimates of
  obstacles.
-/

namespace Wayfinding

variable {m n : Nat}

/-! ## 1. Surroundings -/

/-- The cells that a move leads to from a cell that can be reached. -/
def surroundings (blocked : Vector Bool n) (offsets : List Int) (start : Fin n) : Set (Fin n) :=
  {next | ∃ cell ∈ reachable blocked offsets start, ∃ offset ∈ offsets,
    moveBy cell offset = some next}

/-- All that can be reached but the start is surrounded. -/
theorem mem_surroundings_of_reachable {blocked : Vector Bool n} {offsets : List Int}
    {start cell : Fin n} (h : cell ∈ reachable blocked offsets start) (hne : cell ≠ start) :
    cell ∈ surroundings blocked offsets start := by
  cases h with
  | refl => exact absurd rfl hne
  | @tail last _ hlast hm =>
      obtain ⟨_, offset, ho, hnext⟩ := hm
      exact ⟨last, hlast, offset, ho, moveBy_eq_some_iff.mpr hnext⟩

namespace Problem

/-! ## 2. Problems that agree near what can be reached -/

/-- The second problem has as many cells. It has the same obstacles around what can be reached, the
start apart, and the same estimates at what can be reached. -/
structure SameNear (h : m = n) (p : Problem n) (q : Problem m) : Prop where
  offsets : q.offsets = p.offsets
  priority : q.priority = p.priority
  start : q.start.cast h = p.start
  goal : q.goal.cast h = p.goal
  blocked : ∀ cell ∈ surroundings p.blocked p.offsets p.start, cell ≠ p.start →
    q.blocked.get (cell.cast h.symm) = p.blocked.get cell
  estimates : ∀ cell ∈ p.reachable, q.estimates.get (cell.cast h.symm) = p.estimates.get cell

variable {p : Problem n} {q : Problem m} {h : m = n}

/-- **Searches that agree near what can be reached expand alike.** -/
theorem SameNear.alike {q : Problem n} (hpq : SameNear rfl p q) : p.Alike q where
  goal := hpq.goal
  initial := by
    refine initial_congr hpq.start ?_
    rw [hpq.priority]
    exact congrArg (p.priority 0) (hpq.estimates _ start_mem_reachable)
  moves entry s hc := by
    rw [hpq.offsets]
    refine visitAll_congr fun offset ho next hmove t ht => visit_congr ?_ fun hopen => ?_
    · by_cases hstart : next = p.start
      · left
        rw [ht, hstart]
        exact hc.settled_start
      · right
        exact hpq.blocked next ⟨entry.cell, hc.mem_reachable, offset, ho, hmove⟩ hstart
    · have hnext : next ∈ p.reachable :=
        hc.mem_reachable.tail ⟨hopen, offset, ho, moveBy_eq_some_iff.mp hmove⟩
      rw [hpq.priority]
      exact congrArg (p.priority _) (hpq.estimates next hnext)

/-- **Problems that agree near what can be reached have the same solution.** -/
theorem SameNear.solve_eq (hpq : SameNear h p q) :
    q.solve.map (Outcome.renumber (Fin.cast h)) = p.solve := by
  subst h
  rw [← hpq.alike.solve_eq]
  exact Outcome.map_renumber_id q.solve

end Problem

/-! ## 3. Searches of a grid -/

/-- **A search looks at nothing far from what it can reach.** Take two grids of the same size and
two tables. If the grids have the same obstacles on the cells that the moves from reachable cells
lead to, the start apart, and the tables the same estimates at reachable cells, then both searches
find the same, or fail in the same way. In particular it does not matter what is changed in a region
that is cut off, what the estimates of obstacles are, and whether the start is an obstacle. -/
theorem search_local (grid : Grid) (offsets : List Int) (start goal : Fin grid.size)
    (estimates : Vector Nat grid.size) (formula : Formula) :
    (∀ (other : Grid) (hsize : other.size = grid.size) (estimates' : Vector Nat grid.size),
      (∀ cell ∈ surroundings grid.blocked offsets start, cell ≠ start →
        other.blocked.get (cell.cast hsize.symm) = grid.blocked.get cell) →
      (∀ cell ∈ reachable grid.blocked offsets start,
        estimates'.get cell = estimates.get cell) →
      (other.search offsets start goal estimates'.toArray formula).map
          (Outcome.renumber (Fin.cast hsize)) =
        grid.search offsets start goal estimates.toArray formula) ∧
    (∀ (region : Set (Fin grid.size)) (other : Grid) (hsize : other.size = grid.size)
        (estimates' : Vector Nat grid.size),
      (∀ cell ∈ region, cell ≠ start ∧ cell ∉ surroundings grid.blocked offsets start) →
      (∀ cell ∉ region, other.blocked.get (cell.cast hsize.symm) = grid.blocked.get cell ∧
        estimates'.get cell = estimates.get cell) →
      (other.search offsets start goal estimates'.toArray formula).map
          (Outcome.renumber (Fin.cast hsize)) =
        grid.search offsets start goal estimates.toArray formula) ∧
    (∀ estimates' : Vector Nat grid.size,
      (∀ cell, cell = start ∨ grid.blocked.get cell = false →
        estimates'.get cell = estimates.get cell) →
      grid.search offsets start goal estimates'.toArray formula =
        grid.search offsets start goal estimates.toArray formula) ∧
    ∀ obstacle : Bool,
      Grid.search { grid with blocked := grid.blocked.set start obstacle } offsets start goal
          estimates.toArray formula =
        grid.search offsets start goal estimates.toArray formula := by
  have hnear (other : Grid) (hsize : other.size = grid.size) (estimates' : Vector Nat grid.size)
      (hblocked : ∀ cell ∈ surroundings grid.blocked offsets start, cell ≠ start →
        other.blocked.get (cell.cast hsize.symm) = grid.blocked.get cell)
      (hestimates : ∀ cell ∈ reachable grid.blocked offsets start,
        estimates'.get cell = estimates.get cell) :
      (other.search offsets start goal estimates'.toArray formula).map
          (Outcome.renumber (Fin.cast hsize)) =
        grid.search offsets start goal estimates.toArray formula := by
    rw [Grid.search_eq_solve start.isLt goal.isLt estimates.size_toArray,
      Grid.search_eq_solve (start.isLt.trans_eq hsize.symm) (goal.isLt.trans_eq hsize.symm)
        (estimates'.size_toArray.trans hsize.symm)]
    exact Problem.SameNear.solve_eq ⟨rfl, rfl, rfl, rfl, hblocked, hestimates⟩
  refine ⟨hnear, fun region other hsize estimates' hout hsame => ?_, fun estimates' hsame => ?_,
    fun obstacle => ?_⟩
  · refine hnear other hsize estimates' (fun cell hc _ => ?_) fun cell hc => ?_
    · exact (hsame cell fun hin => (hout cell hin).2 hc).1
    · refine (hsame cell fun hin => ?_).2
      exact (hout cell hin).2 (mem_surroundings_of_reachable hc (hout cell hin).1)
  · refine (Outcome.map_renumber_id _).symm.trans ?_
    refine hnear grid rfl estimates' (fun _ _ _ => rfl) fun cell hc => hsame cell ?_
    by_cases hstart : cell = start
    · exact Or.inl hstart
    · exact Or.inr (free_of_mem_reachable hc hstart)
  · refine (Outcome.map_renumber_id _).symm.trans ?_
    refine hnear { grid with blocked := grid.blocked.set start obstacle } rfl estimates
      (fun cell _ hne => ?_) fun _ _ => rfl
    exact (get_set grid.blocked start cell obstacle).trans (if_neg hne)

/-- Two rows of three cells. There are obstacles on the second cell, the third one and the fourth
one, counted column by column. -/
def corner : Grid :=
  ⟨2, 3, #v[false, true, true, true, false, false]⟩

/-- Forward from their fourth cells the lane and the corner are searched alike, although every cell
up to there differs in its obstacle or its estimate. -/
theorem local_corner :
    (corner.search [1, 2] 3 5 #[9, 9, 9, 2, 1, 0] ⟨"H", .estimate⟩).map
        (Outcome.renumber (Fin.cast (rfl : corner.size = lane.size))) =
      .ok ⟨some ⟨1, [⟨3, by decide⟩, ⟨5, by decide⟩]⟩, 1, 0⟩ := by
  have hforward {cell next : Fin lane.size} {offset : Int} (ho : offset ∈ [1, 2])
      (hmove : (next.val : Int) = cell.val + offset) : cell.val < next.val := by
    have hpos : ∀ o ∈ ([1, 2] : List Int), 0 < o := by decide
    have := hpos offset ho
    omega
  have hreached (cell : Fin lane.size)
      (hc : cell ∈ reachable lane.blocked [1, 2] ⟨3, by decide⟩) : 3 ≤ cell.val := by
    induction hc with
    | refl => exact Nat.le_refl 3
    | tail _ hm ih =>
        obtain ⟨_, offset, ho, hmove⟩ := hm
        exact ih.trans (hforward ho hmove).le
  have hsurrounded (cell : Fin lane.size)
      (hc : cell ∈ surroundings lane.blocked [1, 2] ⟨3, by decide⟩) : 3 < cell.val := by
    obtain ⟨last, hlast, offset, ho, hmove⟩ := hc
    exact (hreached last hlast).trans_lt (hforward ho (moveBy_eq_some_iff.mp hmove))
  have hblocked : ∀ cell : Fin lane.size, 3 < cell.val →
      corner.blocked.get (cell.cast rfl) = lane.blocked.get cell := by decide
  have hestimates : ∀ cell : Fin 6, 3 ≤ cell.val →
      (#v[9, 9, 9, 2, 1, 0] : Vector Nat 6).get cell =
        (#v[1, 3, 1, 2, 1, 0] : Vector Nat 6).get cell := by decide
  obtain ⟨hnear, _⟩ := search_local lane [1, 2] ⟨3, by decide⟩ ⟨5, by decide⟩
    #v[1, 3, 1, 2, 1, 0] ⟨"H", .estimate⟩
  refine (hnear corner rfl #v[9, 9, 9, 2, 1, 0] (fun cell hc _ => ?_) fun cell hc => ?_).trans rfl
  · exact hblocked cell (hsurrounded cell hc)
  · exact hestimates cell (hreached cell hc)

end Wayfinding
