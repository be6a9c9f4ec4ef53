import Wayfinding.Proofs.Search.Alike
import Wayfinding.Proofs.Search.Escape
import Wayfinding.Proofs.Search.Renumbering

/-!
# Only the order of the priorities counts

* `SameOrder p q` says that two priorities compare alike wherever a search can meet them: at costs
  up to the number of cells, and at the estimates of the table.
* `Problem.alike_capped`: a search meets no greater cost, so a priority may be altered beyond.
* `search_eq_of_sameOrder`: two formulas that order alike find the same, with the same expanded and
  the same stale entries on the way, or fail in the same way.
-/

namespace Wayfinding

variable {n : Nat}

/-! ## 1. Priorities in the same order -/

/-- Two priorities compare alike, for costs up to `most` and the estimates of a table. -/
def SameOrder (p q : Nat → Nat → Float) (most : Nat) (estimates : Array Nat) : Prop :=
  ∀ cost ≤ most, ∀ estimate ∈ estimates, ∀ cost' ≤ most, ∀ estimate' ∈ estimates,
    precedes (q cost estimate) (q cost' estimate') =
      precedes (p cost estimate) (p cost' estimate')

namespace Problem

/-- The problem with the priority of every cost above `most` changed to that of `most`. -/
def capped (problem : Problem n) (most : Nat) : Problem n :=
  { problem with priority := fun cost estimate => problem.priority (min cost most) estimate }

/-- **No cost above the number of cells is met.** -/
theorem alike_capped (problem : Problem n) : problem.Alike (problem.capped n) where
  goal := rfl
  initial := initial_congr rfl (congrArg (problem.priority · _) (Nat.zero_min n))
  moves entry s h := by
    refine visitAll_congr fun _ _ next _ t _ => visit_congr (Or.inr rfl) fun _ => ?_
    exact congrArg (problem.priority · _) (Nat.min_eq_left h.cost_lt)

variable {p : Problem n} {priority : Nat → Nat → Float}

/-- With every cost capped the two searches correspond cell by cell. -/
theorem renumbered_capped (h : SameOrder p.priority priority n p.estimates.toArray) :
    (p.capped n).Renumbered (capped { p with priority := priority } n) id where
  injective := Function.injective_id
  start := rfl
  goal := rfl
  order a _ b _ cost cost' := by
    have hin (i : Fin n) : p.estimates.get i ∈ p.estimates.toArray := Array.getElem_mem _
    exact h _ (Nat.min_le_right _ _) _ (hin a) _ (Nat.min_le_right _ _) _ (hin b)
  moves cell _ := by
    refine List.forall₂_same.mpr fun offset _ => ?_
    cases hmove : moveBy cell offset with
    | none => exact .leave hmove hmove rfl
    | some next => exact .stay next hmove hmove rfl

/-- **Priorities in the same order lead to the same search.** -/
theorem solve_eq_of_sameOrder {q : Problem n} (hq : q = { p with priority := q.priority })
    (h : SameOrder p.priority q.priority n p.estimates.toArray) : q.solve = p.solve := by
  have hsame := solve_renumbered (renumbered_capped h)
  rw [(alike_capped _).solve_eq, (alike_capped p).solve_eq, ← hq] at hsame
  rw [hsame, Outcome.map_renumber_id]

end Problem

/-! ## 2. Searches of a grid -/

/-- **A search sees a formula only through the order that it gives.** If two formulas compare alike
at all costs up to the number of cells and all estimates of the table, where both zeros are equal and
what is no number comes last and is equal to itself, then they find the same: the same error, or the
same route with the same numbers of expanded and of stale entries. -/
theorem search_eq_of_sameOrder {grid : Grid} {offsets : List Int} {start goal : Nat}
    {estimates : Array Nat} {p q : Formula}
    (h : SameOrder p.priority q.priority grid.size estimates) :
    grid.search offsets start goal estimates q = grid.search offsets start goal estimates p := by
  obtain ⟨error, hrefused⟩ | ⟨hs, hg, he⟩ := grid.refuses_or_valid start goal estimates
  · rw [Grid.search_refused hrefused, Grid.search_refused hrefused]
  · rw [Grid.search_eq_solve hs hg he, Grid.search_eq_solve hs hg he]
    exact Problem.solve_eq_of_sameOrder rfl h

/-- A formula that is the same everywhere. -/
def seven : Formula :=
  ⟨"7", .constant 7⟩

/-- A formula that is zero everywhere, without a sign at the estimate zero and with one above. -/
def zeros : Formula :=
  ⟨"0*(0-H)", .binary .multiply (.constant 0) (.binary .subtract (.constant 0) .estimate)⟩

/-- The two zeros are no order, so along the lane they lead where a constant leads. -/
theorem sameOrder_lane :
    SameOrder seven.priority zeros.priority lane.size #[1, 0, 1, 2, 1, 4] ∧
      lane.search [-2, -1] 5 1 #[1, 0, 1, 2, 1, 4] zeros = .ok ⟨some laneRoute, 2, 0⟩ := by
  have horder : SameOrder seven.priority zeros.priority lane.size #[1, 0, 1, 2, 1, 4] := by
    have hall : ∀ estimate ∈ #[1, 0, 1, 2, 1, 4], ∀ estimate' ∈ #[1, 0, 1, 2, 1, 4],
        precedes (zeros.priority 0 estimate) (zeros.priority 0 estimate') =
          precedes (seven.priority 0 estimate) (seven.priority 0 estimate') := by decide
    intro _ _ estimate he _ _ estimate' he'
    exact hall estimate he estimate' he'
  refine ⟨horder, ?_⟩
  rw [search_eq_of_sameOrder horder]
  rfl

end Wayfinding
