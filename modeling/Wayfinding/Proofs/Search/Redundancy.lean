import Wayfinding.Grid.Neighbourhood
import Wayfinding.Proofs.Search.Alike
import Wayfinding.Proofs.Search.Escape

/-!
# Redundant offsets

* `Problem.Idle` says that a move to a cell would do nothing: an obstacle stands there, the cell is
  settled, or a way is known that is no dearer. No other move of the same cell takes that back
  (`Idle.visit`), and a move is idle once it was made (`idle_visit`).
* So the moves of a cell may be made without those that are idle (`visitAll_filter`), and each only
  once (`visitAll_eraseDups`).
* `search_essential`: an offset of zero leads from a settled cell to itself, so zeros and repetitions
  among the offsets change nothing.
-/

namespace Wayfinding

variable {n : Nat}

/-- The offsets without zeros, each only where it stands first. -/
def essential (offsets : List Int) : List Int :=
  (offsets.filter (· != 0)).eraseDups

theorem moveBy_zero (cell : Fin n) : moveBy cell 0 = some cell :=
  moveBy_eq_some_iff.mpr (Int.add_zero _).symm

namespace Problem

/-! ## 1. Idle moves -/

/-- A move to the cell, from one that is reached at the given cost, would do nothing. -/
def Idle (problem : Problem n) (cost : Nat) (next : Fin n) (s : SearchState n) : Prop :=
  problem.blocked.get next = true ∨ s.settled.get next = true ∨
    improves (cost + 1) (s.labels.get next) = false

variable {problem : Problem n} {cell next other : Fin n} {cost : Nat} {s : SearchState n}

theorem visit_of_idle (h : problem.Idle cost next s) : problem.visit cell cost next s = s := by
  unfold visit
  rcases h with hb | hset | hi
  · rw [hb, Bool.true_or, if_pos rfl]
  · rw [hset, Bool.or_true, if_pos rfl]
  · rw [hi, if_neg Bool.false_ne_true, ite_self]

/-- What is known at a cost is not improved by the same cost. -/
theorem idle_discover :
    problem.Idle cost next (problem.discover next cell (cost + 1) s) := by
  right
  right
  rw [labels_discover_self]
  exact decide_eq_false (Nat.lt_irrefl _)

/-- **A move is idle once it was made.** -/
theorem idle_visit : problem.Idle cost next (problem.visit cell cost next s) := by
  unfold visit
  by_cases hskip : (problem.blocked.get next || s.settled.get next) = true
  · rw [if_pos hskip]
    rcases (Bool.or_eq_true _ _).mp hskip with hb | hset
    · exact Or.inl hb
    · exact Or.inr (Or.inl hset)
  · rw [if_neg hskip]
    by_cases hi : improves (cost + 1) (s.labels.get next) = true
    · rw [if_pos hi]
      exact idle_discover
    · rw [if_neg hi]
      exact Or.inr (Or.inr (Bool.not_eq_true _ ▸ hi))

/-- **An idle move stays idle** while other moves of its cell are made. -/
theorem Idle.visit (h : problem.Idle cost next s) :
    problem.Idle cost next (problem.visit cell cost other s) := by
  by_cases hsame : next = other
  · rw [hsame]
    exact idle_visit
  · have hkept : (problem.visit cell cost other s).labels.get next = s.labels.get next := by
      rcases visit_eq_or_discover problem cell cost other s with hvisit | hvisit
      · rw [hvisit]
      · rw [hvisit]
        exact labels_discover_of_ne hsame
    unfold Idle
    rw [hkept, (visit_frame problem cell cost other s).1]
    exact h

/-! ## 2. Moves that can be left out -/

/-- **An offset whose move is idle can be left out.** -/
theorem visitAll_filter {offset : Int} (hmove : moveBy cell offset = some next)
    (h : problem.Idle cost next s) (offsets : List Int) :
    problem.visitAll cell cost (offsets.filter (· != offset)) s =
      problem.visitAll cell cost offsets s := by
  induction offsets generalizing s with
  | nil => rfl
  | cons first others ih =>
      by_cases hfirst : first = offset
      · subst hfirst
        rw [List.filter_cons_of_neg (by simp), ih h, visitAll, hmove]
        simp only [visit_of_idle h]
      · rw [List.filter_cons_of_pos (by simpa using hfirst), visitAll, visitAll]
        cases moveBy cell first with
        | none => rfl
        | some next' => exact ih h.visit

/-- **Each move needs to be made only once.** -/
theorem visitAll_eraseDups (offsets : List Int) (s : SearchState n) :
    problem.visitAll cell cost offsets.eraseDups s = problem.visitAll cell cost offsets s := by
  -- on the number of offsets: the repetitions of the first one are left out of all the others
  induction hlength : offsets.length using Nat.strong_induction_on generalizing offsets s with
  | _ k ih =>
      cases offsets with
      | nil => rfl
      | cons offset others =>
          rw [List.eraseDups_cons, visitAll, visitAll]
          cases hmove : moveBy cell offset with
          | none => rfl
          | some next =>
              have hshort : (others.filter (· != offset)).length < k := by
                rw [← hlength]
                exact Nat.lt_succ_of_le (List.length_filter_le _ _)
              exact (ih _ hshort _ _ rfl).trans (visitAll_filter hmove idle_visit others)

/-- Without redundant offsets the same is made of the moves of every cell that is closed. -/
theorem alike_essential (problem : Problem n) :
    problem.Alike { problem with offsets := essential problem.offsets } where
  goal := rfl
  initial := rfl
  moves entry s h :=
    calc visitAll { problem with offsets := essential problem.offsets } entry.cell entry.cost
          (essential problem.offsets) s
      _ = problem.visitAll entry.cell entry.cost (essential problem.offsets) s :=
          visitAll_congr fun _ _ _ _ _ _ => rfl
      _ = problem.visitAll entry.cell entry.cost (problem.offsets.filter (· != 0)) s :=
          visitAll_eraseDups _ s
      _ = problem.visitAll entry.cell entry.cost problem.offsets s :=
          visitAll_filter (moveBy_zero entry.cell) (Or.inr (Or.inl h.settled)) problem.offsets

theorem solve_essential {p q : Problem n} (hq : q = { p with offsets := essential p.offsets }) :
    q.solve = p.solve := by
  rw [hq]
  exact p.alike_essential.solve_eq

end Problem

/-! ## 3. Searches of a grid -/

/-- **Redundant offsets change nothing.** Without the zeros and the later repetitions among its
offsets a search finds the same: the same error, or the same route with the same numbers of expanded
and of stale entries. Both occur: in a grid of no row the offsets of a neighbourhood have zeros, in
one of a single row those of eight neighbours have, and in either there are repetitions. -/
theorem search_essential (grid : Grid) (offsets : List Int) (start goal : Nat)
    (estimates : Array Nat) (formula : Formula) :
    grid.search (essential offsets) start goal estimates formula =
        grid.search offsets start goal estimates formula ∧
      (∀ neighbourhood : Neighbourhood, 0 ∈ neighbourhood.offsets 0 ∧
        ∀ height ≤ 1, ¬ (neighbourhood.offsets height).Nodup) ∧
      0 ∈ Neighbourhood.eight.offsets 1 := by
  refine ⟨?_, fun neighbourhood => ?_, by decide⟩
  · obtain ⟨error, hrefused⟩ | ⟨hs, hg, he⟩ := grid.refuses_or_valid start goal estimates
    · rw [Grid.search_refused hrefused, Grid.search_refused hrefused]
    · rw [Grid.search_eq_solve hs hg he, Grid.search_eq_solve hs hg he]
      exact Problem.solve_essential rfl
  · cases neighbourhood with
    | four => decide
    | eight => decide

/-- On the lane two repetitions and a zero are left out, and the same route is found. -/
theorem essential_lane :
    lane.search [-2, 0, -1, -2, 0] 5 1 #[1, 3, 1, 2, 1, 4] ⟨"H", .estimate⟩ =
        .ok ⟨some laneRoute, 4, 1⟩ ∧ ¬ (Neighbourhood.eight.offsets 1).Nodup := by
  obtain ⟨hsame, hoffsets, _⟩ := search_essential lane [-2, 0, -1, -2, 0] 5 1 #[1, 3, 1, 2, 1, 4]
    ⟨"H", .estimate⟩
  obtain ⟨_, hrepeats⟩ := hoffsets .eight
  refine ⟨?_, hrepeats 1 (Nat.le_refl _)⟩
  rw [← hsame]
  rfl

end Wayfinding
