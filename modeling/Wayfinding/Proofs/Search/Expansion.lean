import Wayfinding.Proofs.Search.CostBound

/-!
# Which cells are expanded

* `AtRound.value_le`: a guided search expands only cells whose value, the cost and `k` times the
  estimate, every walk to the goal allows.
* `AtRound.settled_of_nearer`: a search by the cost alone has expanded every cell that a walk leads
  to in fewer moves than the next entry costs.
* `expanded_le`: so with a consistent estimate that is zero at the goal only, no more cells are
  expanded than without an estimate.
-/

namespace Wayfinding

variable {n : Nat}

namespace Problem

section Bounds

variable {problem : Problem n} {s t : SearchState n} {k drop moves : Nat} {cell : Fin n}
  {label : Label n}

/-- **What is expanded lies no further than every walk to the goal allows**, the estimate
included. -/
theorem AtRound.value_le (h : problem.AtRound s) (hg : problem.Guided k drop)
    (hset : s.settled.get cell = true) (hl : s.labels.get cell = some label)
    (hw : Walk (LegalMove problem.blocked problem.offsets) problem.start moves problem.goal) :
    label.cost + k * problem.estimates.get cell ≤
      max 1 (k * drop) * moves + k * problem.estimates.get problem.goal := by
  induction h generalizing cell label with
  | refl =>
      rw [settled_initial] at hset
      cases hset
  | tail hr hs ih =>
      obtain ⟨entry, others, known, he⟩ := hs.expansion
      rcases he.settled_cases hset hl with ⟨rfl, hcost⟩ | ⟨hold, hl'⟩
      · rw [hcost]
        exact AtRound.head_value_le hr hg (AtRound.cheap hr hg) he.frontier hw
          (AtRound.reached hr).counts.goal
      · exact ih hold hl'

/-- **What is nearer than the next entry costs is expanded already**, when the estimate does not
count. -/
theorem AtRound.settled_of_nearer (h : problem.AtRound s) (hg : problem.Guided 0 drop)
    {entry : Entry n} {others : Frontier n} (hf : s.dropStale.frontier = entry :: others)
    (hw : Walk (LegalMove problem.blocked problem.offsets) problem.start moves cell)
    (hnear : moves < entry.cost) : s.settled.get cell = true := by
  by_contra hn
  have hle := h.head_value_le hg (h.cheap hg) hf hw (Bool.not_eq_true _ ▸ hn)
  simp only [Nat.zero_mul, Nat.add_zero, Nat.zero_le, Nat.max_eq_left, Nat.one_mul] at hle
  omega

end Bounds

/-- **A consistent estimate does not make a search expand more cells.** The estimate is zero at the
goal and at no other cell that can be reached. The other search is the same but for its priorities,
which are those of the cost alone. -/
theorem expanded_le {problem : Problem n} {priority : Nat → Nat → Float} {drop : Nat}
    {few many : Outcome n} (hg : problem.Guided 1 1)
    (hp : Guided { problem with priority := priority } 0 drop)
    (hzero : problem.estimates.get problem.goal = 0)
    (hpos : ∀ cell ∈ problem.reachable, cell ≠ problem.goal → 0 < problem.estimates.get cell)
    (hfew : problem.solve = .ok few)
    (hmany : solve { problem with priority := priority } = .ok many) :
    few.expanded ≤ many.expanded := by
  obtain ⟨s, hs, hexp, _⟩ := solve_ok_cases hfew
  obtain ⟨t, ht, hexp', hend⟩ := solve_ok_cases hmany
  rcases hend with ⟨_, hnone⟩ | ⟨entry, others, label, hf, _, hl, hcost, _⟩
  · -- the goal cannot be reached, and both expand all that can be
    obtain ⟨hunreachable, hall⟩ := solve_none hmany hnone
    exact ((expanded_of_unreachable hfew hunreachable).trans hall.symm).le
  · have hsub : s.settledCells ⊆ t.settledCells := by
      intro cell hc
      rw [SearchState.mem_settledCells] at hc ⊢
      obtain ⟨known, hk⟩ := hs.reached.tree.labelled cell hc
      have hne : cell ≠ problem.goal := SearchState.ne_of_settled hc hs.reached.counts.goal
      have hone := hpos cell (hs.reached.tree.mem_reachable hk) hne
      have hvalue := hs.value_le hg hc hk (ht.reached.tree.walk hl rfl)
      rw [hzero] at hvalue
      refine ht.settled_of_nearer hp hf (hs.reached.tree.walk hk rfl) ?_
      simp only [Nat.one_mul, Nat.mul_zero, Nat.add_zero, Nat.max_self] at hvalue
      omega
    rw [hexp, hexp', ← hs.reached.counts.expanded, ← ht.reached.counts.expanded]
    exact Finset.card_le_card hsub

end Problem

end Wayfinding
