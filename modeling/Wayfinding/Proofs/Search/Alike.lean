import Wayfinding.Proofs.Search.Completeness

/-!
# Searches that expand alike

* `Problem.Closes` is what a search has come to when it makes the moves of a cell: the cell and the
  start are settled, the cell can be reached, and it costs less than there are cells.
* `Problem.Alike p q` says that both searches begin in the same state, look for the same goal and
  make the same of the moves of every cell that the first one closes.
* `Problem.Alike.solve_eq`: so they are in the same state after every round, and find the same.
-/

namespace Wayfinding

variable {n : Nat}

namespace Problem

/-! ## 1. When the moves of a cell are made -/

/-- A search closes the cell of an entry, which is not the goal, and is then in the state. -/
inductive Closes (problem : Problem n) (entry : Entry n) : SearchState n → Prop where
  | close {s : SearchState n} {others : Frontier n} (hs : problem.AtRound s)
      (hf : s.dropStale.frontier = entry :: others) (hg : entry.cell ≠ problem.goal) :
      Closes problem entry (s.dropStale.close entry others)

section Closes

variable {problem : Problem n} {s : SearchState n} {entry : Entry n} {others : Frontier n}

/-- The start is settled in the first round. -/
theorem AtRound.initial_or_settled (h : problem.AtRound s) :
    s = problem.initial ∨ s.settled.get problem.start = true := by
  induction h with
  | refl => exact Or.inl rfl
  | tail _ hround ih =>
      obtain ⟨entry, others, label, he⟩ := hround.expansion
      refine Or.inr (he.settled_iff.mpr ?_)
      rcases ih with rfl | hset
      · obtain ⟨hstart, -⟩ := labels_initial_eq_some he.known
        exact Or.inl hstart.symm
      · exact Or.inr hset

namespace Closes

theorem reached (h : problem.Closes entry s) : problem.Reached s := by
  obtain ⟨hs, hf, hg⟩ := h
  exact hs.reached_dropStale.tail (.close _ entry _ hf (SearchState.isStale_dropStale hf) hg)

theorem settled (h : problem.Closes entry s) : s.settled.get entry.cell = true := by
  obtain ⟨_, _, _⟩ := h
  exact SearchState.settled_close.mpr (Or.inl rfl)

theorem settled_start (h : problem.Closes entry s) : s.settled.get problem.start = true := by
  obtain ⟨hs, hf, _⟩ := h
  refine SearchState.settled_close.mpr ?_
  rcases hs.initial_or_settled with rfl | hset
  · obtain ⟨label, hl, _⟩ := SearchState.exists_label_dropStale hf
    obtain ⟨hstart, -⟩ := labels_initial_eq_some hl
    exact Or.inl hstart.symm
  · exact Or.inr hset

/-- The label of a closed cell has the cost of the entry. -/
theorem exists_label (h : problem.Closes entry s) :
    ∃ label, s.labels.get entry.cell = some label ∧ label.cost = entry.cost := by
  obtain ⟨_, hf, _⟩ := h
  obtain ⟨label, hl, hcost⟩ := SearchState.exists_label_dropStale hf
  exact ⟨label, hl, hcost⟩

theorem mem_reachable (h : problem.Closes entry s) : entry.cell ∈ problem.reachable := by
  obtain ⟨label, hl, _⟩ := h.exists_label
  exact h.reached.tree.mem_reachable hl

theorem cost_lt (h : problem.Closes entry s) : entry.cost < n := by
  obtain ⟨label, hl, hcost⟩ := h.exists_label
  have hlt := h.reached.counts.cost_lt entry.cell label hl h.settled
  rw [← hcost]
  exact hlt.trans_le h.reached.counts.expanded_le

end Closes

end Closes

/-! ## 2. Moves that do the same -/

section Moves

variable {p q : Problem n} {s : SearchState n} {cell next : Fin n} {cost : Nat}

/-- **A move does the same in two problems** if its cell is settled, or if it is an obstacle in both
or in neither and has the same priority where it is none. -/
theorem visit_congr
    (hb : s.settled.get next = true ∨ q.blocked.get next = p.blocked.get next)
    (hp : p.blocked.get next = false → q.priority (cost + 1) (q.estimates.get next) =
      p.priority (cost + 1) (p.estimates.get next)) :
    q.visit cell cost next s = p.visit cell cost next s := by
  unfold visit
  by_cases hset : s.settled.get next = true
  · rw [hset, Bool.or_true, Bool.or_true, if_pos rfl, if_pos rfl]
  · rw [hb.resolve_left hset]
    cases hopen : p.blocked.get next with
    | true => rw [Bool.true_or, if_pos rfl, if_pos rfl]
    | false =>
        unfold discover
        rw [hp hopen]

/-- All moves do the same if each one does, however much is discovered before it. -/
theorem visitAll_congr {offsets : List Int}
    (h : ∀ offset ∈ offsets, ∀ next, moveBy cell offset = some next → ∀ t : SearchState n,
      t.settled = s.settled → q.visit cell cost next t = p.visit cell cost next t) :
    q.visitAll cell cost offsets s = p.visitAll cell cost offsets s := by
  induction offsets generalizing s with
  | nil => rfl
  | cons offset others ih =>
      rw [visitAll, visitAll]
      cases hmove : moveBy cell offset with
      | none => rfl
      | some next =>
          have hfirst := h offset List.mem_cons_self next hmove s rfl
          simp only [hfirst]
          refine ih fun o ho next' hmove' t ht => h o (List.mem_cons_of_mem _ ho) next' hmove' t ?_
          exact ht.trans (visit_frame p cell cost next s).1

end Moves

/-! ## 3. Runs that are the same -/

/-- The two searches begin in the same state, look for the same goal and make the same of the moves
of every cell that the first one closes. -/
structure Alike (p q : Problem n) : Prop where
  goal : q.goal = p.goal
  initial : q.initial = p.initial
  moves : ∀ (entry : Entry n) (s : SearchState n), p.Closes entry s →
    q.visitAll entry.cell entry.cost q.offsets s = p.visitAll entry.cell entry.cost p.offsets s

variable {p q : Problem n}

theorem initial_congr (hstart : q.start = p.start)
    (hp : q.priority 0 (q.estimates.get p.start) = p.priority 0 (p.estimates.get p.start)) :
    q.initial = p.initial := by
  simp only [initial, hstart, hp]

/-- Every round does the same. -/
theorem Alike.rounds_eq (h : p.Alike q) {s : SearchState n} (hs : p.AtRound s) (left : Nat) :
    q.rounds left s = p.rounds left s := by
  induction left generalizing s with
  | zero => rfl
  | succ left ih =>
      rw [rounds, rounds]
      cases hf : s.dropStale.frontier with
      | nil => rfl
      | cons entry others =>
          simp only [h.goal]
          by_cases hg : entry.cell = p.goal
          · rw [if_pos hg, if_pos hg]
          · have hexpand : q.expand entry { s.dropStale with frontier := others } =
                p.expand entry { s.dropStale with frontier := others } :=
              h.moves entry _ (.close hs hf hg)
            rw [if_neg hg, if_neg hg, hexpand]
            cases he : p.expand entry { s.dropStale with frontier := others } with
            | error error => rfl
            | ok t => exact ih (hs.tail ⟨entry, others, hf, hg, he⟩)

/-- **Searches that expand alike find the same.** -/
theorem Alike.solve_eq (h : p.Alike q) : q.solve = p.solve := by
  unfold solve
  rw [h.initial]
  exact h.rounds_eq .refl (n + 1)

end Problem

end Wayfinding
