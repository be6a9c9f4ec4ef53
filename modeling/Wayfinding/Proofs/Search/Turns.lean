import Wayfinding.Proofs.Search.Soundness

/-!
# The turns of a search

* `Problem.Turn` takes the next entry off the frontier: it is passed over as stale, or its cell is
  expanded. `Problem.Run` is any number of turns from the beginning, with a log of what each one
  expanded. Unlike the rounds of `Problem.solve`, the turns are not bounded beforehand.
* `SearchState.ReadsBack` follows the parents from a cell until the start is met, however long that
  takes.
* `Problem.Halts` says after which state there is no further turn, and with what result. A run that
  does not halt goes on, and one that halts has the result of `Problem.solve`
  (`Run.turns_or_halts`).
-/

namespace Wayfinding

variable {n : Nat}

/-! ## 1. Turns -/

/-- **One turn of a search.** The next entry is passed over, and nothing is expanded, or its cell is
expanded. -/
inductive Problem.Turn (problem : Problem n) (s : SearchState n) :
    Option (Fin n) → SearchState n → Prop where
  | pass (entry : Entry n) (others : Frontier n) (hf : s.frontier = entry :: others)
      (hs : s.isStale entry = true) : Turn problem s none (s.pass others)
  | expand (entry : Entry n) (others : Frontier n) (t : SearchState n)
      (hf : s.frontier = entry :: others) (hs : s.isStale entry = false)
      (hg : entry.cell ≠ problem.goal)
      (ht : problem.expand entry { s with frontier := others } = .ok t) :
      Turn problem s (some entry.cell) t

/-- The states between the turns. The log says of each turn what it expanded, the last one first. -/
inductive Problem.Run (problem : Problem n) : List (Option (Fin n)) → SearchState n → Prop where
  | start : Run problem [] problem.initial
  | turn {log : List (Option (Fin n))} {s t : SearchState n} {expanded : Option (Fin n)}
      (hr : Run problem log s) (ht : problem.Turn s expanded t) : Run problem (expanded :: log) t

/-- The states of a search, between the turns and while the moves of a cell are made. -/
inductive Problem.Meets (problem : Problem n) : SearchState n → Prop where
  | between {log : List (Option (Fin n))} {s : SearchState n} (hr : problem.Run log s) :
      Meets problem s
  | within {log : List (Option (Fin n))} {s t : SearchState n} {entry : Entry n}
      {others : Frontier n} {offsets : List Int} (hr : problem.Run log s)
      (hf : s.frontier = entry :: others) (hs : s.isStale entry = false)
      (hg : entry.cell ≠ problem.goal) (ho : offsets <+: problem.offsets)
      (ht : problem.visitAll entry.cell entry.cost offsets (s.close entry others) = .ok t) :
      Meets problem t

/-- Over the parents one comes from the cell to the start. The cells met on the way are listed. -/
inductive SearchState.ReadsBack (s : SearchState n) (start : Fin n) :
    Fin n → List (Fin n) → Prop where
  | arrive : ReadsBack s start start [start]
  | follow {cell parent : Fin n} {cells : List (Fin n)} (hne : cell ≠ start)
      (hp : (s.labels.get cell).bind Label.parent = some parent)
      (hb : ReadsBack s start parent cells) : ReadsBack s start cell (cell :: cells)

/-- **When a search halts, and with what result**: the frontier is empty, the next entry is the goal
and not stale, or a move leaves the grid. -/
inductive Problem.Halts (problem : Problem n) (s : SearchState n) :
    Except Error (Outcome n) → Prop where
  | exhausted (hf : s.frontier = []) : Halts problem s (.ok (s.outcome none))
  | found (entry : Entry n) (others : Frontier n) (label : Label n) (cells : List (Fin n))
      (hf : s.frontier = entry :: others) (hs : s.isStale entry = false)
      (hg : entry.cell = problem.goal) (hl : s.labels.get problem.goal = some label)
      (hb : s.ReadsBack problem.start problem.goal cells) :
      Halts problem s (.ok (s.outcome (some ⟨label.cost, cells.reverse⟩)))
  | escaped (entry : Entry n) (others : Frontier n) (error : Error)
      (hf : s.frontier = entry :: others) (hs : s.isStale entry = false)
      (hg : entry.cell ≠ problem.goal)
      (he : problem.expand entry { s with frontier := others } = .error error) :
      Halts problem s (.error error)

variable {problem : Problem n} {s t : SearchState n} {log : List (Option (Fin n))}

namespace Problem

/-! ## 2. Turns are steps -/

/-- The moves of a cell that was closed are steps, also if only some of them are made. -/
theorem steps_within {entry : Entry n} {others : Frontier n} {offsets : List Int}
    (hs : s.isStale entry = false) (ho : ∀ offset ∈ offsets, offset ∈ problem.offsets)
    (ht : problem.visitAll entry.cell entry.cost offsets (s.close entry others) = .ok t) :
    Relation.ReflTransGen problem.Step (s.close entry others) t := by
  obtain ⟨label, hl, hcost⟩ := SearchState.isStale_eq_false_iff.mp hs
  rw [← hcost] at ht
  exact (steps_visitAll (s := s.close entry others) hl
    (SearchState.settled_close.mpr (Or.inl rfl)) ho ht).1

theorem Turn.steps {expanded : Option (Fin n)} (h : problem.Turn s expanded t) :
    Relation.ReflTransGen problem.Step s t := by
  cases h with
  | pass entry others hf hs => exact .single (.pass s entry others hf hs)
  | expand entry others t hf hs hg ht =>
      exact .head (.close s entry others hf hs hg) (steps_within hs (fun _ ho => ho) ht)

theorem Run.reached (h : problem.Run log s) : problem.Reached s := by
  induction h with
  | start => exact .refl
  | turn _ ht ih => exact ih.trans ht.steps

theorem Meets.reached (h : problem.Meets s) : problem.Reached s := by
  cases h with
  | between hr => exact hr.reached
  | within hr hf hs hg ho ht =>
      exact (hr.reached.tail (.close _ _ _ hf hs hg)).trans (steps_within hs ho.subset ht)

end Problem

/-! ## 3. Reading the way back -/

/-- **Over the parents every labelled cell leads back to the start**, in as many steps as its label
costs. -/
theorem SearchState.Tree.readsBack (h : s.Tree problem) {k : Nat} {cell : Fin n} {label : Label n}
    (hl : s.labels.get cell = some label) (hk : label.cost = k) :
    s.ReadsBack problem.start cell (s.traceBack k cell) := by
  induction k generalizing cell label with
  | zero =>
      cases h.eq_start hl hk
      exact .arrive
  | succ k ih =>
      obtain ⟨parent, above, hp, ha, hak, _⟩ := h.exists_parent hl hk
      have hne : cell ≠ problem.start := by
        intro e
        have hzero := h.start
        rw [← e, hl, Option.some.injEq] at hzero
        rw [hzero] at hk
        cases hk
      rw [traceBack_succ hl hp]
      refine .follow hne ?_ (ih ha hak)
      rw [hl]
      exact hp

theorem SearchState.Tree.length_traceBack (h : s.Tree problem) {cell : Fin n} {label : Label n}
    (hl : s.labels.get cell = some label) :
    (s.traceBack label.cost cell).length = label.cost + 1 :=
  List.length_reverse.symm.trans (h.isRoute hl rfl).1.length

namespace Problem

/-! ## 4. Turns and rounds -/

/-- What is left of the rounds after a run leads to what all rounds lead to. -/
theorem Run.rounds_eq (h : problem.Run log s) :
    problem.rounds (n + 1 - s.expanded) s = problem.solve := by
  induction h with
  | start => rfl
  | @turn log s t expanded hr ht ih =>
      have hle := hr.reached.counts.expanded_le
      obtain ⟨left, hleft⟩ : ∃ left, n + 1 - s.expanded = left + 1 := ⟨n - s.expanded, by omega⟩
      rw [← ih, hleft]
      cases ht with
      | pass entry others hf hs =>
          have hsame : n + 1 - (s.pass others).expanded = left + 1 := hleft
          rw [hsame, rounds, rounds, SearchState.dropStale_of_stale hf hs]
      | expand entry others t hf hs hg ht =>
          have hone : n + 1 - t.expanded = left := by
            have : t.expanded = s.expanded + 1 := (visitAll_frame ht).2
            omega
          rw [hone, rounds]
          simp only [SearchState.dropStale_of_live hf hs, hf, if_neg hg, ht]

/-- **A search goes on or halts**, and if it halts, then with the result of `Problem.solve`. -/
theorem Run.turns_or_halts (h : problem.Run log s) :
    (∃ expanded t, problem.Turn s expanded t) ∨ problem.Halts s problem.solve := by
  have hle := h.reached.counts.expanded_le
  obtain ⟨left, hleft⟩ : ∃ left, n + 1 - s.expanded = left + 1 := ⟨n - s.expanded, by omega⟩
  have hsolve := h.rounds_eq
  rw [hleft, rounds] at hsolve
  cases hf : s.frontier with
  | nil =>
      simp only [SearchState.dropStale_of_nil hf, hf] at hsolve
      exact Or.inr (hsolve ▸ .exhausted hf)
  | cons entry others =>
      cases hs : s.isStale entry with
      | true => exact Or.inl ⟨none, _, .pass entry others hf hs⟩
      | false =>
          simp only [SearchState.dropStale_of_live hf hs, hf] at hsolve
          by_cases hg : entry.cell = problem.goal
          · obtain ⟨label, hl, hcost⟩ := SearchState.isStale_eq_false_iff.mp hs
            rw [if_pos hg, SearchState.route, hg, ← hcost] at hsolve
            rw [hg] at hl
            exact Or.inr (hsolve ▸ .found entry others label _ hf hs hg hl
              (h.reached.tree.readsBack hl rfl))
          · rw [if_neg hg] at hsolve
            cases he : problem.expand entry { s with frontier := others } with
            | ok t => exact Or.inl ⟨_, t, .expand entry others t hf hs hg he⟩
            | error error =>
                simp only [he] at hsolve
                exact Or.inr (hsolve ▸ .escaped entry others error hf hs hg he)

end Problem

end Wayfinding
