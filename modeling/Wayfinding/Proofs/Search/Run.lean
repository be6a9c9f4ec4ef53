import Wayfinding.Proofs.Search.Invariant

/-!
# Runs of a search

* `Problem.Round` is a round that expands a cell, `Problem.Ends` the three ways in which a search
  ends: nothing is left to expand, the goal is next, or a move leaves the grid.
* `Problem.exists_ends_solve`: every search ends in one of these ways, after rounds that are
  sequences of steps. There are never more rounds than `Problem.solve` allows.
* `SearchState.Explored`: between two rounds every settled cell has all its moves made.
* `Both` relates what two searches come to that run side by side.
-/

namespace Wayfinding

variable {n : Nat} {problem : Problem n} {s t : SearchState n}

/-! ## 1. Stale entries -/

namespace SearchState

variable {entry : Entry n} {others : Frontier n}

theorem dropStale_of_stale (hf : s.frontier = entry :: others) (hs : s.isStale entry = true) :
    s.dropStale = (s.pass others).dropStale := by
  have same : (s.pass others).isStale = s.isStale := rfl
  simp only [dropStale, hf, List.dropWhile_cons, List.takeWhile_cons, hs, if_true,
    List.length_cons, frontier_pass, same]
  simp only [pass, Nat.add_assoc, Nat.add_comm 1]

theorem dropStale_of_live (hf : s.frontier = entry :: others) (hs : s.isStale entry = false) :
    s.dropStale = s := by
  simp only [dropStale, hf, List.dropWhile_cons, List.takeWhile_cons, hs, Bool.false_eq_true,
    if_false, List.length_nil, Nat.add_zero]
  rw [← hf]

theorem dropStale_of_nil (hf : s.frontier = []) : s.dropStale = s := by
  simp only [dropStale, hf, List.dropWhile_nil, List.takeWhile_nil, List.length_nil, Nat.add_zero]
  rw [← hf]

theorem steps_dropStale (problem : Problem n) (s : SearchState n) :
    Relation.ReflTransGen problem.Step s s.dropStale := by
  generalize hl : s.frontier = l
  induction l generalizing s with
  | nil => rw [dropStale_of_nil hl]
  | cons first rest ih =>
      cases hs : s.isStale first with
      | true =>
          rw [dropStale_of_stale hl hs]
          exact .head (.pass s first rest hl hs) (ih (s.pass rest) rfl)
      | false => rw [dropStale_of_live hl hs]

/-- The next entry after the stale ones is not stale. -/
theorem isStale_dropStale (h : s.dropStale.frontier = entry :: others) :
    s.dropStale.isStale entry = false := by
  have hhead := List.head?_dropWhile_not s.isStale s.frontier
  rw [show s.frontier.dropWhile s.isStale = entry :: others from h] at hhead
  exact hhead

/-- The next entry after the stale ones has the cost of the label of its cell. -/
theorem exists_label_dropStale (h : s.dropStale.frontier = entry :: others) :
    ∃ label, s.labels.get entry.cell = some label ∧ label.cost = entry.cost :=
  isStale_eq_false_iff.mp (isStale_dropStale h)

end SearchState

/-! ## 2. The moves of one expansion -/

/-- The cell `next` is settled, or it is known at no more than one above the cost of `cell`. -/
def SearchState.Covers (s : SearchState n) (cell next : Fin n) : Prop :=
  s.settled.get next = true ∨ ∃ above label, s.labels.get cell = some above ∧
    s.labels.get next = some label ∧ label.cost ≤ above.cost + 1

theorem SearchState.Covers.extends {cell next : Fin n} (h : s.Covers cell next)
    (hc : s.settled.get cell = true) (he : s.Extends t) : t.Covers cell next := by
  rcases h with h | ⟨above, label, ha, hl, hle⟩
  · exact Or.inl (he.settled next h)
  · obtain ⟨label', hl', hle'⟩ := he.cheaper next label hl
    exact Or.inr ⟨above, label', (he.same cell hc).trans ha, hl', hle'.trans hle⟩

namespace Problem

variable {cell next : Fin n} {label : Label n} {offsets : List Int}

/-- **What one legal move does**: it is a step or nothing, and covers the cell that it leads to. -/
theorem steps_visit (problem : Problem n) (hl : s.labels.get cell = some label)
    (hc : s.settled.get cell = true)
    (hm : ∃ offset ∈ problem.offsets, (next.val : Int) = cell.val + offset) :
    Relation.ReflTransGen problem.Step s (problem.visit cell label.cost next s) ∧
      (problem.blocked.get next = false →
        (problem.visit cell label.cost next s).Covers cell next) := by
  unfold visit
  by_cases hb : (problem.blocked.get next || s.settled.get next) = true
  · rw [if_pos hb]
    refine ⟨.refl, fun hopen => Or.inl ?_⟩
    rwa [hopen, Bool.false_or] at hb
  · rw [if_neg hb]
    obtain ⟨hopen, hn⟩ := Bool.or_eq_false_iff.mp (Bool.not_eq_true _ ▸ hb)
    by_cases hi : improves (label.cost + 1) (s.labels.get next) = true
    · rw [if_pos hi]
      refine ⟨.single (.discover s cell next label hl hc ⟨hopen, hm⟩ hn hi), fun _ => Or.inr ?_⟩
      exact ⟨label, ⟨label.cost + 1, some cell⟩,
        (labels_discover_of_ne (SearchState.ne_of_settled hc hn)).trans hl, labels_discover_self,
        Nat.le_refl _⟩
    · rw [if_neg hi]
      refine ⟨.refl, fun _ => Or.inr ?_⟩
      cases hk : s.labels.get next with
      | none =>
          rw [hk] at hi
          exact absurd rfl hi
      | some known =>
          rw [improves_iff] at hi
          push Not at hi
          obtain ⟨known', hk', hle⟩ := hi
          cases hk.symm.trans hk'
          exact ⟨label, known, hl, rfl, hle⟩

/-- A move changes nothing, or it is a discovery. -/
theorem visit_eq_or_discover (problem : Problem n) (cell : Fin n) (cost : Nat) (next : Fin n)
    (s : SearchState n) : problem.visit cell cost next s = s ∨
      problem.visit cell cost next s = problem.discover next cell (cost + 1) s := by
  unfold visit
  split
  · exact Or.inl rfl
  · split
    · exact Or.inr rfl
    · exact Or.inl rfl

theorem visit_frame (problem : Problem n) (cell : Fin n) (cost : Nat) (next : Fin n)
    (s : SearchState n) : (problem.visit cell cost next s).settled = s.settled ∧
      (problem.visit cell cost next s).expanded = s.expanded := by
  rcases visit_eq_or_discover problem cell cost next s with h | h
  · rw [h]
    exact ⟨rfl, rfl⟩
  · rw [h]
    exact ⟨rfl, rfl⟩

/-- The first of several moves that succeed stays in the grid, and the others go on from there. -/
theorem visitAll_cons_ok {cost : Nat} {offset : Int}
    (h : problem.visitAll cell cost (offset :: offsets) s = .ok t) :
    ∃ next, moveBy cell offset = some next ∧
      problem.visitAll cell cost offsets (problem.visit cell cost next s) = .ok t := by
  rw [visitAll] at h
  cases hmove : moveBy cell offset with
  | none =>
      rw [hmove] at h
      cases h
  | some next =>
      rw [hmove] at h
      exact ⟨next, rfl, h⟩

/-- Moves that all stay in the grid are steps and cover every cell they lead to. -/
theorem steps_visitAll (hl : s.labels.get cell = some label) (hc : s.settled.get cell = true)
    (ho : ∀ offset ∈ offsets, offset ∈ problem.offsets)
    (h : problem.visitAll cell label.cost offsets s = .ok t) :
    Relation.ReflTransGen problem.Step s t ∧ ∀ offset ∈ offsets, ∃ next,
      moveBy cell offset = some next ∧ (problem.blocked.get next = false → t.Covers cell next) := by
  induction offsets generalizing s with
  | nil =>
      cases h
      exact ⟨.refl, fun offset hoff => absurd hoff List.not_mem_nil⟩
  | cons offset others ih =>
      obtain ⟨next, hmove, hothers⟩ := visitAll_cons_ok h
      obtain ⟨hsteps, hcovers⟩ := steps_visit problem hl hc
        ⟨offset, ho offset List.mem_cons_self, moveBy_eq_some_iff.mp hmove⟩
      have hext := SearchState.Extends.of_steps hsteps
      obtain ⟨hrest, hall⟩ := ih ((hext.same cell hc).trans hl) (hext.settled cell hc)
        (fun o hoff => ho o (List.mem_cons_of_mem _ hoff)) hothers
      refine ⟨hsteps.trans hrest, ?_⟩
      intro o hoff
      rcases List.mem_cons.mp hoff with rfl | hoff
      · exact ⟨next, hmove, fun hopen => (hcovers hopen).extends (hext.settled cell hc)
          (SearchState.Extends.of_steps hrest)⟩
      · exact hall o hoff

/-- Moves settle no cell. -/
theorem visitAll_frame {cost : Nat} (h : problem.visitAll cell cost offsets s = .ok t) :
    t.settled = s.settled ∧ t.expanded = s.expanded := by
  induction offsets generalizing s with
  | nil =>
      cases h
      exact ⟨rfl, rfl⟩
  | cons offset others ih =>
      obtain ⟨next, _, hothers⟩ := visitAll_cons_ok h
      obtain ⟨hsettled, hexpanded⟩ := ih hothers
      obtain ⟨hvisit, hvisit'⟩ := visit_frame problem cell cost next s
      exact ⟨hsettled.trans hvisit, hexpanded.trans hvisit'⟩

/-- Moves fail only where one of them leaves the grid. -/
theorem visitAll_error {cost : Nat} {error : Error}
    (h : problem.visitAll cell cost offsets s = .error error) :
    ∃ offset ∈ offsets, moveBy cell offset = none ∧ error = .escape cell offset n := by
  induction offsets generalizing s with
  | nil => cases h
  | cons offset others ih =>
      rw [visitAll] at h
      cases hmove : moveBy cell offset with
      | none =>
          rw [hmove] at h
          cases h
          exact ⟨offset, List.mem_cons_self, hmove, rfl⟩
      | some next =>
          rw [hmove] at h
          obtain ⟨o, ho, hnone, he⟩ := ih h
          exact ⟨o, List.mem_cons_of_mem _ ho, hnone, he⟩

end Problem

/-! ## 3. Rounds -/

/-- A round that is not the last one: the next entry that is not stale is expanded. -/
def Problem.Round (problem : Problem n) (s t : SearchState n) : Prop :=
  ∃ entry others, s.dropStale.frontier = entry :: others ∧ entry.cell ≠ problem.goal ∧
    problem.expand entry { s.dropStale with frontier := others } = .ok t

/-- What a round does: the cell of the next entry that is not stale is closed, and then all its
moves are made. -/
structure Problem.Expansion (problem : Problem n) (s t : SearchState n) (entry : Entry n)
    (others : Frontier n) (label : Label n) : Prop where
  frontier : s.dropStale.frontier = entry :: others
  not_goal : entry.cell ≠ problem.goal
  known : s.labels.get entry.cell = some label
  cost : label.cost = entry.cost
  steps : Relation.ReflTransGen problem.Step (s.dropStale.close entry others) t
  settled : t.settled = (s.dropStale.close entry others).settled
  expanded : t.expanded = s.expanded + 1
  covers : ∀ offset ∈ problem.offsets, ∃ next, moveBy entry.cell offset = some next ∧
    (problem.blocked.get next = false → t.Covers entry.cell next)

/-- The last round: what it finds, and why it is the last. -/
inductive Problem.Ends (problem : Problem n) (s : SearchState n) :
    Except Error (Outcome n) → Prop where
  | exhausted (hf : s.dropStale.frontier = []) : Ends problem s (.ok (s.dropStale.outcome none))
  | found (entry : Entry n) (others : Frontier n) (hf : s.dropStale.frontier = entry :: others)
      (hg : entry.cell = problem.goal) :
      Ends problem s (.ok (s.dropStale.outcome (some (s.dropStale.route entry.cell entry.cost))))
  | escaped (entry : Entry n) (others : Frontier n) (error : Error)
      (hf : s.dropStale.frontier = entry :: others) (hg : entry.cell ≠ problem.goal)
      (he : problem.expand entry { s.dropStale with frontier := others } = .error error) :
      Ends problem s (.error error)

namespace Problem

/-- **A round closes one cell and makes all its moves.** -/
theorem Round.expansion (h : problem.Round s t) :
    ∃ entry others label, problem.Expansion s t entry others label := by
  obtain ⟨entry, others, hf, hg, he⟩ := h
  obtain ⟨label, hl, hcost⟩ := SearchState.exists_label_dropStale hf
  have hl' : (s.dropStale.close entry others).labels.get entry.cell = some label := hl
  have hset : (s.dropStale.close entry others).settled.get entry.cell = true :=
    SearchState.settled_close.mpr (Or.inl rfl)
  have hall : problem.visitAll entry.cell label.cost problem.offsets
      (s.dropStale.close entry others) = .ok t := by
    rw [hcost]
    exact he
  obtain ⟨hsteps, hcovers⟩ := steps_visitAll hl' hset (fun _ ho => ho) hall
  obtain ⟨hsettled, hexpanded⟩ := visitAll_frame hall
  exact ⟨entry, others, label, hf, hg, hl, hcost, hsteps, hsettled, hexpanded, hcovers⟩

theorem Expansion.settled_iff {entry : Entry n} {others : Frontier n} {label : Label n}
    {cell : Fin n} (h : problem.Expansion s t entry others label) :
    t.settled.get cell = true ↔ cell = entry.cell ∨ s.settled.get cell = true := by
  rw [h.settled]
  exact SearchState.settled_close

/-- A cell that is settled after a round was closed in it, at the cost of the entry, or was settled
before with the same label. -/
theorem Expansion.settled_cases {entry : Entry n} {others : Frontier n} {known label : Label n}
    {cell : Fin n} (h : problem.Expansion s t entry others known)
    (hset : t.settled.get cell = true) (hl : t.labels.get cell = some label) :
    cell = entry.cell ∧ label.cost = entry.cost ∨
      s.settled.get cell = true ∧ s.labels.get cell = some label := by
  have hclosed : (s.dropStale.close entry others).settled.get cell = true := h.settled ▸ hset
  have hsame : s.labels.get cell = some label :=
    ((SearchState.Extends.of_steps h.steps).same cell hclosed).symm.trans hl
  rcases h.settled_iff.mp hset with rfl | hold
  · have hlabel : label = known := Option.some.inj (hsame.symm.trans h.known)
    exact Or.inl ⟨rfl, hlabel ▸ h.cost⟩
  · exact Or.inr ⟨hold, hsame⟩

theorem Round.steps (h : problem.Round s t) : Relation.ReflTransGen problem.Step s t := by
  obtain ⟨entry, others, label, h⟩ := h.expansion
  exact ((SearchState.steps_dropStale problem s).tail (.close _ entry others h.frontier
    (SearchState.isStale_dropStale h.frontier) h.not_goal)).trans h.steps

/-- An expansion fails only where a move of its cell leaves the grid. -/
theorem expand_error {entry : Entry n} {error : Error} (h : problem.expand entry s = .error error) :
    ∃ offset ∈ problem.offsets, moveBy entry.cell offset = none ∧
      error = .escape entry.cell offset n :=
  visitAll_error h

theorem rounds_ends (left : Nat) (hr : problem.Reached s) (hn : n < left + s.expanded) :
    ∃ t, Relation.ReflTransGen problem.Round s t ∧ problem.Ends t (problem.rounds left s) := by
  induction left generalizing s with
  | zero =>
      have := (Reached.counts hr).expanded_le
      omega
  | succ left ih =>
      simp only [rounds]
      cases hf : s.dropStale.frontier with
      | nil => exact ⟨s, .refl, .exhausted hf⟩
      | cons entry others =>
          by_cases hg : entry.cell = problem.goal
          · simp only [if_pos hg]
            exact ⟨s, .refl, .found entry others hf hg⟩
          · simp only [if_neg hg]
            cases he : problem.expand entry { s.dropStale with frontier := others } with
            | error error => exact ⟨s, .refl, .escaped entry others error hf hg he⟩
            | ok t =>
                have hround : problem.Round s t := ⟨entry, others, hf, hg, he⟩
                obtain ⟨_, _, _, hexp⟩ := hround.expansion
                have hmore := hexp.expanded
                obtain ⟨u, hrounds, hends⟩ := ih (hr.trans hround.steps) (by omega)
                exact ⟨u, .head hround hrounds, hends⟩

/-- Once there are more rounds than cells left to expand, further ones change nothing. -/
theorem rounds_add {left : Nat} (hr : problem.Reached s) (hn : n < left + s.expanded)
    (more : Nat) : problem.rounds (left + more) s = problem.rounds left s := by
  induction left generalizing s with
  | zero =>
      have := (Reached.counts hr).expanded_le
      omega
  | succ left ih =>
      rw [Nat.add_right_comm]
      simp only [rounds]
      cases hf : s.dropStale.frontier with
      | nil => rfl
      | cons entry others =>
          by_cases hg : entry.cell = problem.goal
          · simp only [if_pos hg]
          · simp only [if_neg hg]
            cases he : problem.expand entry { s.dropStale with frontier := others } with
            | error error => rfl
            | ok t =>
                have hround : problem.Round s t := ⟨entry, others, hf, hg, he⟩
                obtain ⟨_, _, _, hexp⟩ := hround.expansion
                have hmore := hexp.expanded
                exact ih (hr.trans hround.steps) (by omega)

/-- The states between the rounds of a search. -/
def AtRound (problem : Problem n) (s : SearchState n) : Prop :=
  Relation.ReflTransGen problem.Round problem.initial s

theorem AtRound.reached (h : problem.AtRound s) : problem.Reached s := by
  induction h with
  | refl => exact .refl
  | tail _ hs ih => exact ih.trans hs.steps

theorem AtRound.reached_dropStale (h : problem.AtRound s) : problem.Reached s.dropStale :=
  h.reached.trans (SearchState.steps_dropStale problem s)

/-- **Every search ends**, in one of three ways, after rounds that each expanded a cell. -/
theorem exists_ends_solve (problem : Problem n) :
    ∃ s, problem.AtRound s ∧ problem.Ends s problem.solve :=
  rounds_ends (n + 1) .refl (by omega)

/-- A search that does not fail ends with nothing left to expand, or with the goal next. -/
theorem solve_ok_cases {outcome : Outcome n} (h : problem.solve = .ok outcome) :
    ∃ s, problem.AtRound s ∧ outcome.expanded = s.expanded ∧
      ((s.dropStale.frontier = [] ∧ outcome.route = none) ∨
        ∃ entry others label, s.dropStale.frontier = entry :: others ∧
          entry.cell = problem.goal ∧ s.labels.get problem.goal = some label ∧
          label.cost = entry.cost ∧
          outcome.route = some (s.dropStale.route problem.goal label.cost)) := by
  obtain ⟨s, hs, hends⟩ := exists_ends_solve problem
  rw [h] at hends
  cases hends with
  | exhausted hf => exact ⟨s, hs, rfl, Or.inl ⟨hf, rfl⟩⟩
  | found entry others hf hg =>
      obtain ⟨label, hl, hcost⟩ := SearchState.exists_label_dropStale hf
      have hgoal : s.labels.get problem.goal = some label := hg ▸ hl
      refine ⟨s, hs, rfl, Or.inr ⟨entry, others, label, hf, hg, hgoal, hcost, ?_⟩⟩
      rw [hcost, ← hg]
      rfl

/-- A search fails only where a move from a cell that it expands leaves the grid. -/
theorem solve_error_cases {error : Error} (h : problem.solve = .error error) :
    ∃ s cell label, problem.AtRound s ∧ s.labels.get cell = some label ∧ cell ≠ problem.goal ∧
      ∃ offset ∈ problem.offsets, moveBy cell offset = none ∧ error = .escape cell offset n := by
  obtain ⟨s, hs, hends⟩ := exists_ends_solve problem
  rw [h] at hends
  cases hends with
  | escaped entry others error hf hg he =>
      obtain ⟨label, hl, _⟩ := SearchState.exists_label_dropStale hf
      exact ⟨s, entry.cell, label, hs, hl, hg, expand_error he⟩

end Problem

/-- A search of a grid that does not fail is one of valid ends and a table that fits. -/
theorem Grid.search_ok {grid : Grid} {offsets : List Int} {start goal : Nat}
    {estimates : Array Nat} {formula : Formula} {outcome : Outcome grid.size}
    (h : grid.search offsets start goal estimates formula = .ok outcome) :
    ∃ (hs : start < grid.size) (hg : goal < grid.size) (he : estimates.size = grid.size),
      Problem.solve ⟨grid.blocked, offsets, ⟨estimates, he⟩, formula.priority, ⟨start, hs⟩,
        ⟨goal, hg⟩⟩ = .ok outcome := by
  unfold search checkIndex at h
  by_cases hs : start < grid.size
  · rw [dif_pos hs] at h
    by_cases hg : goal < grid.size
    · rw [dif_pos hg] at h
      by_cases he : estimates.size = grid.size
      · exact ⟨hs, hg, he, by simpa only [bind, Except.bind, dif_pos he] using h⟩
      · simp only [bind, Except.bind, dif_neg he] at h
        cases h
    · rw [dif_neg hg] at h
      cases h
  · rw [dif_neg hs] at h
    cases h

/-! ## 4. Between the rounds -/

/-- Every settled cell has its moves made: each stays in the grid, and where it leads to a cell
without an obstacle it covers that cell. -/
def SearchState.Explored (problem : Problem n) (s : SearchState n) : Prop :=
  ∀ cell : Fin n, s.settled.get cell = true → ∀ offset ∈ problem.offsets, ∃ next,
    moveBy cell offset = some next ∧ (problem.blocked.get next = false → s.Covers cell next)

theorem SearchState.Explored.round (h : s.Explored problem) (hr : problem.Round s t) :
    t.Explored problem := by
  intro cell hc offset ho
  obtain ⟨entry, others, label, he⟩ := hr.expansion
  rcases he.settled_iff.mp hc with rfl | hold
  · exact he.covers offset ho
  · obtain ⟨next, hmove, hcov⟩ := h cell hold offset ho
    exact ⟨next, hmove, fun hopen => (hcov hopen).extends hold (.of_steps hr.steps)⟩

theorem Problem.AtRound.explored (h : problem.AtRound s) : s.Explored problem := by
  induction h with
  | refl =>
      intro cell hc
      rw [settled_initial] at hc
      cases hc
  | tail _ hs ih => exact ih.round hs

/-- A legal move from a settled cell covers the cell that it leads to. -/
theorem SearchState.Explored.covers (h : s.Explored problem) {cell next : Fin n}
    (hc : s.settled.get cell = true) (hm : LegalMove problem.blocked problem.offsets cell next) :
    s.Covers cell next := by
  obtain ⟨hopen, offset, ho, hmove⟩ := hm
  obtain ⟨next', hnext, hcov⟩ := h cell hc offset ho
  rw [moveBy_eq_some_iff.mpr hmove, Option.some.injEq] at hnext
  exact hnext ▸ hcov (hnext ▸ hopen)

/-! ## 5. Two runs side by side -/

/-- Both fail with the same error, or both succeed with results that are related. -/
inductive Both {ε α β : Type} (related : α → β → Prop) : Except ε α → Except ε β → Prop where
  | error (error : ε) : Both related (.error error) (.error error)
  | ok {a : α} {b : β} (h : related a b) : Both related (.ok a) (.ok b)

end Wayfinding
