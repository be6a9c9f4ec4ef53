import Wayfinding.Proofs.Search.Run

/-!
# Replacing entries at once

* `EagerState` is a search that keeps at most one open entry for each cell. A cheaper way replaces
  the entry of the cell (`Problem.discoverEagerly`), so nothing stale is left behind. Among all open
  entries the one that comes before the others is next (`EagerState.next?`).
* `Agrees s e`: both searches know the same, and the open entries are those of the frontier that are
  not stale. Every step of the one is matched by one of the other.
* `search_eq_searchEagerly`: so passing over stale entries finds what replacing them at once finds.
-/

namespace Wayfinding

open SearchState (isStale_eq_false_iff)

variable {n : Nat}

/-! ## 1. The search with one entry for each cell -/

/-- A search under way that has at most one open entry for each cell, the one in `opened`. -/
structure EagerState (n : Nat) where
  labels : Vector (Option (Label n)) n
  settled : Vector Bool n
  opened : Vector (Option (Entry n)) n
  serial : Nat
  expanded : Nat

namespace EagerState

/-- A single cell is discovered, at no cost and with the given priority. -/
def single (cell : Fin n) (priority : Float) : EagerState n where
  labels := (Vector.replicate n none).set cell (some ⟨0, none⟩) cell.isLt
  settled := Vector.replicate n false
  opened := (Vector.replicate n none).set cell (some ⟨priority, 0, 0, cell⟩) cell.isLt
  serial := 0
  expanded := 0

/-- All open entries. -/
def entries (e : EagerState n) : List (Entry n) :=
  (List.finRange n).filterMap e.opened.get

/-- The open entry that comes before all others. -/
def next? (e : EagerState n) : Option (Entry n) :=
  e.entries.find? fun entry =>
    e.entries.all fun other => decide (other = entry) || entry.before other

/-- Settles a cell, which has no open entry from then on. -/
def settle (e : EagerState n) (cell : Fin n) : EagerState n :=
  { e with
    settled := e.settled.set cell true cell.isLt
    opened := e.opened.set cell none cell.isLt
    expanded := e.expanded + 1 }

/-- The cells on the best known way to `cell`, from there back over at most `steps` moves. -/
def traceBack (e : EagerState n) : Nat → Fin n → List (Fin n)
  | 0, cell => [cell]
  | steps + 1, cell =>
    match (e.labels.get cell).bind Label.parent with
    | none => [cell]
    | some parent => cell :: e.traceBack steps parent

/-- The way to a cell at a cost, which is the number of its moves. -/
def route (e : EagerState n) (cell : Fin n) (cost : Nat) : Route n :=
  ⟨cost, (e.traceBack cost cell).reverse⟩

end EagerState

namespace Problem

/-- A way to `next` of the given cost, over `parent`, is the best one so far. Its entry takes the
place of the one that the cell had. -/
def discoverEagerly (problem : Problem n) (next parent : Fin n) (cost : Nat) (e : EagerState n) :
    EagerState n :=
  { e with
    labels := e.labels.set next (some ⟨cost, some parent⟩) next.isLt
    serial := e.serial + 1
    opened := e.opened.set next
      (some ⟨problem.priority cost (problem.estimates.get next), cost, e.serial + 1, next⟩)
      next.isLt }

/-- A move from `cell`, reached at the given cost, to `next`. -/
def visitEagerly (problem : Problem n) (cell : Fin n) (cost : Nat) (next : Fin n)
    (e : EagerState n) : EagerState n :=
  if problem.blocked.get next || e.settled.get next then e
  else if improves (cost + 1) (e.labels.get next) then
    problem.discoverEagerly next cell (cost + 1) e
  else e

/-- All moves from `cell`, reached at the given cost. None of them may leave the grid. -/
def visitAllEagerly (problem : Problem n) (cell : Fin n) (cost : Nat) :
    List Int → EagerState n → Except Error (EagerState n)
  | [], e => .ok e
  | offset :: others, e =>
    match moveBy cell offset with
    | none => .error (.escape cell offset n)
    | some next =>
      visitAllEagerly problem cell cost others (problem.visitEagerly cell cost next e)

/-- The search before its first round: only the start is discovered. -/
def initialEagerly (problem : Problem n) : EagerState n :=
  .single problem.start (problem.priority 0 (problem.estimates.get problem.start))

/-- Expands the next entry until it is the goal or there is none, for at most so many rounds. The
result is the route, if there is one, and the number of cells that were expanded. -/
def roundsEagerly (problem : Problem n) :
    Nat → EagerState n → Except Error (Option (Route n) × Nat)
  | 0, e => .ok (none, e.expanded)
  | left + 1, e =>
    match e.next? with
    | none => .ok (none, e.expanded)
    | some entry =>
      if entry.cell = problem.goal then .ok (some (e.route entry.cell entry.cost), e.expanded)
      else
        match problem.visitAllEagerly entry.cell entry.cost problem.offsets
            (e.settle entry.cell) with
        | .error error => .error error
        | .ok next => problem.roundsEagerly left next

/-- Searches until the goal is reached or nothing is left to expand. -/
def solveEagerly (problem : Problem n) : Except Error (Option (Route n) × Nat) :=
  problem.roundsEagerly (n + 1) problem.initialEagerly

end Problem

/-- Searches a grid from one cell number to another, with one open entry for each cell. -/
def Grid.searchEagerly (grid : Grid) (offsets : List Int) (start goal : Nat)
    (estimates : Array Nat) (formula : Formula) :
    Except Error (Option (Route grid.size) × Nat) := do
  let start ← grid.checkIndex .start start
  let goal ← grid.checkIndex .goal goal
  if h : estimates.size = grid.size then
    Problem.solveEagerly ⟨grid.blocked, offsets, ⟨estimates, h⟩, formula.priority, start, goal⟩
  else .error (.tableSize .heuristic grid.size estimates.size)

/-! ## 2. Agreement -/

/-- Both searches know the same. The open entries are those of the frontier that are not stale. -/
structure Agrees (s : SearchState n) (e : EagerState n) : Prop where
  labels : e.labels = s.labels
  settled : e.settled = s.settled
  serial : e.serial = s.serial
  expanded : e.expanded = s.expanded
  opened : ∀ (cell : Fin n) (entry : Entry n), e.opened.get cell = some entry ↔
    entry ∈ s.frontier ∧ entry.cell = cell ∧ s.isStale entry = false

variable {problem : Problem n} {s t : SearchState n} {e : EagerState n}

namespace EagerState

theorem mem_entries {entry : Entry n} :
    entry ∈ e.entries ↔ ∃ cell, e.opened.get cell = some entry := by
  simp [entries]

/-- The next entry is the one that comes before all others. -/
theorem next?_eq_some {entry : Entry n} (hin : entry ∈ e.entries)
    (hfirst : ∀ other ∈ e.entries, other = entry ∨ entry.before other = true) :
    e.next? = some entry := by
  have hall (x : Entry n) : (e.entries.all fun other => decide (other = x) || x.before other) = true ↔
      ∀ other ∈ e.entries, other = x ∨ x.before other = true := by
    simp only [List.all_eq_true, Bool.or_eq_true, decide_eq_true_eq]
  unfold next?
  cases hfind : e.entries.find? fun x =>
      e.entries.all fun other => decide (other = x) || x.before other with
  | none => exact absurd ((hall entry).mpr hfirst) (List.find?_eq_none.mp hfind entry hin)
  | some x =>
      have hpicked := List.find?_some hfind
      have hx := (hall x).mp hpicked entry hin
      rcases hfirst x (List.mem_of_find?_eq_some hfind) with rfl | hafter
      · rfl
      · rcases hx with rfl | hbefore
        · rfl
        · exact absurd (Entry.before_iff.mp hbefore) (Entry.before_iff.mp hafter).asymm

theorem next?_eq_none (h : e.entries = []) : e.next? = none := by
  rw [next?, h]
  rfl

end EagerState

namespace Agrees

theorem initial (problem : Problem n) : Agrees problem.initial problem.initialEagerly where
  labels := rfl
  settled := rfl
  serial := rfl
  expanded := rfl
  opened cell entry := by
    have hset : problem.initialEagerly.opened.get cell = if cell = problem.start then
        some ⟨problem.priority 0 (problem.estimates.get problem.start), 0, 0, problem.start⟩
        else none := by
      simp [Problem.initialEagerly, EagerState.single, get_set]
    rw [hset]
    by_cases hcell : cell = problem.start
    · rw [if_pos hcell, Option.some.injEq]
      constructor
      · rintro rfl
        refine ⟨List.mem_singleton_self _, hcell.symm, isStale_eq_false_iff.mpr ⟨⟨0, none⟩, ?_, rfl⟩⟩
        rw [Problem.labels_initial, if_pos rfl]
      · rintro ⟨hin, -⟩
        exact (List.mem_singleton.mp hin).symm
    · rw [if_neg hcell]
      refine iff_of_false nofun ?_
      rintro ⟨hin, hentry, -⟩
      cases List.mem_singleton.mp hin
      exact hcell hentry.symm

/-- Stale entries do not matter. -/
theorem dropStale (h : Agrees s e) : Agrees s.dropStale e where
  labels := h.labels
  settled := h.settled
  serial := h.serial
  expanded := h.expanded
  opened cell entry := by
    have hsplit : s.frontier.takeWhile s.isStale ++ s.dropStale.frontier = s.frontier :=
      List.takeWhile_append_dropWhile
    rw [h.opened, ← hsplit, List.mem_append]
    constructor
    · rintro ⟨hin | hin, hcell, hlive⟩
      · have hstale := List.mem_takeWhile_imp hin
        rw [hlive] at hstale
        cases hstale
      · exact ⟨hin, hcell, hlive⟩
    · rintro ⟨hin, hcell, hlive⟩
      exact ⟨Or.inr hin, hcell, hlive⟩

theorem mem_entries (h : Agrees s e) {entry : Entry n} :
    entry ∈ e.entries ↔ entry ∈ s.frontier ∧ s.isStale entry = false := by
  rw [EagerState.mem_entries]
  constructor
  · rintro ⟨cell, hopened⟩
    obtain ⟨hin, -, hlive⟩ := (h.opened cell entry).mp hopened
    exact ⟨hin, hlive⟩
  · rintro ⟨hin, hlive⟩
    exact ⟨entry.cell, (h.opened entry.cell entry).mpr ⟨hin, rfl, hlive⟩⟩

theorem next?_eq_none (h : Agrees s e) (hf : s.frontier = []) : e.next? = none := by
  refine EagerState.next?_eq_none (List.eq_nil_iff_forall_not_mem.mpr fun entry hin => ?_)
  rw [h.mem_entries, hf] at hin
  exact List.not_mem_nil hin.1

/-- **Both searches choose the same entry**: the head of a sorted frontier comes before all others. -/
theorem next?_eq_some (h : Agrees s e) (hq : s.Queue problem) {entry : Entry n}
    {others : Frontier n} (hf : s.frontier = entry :: others) (hlive : s.isStale entry = false) :
    e.next? = some entry := by
  have hsorted := hq.sorted
  rw [hf] at hsorted
  refine EagerState.next?_eq_some (h.mem_entries.mpr ⟨hf ▸ List.mem_cons_self, hlive⟩) ?_
  intro other hin
  have hmem := (h.mem_entries.mp hin).1
  rw [hf] at hmem
  exact (List.mem_cons.mp hmem).imp_right fun ho => (List.pairwise_cons.mp hsorted).1 other ho

/-- **Closing the cell of the next entry keeps the agreement.** -/
theorem close (h : Agrees s e) (hq : s.Queue problem) {entry : Entry n} {others : Frontier n}
    (hf : s.frontier = entry :: others) (hlive : s.isStale entry = false) :
    Agrees (s.close entry others) (e.settle entry.cell) where
  labels := h.labels
  settled := congrArg (fun settled => settled.set entry.cell true) h.settled
  serial := h.serial
  expanded := congrArg (· + 1) h.expanded
  opened cell x := by
    have hset : (e.settle entry.cell).opened.get cell =
        if cell = entry.cell then none else e.opened.get cell := get_set _ _ _ _
    have hdistinct := hq.distinct
    rw [hf] at hdistinct
    rw [hset]
    by_cases hcell : cell = entry.cell
    · -- no other entry of the cell has the cost of its label
      rw [if_pos hcell]
      refine iff_of_false nofun ?_
      rintro ⟨hin, hx, hxlive⟩
      obtain ⟨label, hl, hcost⟩ := isStale_eq_false_iff.mp hlive
      obtain ⟨label', hl', hcost'⟩ := isStale_eq_false_iff.mp hxlive
      have hsame : x.cell = entry.cell := hx.trans hcell
      have hlabel : label' = label := by
        have hget : s.labels.get x.cell = some label' := hl'
        rw [hsame, hl, Option.some.injEq] at hget
        exact hget.symm
      refine (List.pairwise_cons.mp hdistinct).1 x hin hsame.symm ?_
      rw [← hcost, ← hcost', hlabel]
    · rw [if_neg hcell, h.opened, hf]
      constructor
      · rintro ⟨hin, hx, hxlive⟩
        rcases List.mem_cons.mp hin with rfl | hin
        · exact absurd hx.symm hcell
        · exact ⟨hin, hx, hxlive⟩
      · rintro ⟨hin, hx, hxlive⟩
        exact ⟨List.mem_cons_of_mem _ hin, hx, hxlive⟩

/-- **A discovery keeps the agreement**: what it replaces is stale from then on. -/
theorem discover (h : Agrees s e) (hq : s.Queue problem) {cell next : Fin n} {cost : Nat}
    (hi : Problem.improves cost (s.labels.get next) = true) :
    Agrees (problem.discover next cell cost s) (problem.discoverEagerly next cell cost e) where
  labels := congrArg (fun labels => labels.set next (some ⟨cost, some cell⟩)) h.labels
  settled := h.settled
  serial := congrArg (· + 1) h.serial
  expanded := h.expanded
  opened c x := by
    have hset : (problem.discoverEagerly next cell cost e).opened.get c =
        if c = next then some (problem.entryFor next cost s) else e.opened.get c := by
      rw [Problem.entryFor, ← h.serial]
      exact get_set _ _ _ _
    have hmem : x ∈ (problem.discover next cell cost s).frontier ↔
        x = problem.entryFor next cost s ∨ x ∈ s.frontier := Frontier.mem_push
    rw [hset, hmem, isStale_eq_false_iff]
    by_cases hc : c = next
    · rw [if_pos hc, Option.some.injEq]
      constructor
      · rintro rfl
        exact ⟨Or.inl rfl, hc.symm, _, Problem.labels_discover_self, rfl⟩
      · rintro ⟨rfl | hin, hx, label, hl, hcost⟩
        · rfl
        · have hlt := hq.cost_lt_of_improves hi hin (hx.trans hc)
          rw [hx.trans hc, Problem.labels_discover_self, Option.some.injEq] at hl
          rw [← hcost, ← hl] at hlt
          exact absurd hlt (lt_irrefl _)
    · rw [if_neg hc, h.opened, isStale_eq_false_iff]
      constructor
      · rintro ⟨hin, rfl, label, hl, hcost⟩
        exact ⟨Or.inr hin, rfl, label, (Problem.labels_discover_of_ne hc).trans hl, hcost⟩
      · rintro ⟨rfl | hin, rfl, label, hl, hcost⟩
        · exact absurd rfl hc
        · exact ⟨hin, rfl, label, (Problem.labels_discover_of_ne hc).symm.trans hl, hcost⟩

/-- The ways are traced back over the same labels. -/
theorem route_eq (h : Agrees s e) (cell : Fin n) (cost : Nat) :
    e.route cell cost = s.route cell cost := by
  have htrace (steps : Nat) (cell : Fin n) : e.traceBack steps cell = s.traceBack steps cell := by
    induction steps generalizing cell with
    | zero => rfl
    | succ steps ih =>
        rw [EagerState.traceBack, SearchState.traceBack, h.labels]
        cases (s.labels.get cell).bind Label.parent with
        | none => rfl
        | some parent => exact congrArg (cell :: ·) (ih parent)
  rw [EagerState.route, SearchState.route, htrace]

end Agrees

/-! ## 3. Runs in step -/

/-- What is compared of two searches: the route, and the number of cells that were expanded. -/
def Outcome.found (outcome : Outcome n) : Option (Route n) × Nat :=
  (outcome.route, outcome.expanded)

/-- The states agree, and the frontier is what it should be. -/
structure InStep (problem : Problem n) (s : SearchState n) (e : EagerState n) : Prop where
  queue : s.Queue problem
  agrees : Agrees s e

namespace Problem

variable {cell next : Fin n} {cost : Nat} {offsets : List Int}

theorem inStep_visit (h : InStep problem s e) (cell : Fin n) (cost : Nat) (next : Fin n) :
    InStep problem (problem.visit cell cost next s) (problem.visitEagerly cell cost next e) := by
  unfold visit visitEagerly
  rw [h.agrees.settled, h.agrees.labels]
  by_cases hb : (problem.blocked.get next || s.settled.get next) = true
  · rw [if_pos hb, if_pos hb]
    exact h
  · rw [if_neg hb, if_neg hb]
    by_cases hi : improves (cost + 1) (s.labels.get next) = true
    · rw [if_pos hi, if_pos hi]
      have hn := (Bool.or_eq_false_iff.mp (Bool.not_eq_true _ ▸ hb)).2
      exact ⟨h.queue.step_discover hn hi, h.agrees.discover h.queue hi⟩
    · rw [if_neg hi, if_neg hi]
      exact h

/-- **All moves of a cell are made in step**, up to the first one that leaves the grid. -/
theorem both_visitAll (h : InStep problem s e) (cell : Fin n) (cost : Nat) (offsets : List Int) :
    Both (InStep problem) (problem.visitAll cell cost offsets s)
      (problem.visitAllEagerly cell cost offsets e) := by
  induction offsets generalizing s e with
  | nil => exact .ok h
  | cons offset others ih =>
      rw [visitAll, visitAllEagerly]
      cases moveBy cell offset with
      | none => exact .error _
      | some next => exact ih (inStep_visit h cell cost next)

/-- **Every round is made in step**, whether it is the last one or not. -/
theorem rounds_found (h : InStep problem s e) (left : Nat) :
    (problem.rounds left s).map Outcome.found = problem.roundsEagerly left e := by
  induction left generalizing s e with
  | zero =>
      rw [roundsEagerly, h.agrees.expanded]
      rfl
  | succ left ih =>
      have hq : s.dropStale.Queue problem := h.queue.steps (SearchState.steps_dropStale problem s)
      have ha : Agrees s.dropStale e := h.agrees.dropStale
      simp only [rounds]
      cases hf : s.dropStale.frontier with
      | nil =>
          rw [roundsEagerly, ha.next?_eq_none hf, ha.expanded]
          rfl
      | cons entry others =>
          have hlive := SearchState.isStale_dropStale hf
          rw [roundsEagerly, ha.next?_eq_some hq hf hlive]
          by_cases hg : entry.cell = problem.goal
          · simp only [if_pos hg]
            rw [ha.route_eq, ha.expanded]
            rfl
          · simp only [if_neg hg]
            have hclosed : InStep problem (s.dropStale.close entry others) (e.settle entry.cell) :=
              ⟨hq.step_close hf hlive, ha.close hq hf hlive⟩
            have hmoves := both_visitAll hclosed entry.cell entry.cost problem.offsets
            change Both _ (problem.expand entry { s.dropStale with frontier := others }) _ at hmoves
            generalize problem.expand entry { s.dropStale with frontier := others } = lazy at hmoves ⊢
            generalize problem.visitAllEagerly entry.cell entry.cost problem.offsets
              (e.settle entry.cell) = eager at hmoves ⊢
            cases hmoves with
            | error error => rfl
            | ok hnext => exact ih hnext

theorem solve_found (problem : Problem n) :
    problem.solve.map Outcome.found = problem.solveEagerly :=
  rounds_found ⟨.initial, .initial problem⟩ (n + 1)

/-- **The rounds are enough** for the search with one entry for each cell: it is not cut off. -/
theorem roundsEagerly_add (problem : Problem n) (more : Nat) :
    problem.roundsEagerly (n + 1 + more) problem.initialEagerly = problem.solveEagerly := by
  have hinStep : InStep problem problem.initial problem.initialEagerly :=
    ⟨.initial, .initial problem⟩
  rw [← rounds_found hinStep, rounds_add .refl (by omega), ← solve_found]
  rfl

end Problem

/-- **Passing over stale entries is replacing them at once**: both searches fail with the same error,
or find the same route after the same number of expanded cells. -/
theorem search_eq_searchEagerly (grid : Grid) (offsets : List Int) (start goal : Nat)
    (estimates : Array Nat) (formula : Formula) :
    (grid.search offsets start goal estimates formula).map Outcome.found =
      grid.searchEagerly offsets start goal estimates formula := by
  unfold Grid.search Grid.searchEagerly
  cases grid.checkIndex .start start with
  | error error => rfl
  | ok start =>
      cases grid.checkIndex .goal goal with
      | error error => rfl
      | ok goal =>
          by_cases hsize : estimates.size = grid.size
          · simp only [bind, Except.bind, dif_pos hsize]
            exact Problem.solve_found _
          · simp only [bind, Except.bind, dif_neg hsize]
            rfl

end Wayfinding
