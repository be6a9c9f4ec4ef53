import Mathlib.Data.Fintype.Card
import Wayfinding.Proofs.Search.Order
import Wayfinding.Proofs.Search.Step

/-!
# What holds in every state of a search

* `Tree`: the labels are a tree over the start. The parent of a label is settled, so its own label
  never changes again, and the cost is one more than that of the parent.
* `Queue`: the frontier is sorted, a labelled cell that is not settled has an entry at its cost, and
  an entry of a settled cell is stale.
* `Counts`: the count of expanded cells is the number of settled ones, and no label costs more.

Each is preserved by the three kinds of steps, so it holds in every state that is reached.
-/

namespace Wayfinding

variable {n : Nat} {problem : Problem n} {s t : SearchState n}

/-! ## 1. The tree of labels -/

/-- The labels form a tree over the start whose inner cells are settled. -/
structure SearchState.Tree (problem : Problem n) (s : SearchState n) : Prop where
  start : s.labels.get problem.start = some ⟨0, none⟩
  parent : ∀ (cell : Fin n) (label : Label n), s.labels.get cell = some label →
    cell ≠ problem.start → ∃ (parent : Fin n) (above : Label n), label.parent = some parent ∧
      s.labels.get parent = some above ∧ s.settled.get parent = true ∧ label.cost = above.cost + 1 ∧
      LegalMove problem.blocked problem.offsets parent cell
  labelled : ∀ cell : Fin n, s.settled.get cell = true → ∃ label, s.labels.get cell = some label

theorem SearchState.Tree.initial : problem.initial.Tree problem where
  start := by rw [Problem.labels_initial, if_pos rfl]
  parent cell label hl hne := by
    obtain ⟨hstart, -⟩ := Problem.labels_initial_eq_some hl
    exact absurd hstart hne
  labelled cell hc := by
    rw [Problem.settled_initial] at hc
    cases hc

theorem SearchState.Tree.step (h : s.Tree problem) (hs : problem.Step s t) : t.Tree problem := by
  cases hs with
  | pass entry others hf hs => exact ⟨h.start, h.parent, h.labelled⟩
  | close entry others hf hs hg =>
      refine ⟨h.start, ?_, ?_⟩
      · intro cell label hl hne
        obtain ⟨parent, above, hp, ha, hset, hcost, hm⟩ := h.parent cell label hl hne
        exact ⟨parent, above, hp, ha, settled_close.mpr (Or.inr hset), hcost, hm⟩
      · intro cell hc
        rcases settled_close.mp hc with rfl | hc
        · obtain ⟨label, hl, _⟩ := isStale_eq_false_iff.mp hs
          exact ⟨label, hl⟩
        · exact h.labelled cell hc
  | discover cell next label hl hc hm hn hi =>
      -- the start is never improved, and a settled parent is never the improved cell
      have hstart : problem.start ≠ next := by
        rintro rfl
        exact Nat.not_lt_zero _ (improves_iff.mp hi _ h.start)
      have hkept (c : Fin n) (hcs : s.settled.get c = true) :
          (problem.discover next cell (label.cost + 1) s).labels.get c = s.labels.get c :=
        Problem.labels_discover_of_ne (ne_of_settled hcs hn)
      refine ⟨(Problem.labels_discover_of_ne hstart).trans h.start, ?_, ?_⟩
      · intro c known hk hne
        rcases Problem.labels_discover_eq_some hk with ⟨rfl, rfl⟩ | ⟨-, hk⟩
        · exact ⟨cell, label, rfl, (hkept cell hc).trans hl, hc, rfl, hm⟩
        · obtain ⟨parent, above, hp, ha, hset, hcost, hm'⟩ := h.parent c known hk hne
          exact ⟨parent, above, hp, (hkept parent hset).trans ha, hset, hcost, hm'⟩
      · intro c hcs
        obtain ⟨known, hk⟩ := h.labelled c hcs
        exact ⟨known, (hkept c hcs).trans hk⟩

theorem Problem.Reached.tree (h : problem.Reached s) : s.Tree problem := by
  induction h with
  | refl => exact .initial
  | tail _ hs ih => exact ih.step hs

/-! ## 2. The frontier -/

/-- The frontier is sorted and knows of every labelled cell that is not settled. -/
structure SearchState.Queue (problem : Problem n) (s : SearchState n) : Prop where
  sorted : s.frontier.Sorted
  serial : ∀ entry ∈ s.frontier, entry.serial ≤ s.serial
  priority : ∀ entry ∈ s.frontier,
    entry.priority = problem.priority entry.cost (problem.estimates.get entry.cell)
  live : ∀ (cell : Fin n) (label : Label n), s.labels.get cell = some label →
    s.settled.get cell = false → ∃ entry ∈ s.frontier, entry.cell = cell ∧ entry.cost = label.cost
  known : ∀ entry ∈ s.frontier, ∃ label, s.labels.get entry.cell = some label ∧
    label.cost ≤ entry.cost ∧ (s.settled.get entry.cell = true → label.cost < entry.cost)
  distinct : s.frontier.Pairwise fun a b => a.cell = b.cell → a.cost ≠ b.cost

theorem SearchState.Queue.initial : problem.initial.Queue problem where
  sorted := List.pairwise_singleton _ _
  serial entry he := by
    cases List.mem_singleton.mp he
    exact Nat.le_refl _
  priority entry he := by
    cases List.mem_singleton.mp he
    rfl
  live cell label hl _ := by
    obtain ⟨rfl, rfl⟩ := Problem.labels_initial_eq_some hl
    exact ⟨_, List.mem_singleton_self _, rfl, rfl⟩
  known entry he := by
    cases List.mem_singleton.mp he
    refine ⟨⟨0, none⟩, ?_, Nat.le_refl _, ?_⟩
    · rw [Problem.labels_initial, if_pos rfl]
    · intro hc
      rw [Problem.settled_initial] at hc
      cases hc
  distinct := List.pairwise_singleton _ _

/-- The cell of an entry that is not stale is not settled. -/
theorem SearchState.Queue.not_settled (h : s.Queue problem) {entry : Entry n}
    (he : entry ∈ s.frontier) (hs : s.isStale entry = false) :
    s.settled.get entry.cell = false := by
  obtain ⟨label, hl, hcost⟩ := isStale_eq_false_iff.mp hs
  obtain ⟨label', hl', _, hlt⟩ := h.known entry he
  cases hl.symm.trans hl'
  by_contra hc
  exact absurd (hlt (Bool.not_eq_false _ ▸ hc)) (by omega)

/-- The next entry has the least priority. -/
theorem SearchState.Queue.rank_head_le (h : s.Queue problem) {entry other : Entry n}
    {others : Frontier n} (hf : s.frontier = entry :: others) (ho : other ∈ s.frontier) :
    rank entry.priority ≤ rank other.priority := by
  have hsorted := h.sorted
  rw [hf] at hsorted ho
  rcases List.mem_cons.mp ho with rfl | hin
  · exact le_rfl
  · exact Entry.rank_le_of_before ((List.pairwise_cons.mp hsorted).1 other hin)

theorem SearchState.Queue.step_pass (h : s.Queue problem) {entry : Entry n} {others : Frontier n}
    (hf : s.frontier = entry :: others) (hs : s.isStale entry = true) :
    (s.pass others).Queue problem := by
  obtain ⟨hsorted, hserial, hpriority, hlive, hknown, hdistinct⟩ := h
  rw [hf] at hsorted hserial hpriority hlive hknown hdistinct
  refine ⟨(List.pairwise_cons.mp hsorted).2, fun e he => hserial e (List.mem_cons_of_mem _ he),
    fun e he => hpriority e (List.mem_cons_of_mem _ he), ?_,
    fun e he => hknown e (List.mem_cons_of_mem _ he), (List.pairwise_cons.mp hdistinct).2⟩
  intro cell label hl hc
  obtain ⟨e, he, hcell, hcost⟩ := hlive cell label hl hc
  rcases List.mem_cons.mp he with rfl | he
  · -- the entry at the cost of its label is not the stale one
    have : s.isStale e = false := isStale_eq_false_iff.mpr ⟨label, hcell ▸ hl, hcost.symm⟩
    rw [hs] at this
    cases this
  · exact ⟨e, he, hcell, hcost⟩

theorem SearchState.Queue.step_close (h : s.Queue problem) {entry : Entry n} {others : Frontier n}
    (hf : s.frontier = entry :: others) (hs : s.isStale entry = false) :
    (s.close entry others).Queue problem := by
  obtain ⟨hsorted, hserial, hpriority, hlive, hknown, hdistinct⟩ := h
  rw [hf] at hsorted hserial hpriority hlive hknown hdistinct
  refine ⟨(List.pairwise_cons.mp hsorted).2, fun e he => hserial e (List.mem_cons_of_mem _ he),
    fun e he => hpriority e (List.mem_cons_of_mem _ he), ?_, ?_,
    (List.pairwise_cons.mp hdistinct).2⟩
  · intro cell label hl hc
    rw [← Bool.not_eq_true, settled_close, not_or, Bool.not_eq_true] at hc
    obtain ⟨e, he, hcell, hcost⟩ := hlive cell label hl hc.2
    rcases List.mem_cons.mp he with rfl | he
    · exact absurd hcell.symm hc.1
    · exact ⟨e, he, hcell, hcost⟩
  · intro e he
    obtain ⟨label, hl, hle, hlt⟩ := hknown e (List.mem_cons_of_mem _ he)
    refine ⟨label, hl, hle, fun hc => ?_⟩
    rcases settled_close.mp hc with hcell | hc
    · -- the closed entry has the cost of the label, every other one of the cell costs more
      obtain ⟨label', hl', hcost⟩ := isStale_eq_false_iff.mp hs
      have hne := (List.pairwise_cons.mp hdistinct).1 e he hcell.symm
      have hsame : label = label' := by
        simp only [hcell, hl', Option.some.injEq] at hl
        exact hl.symm
      rw [hsame] at hle ⊢
      omega
    · exact hlt hc

/-- Whatever improves a cell costs less than every entry of the cell. -/
theorem SearchState.Queue.cost_lt_of_improves (h : s.Queue problem) {next : Fin n} {cost : Nat}
    (hi : Problem.improves cost (s.labels.get next) = true) {entry : Entry n}
    (he : entry ∈ s.frontier) (hcell : entry.cell = next) : cost < entry.cost := by
  subst hcell
  obtain ⟨label, hl, hle, _⟩ := h.known entry he
  exact (improves_iff.mp hi label hl).trans_le hle

theorem SearchState.Queue.step_discover (h : s.Queue problem) {cell next : Fin n} {cost : Nat}
    (hn : s.settled.get next = false) (hi : Problem.improves cost (s.labels.get next) = true) :
    (problem.discover next cell cost s).Queue problem := by
  have hdear (e : Entry n) (he : e ∈ s.frontier) (hcell : e.cell = next) : cost < e.cost :=
    h.cost_lt_of_improves hi he hcell
  refine ⟨?_, ?_, ?_, ?_, ?_, ?_⟩
  · refine h.sorted.push fun e he hserial => ?_
    have := h.serial e he
    rw [hserial] at this
    exact Nat.not_succ_le_self _ this
  · intro e he
    rcases Frontier.mem_push.mp he with rfl | he
    · exact Nat.le_refl _
    · exact (h.serial e he).trans (Nat.le_succ _)
  · intro e he
    rcases Frontier.mem_push.mp he with rfl | he
    · rfl
    · exact h.priority e he
  · intro c label hl hc
    rcases Problem.labels_discover_eq_some hl with ⟨rfl, rfl⟩ | ⟨-, hl⟩
    · exact ⟨problem.entryFor c cost s, Frontier.mem_push.mpr (Or.inl rfl), rfl, rfl⟩
    · obtain ⟨e, he, hcell, hcost⟩ := h.live c label hl hc
      exact ⟨e, Frontier.mem_push.mpr (Or.inr he), hcell, hcost⟩
  · intro e he
    rcases Frontier.mem_push.mp he with rfl | he
    · exact ⟨_, Problem.labels_discover_self, Nat.le_refl _,
        fun hc => absurd rfl (ne_of_settled hc hn)⟩
    · by_cases hcn : e.cell = next
      · have hnew : (problem.discover next cell cost s).labels.get e.cell =
            some ⟨cost, some cell⟩ := hcn ▸ Problem.labels_discover_self
        exact ⟨_, hnew, (hdear e he hcn).le, fun _ => hdear e he hcn⟩
      · obtain ⟨label, hl, hle, hlt⟩ := h.known e he
        exact ⟨label, (Problem.labels_discover_of_ne hcn).trans hl, hle, hlt⟩
  · refine ((Frontier.push_perm _ _).pairwise_iff fun {a b} hab e hc => ?_).mpr
      (List.pairwise_cons.mpr ⟨fun e he hcell => ?_, h.distinct⟩)
    · exact hab e.symm hc.symm
    · exact (hdear e he hcell.symm).ne

theorem SearchState.Queue.step (h : s.Queue problem) (hs : problem.Step s t) :
    t.Queue problem := by
  cases hs with
  | pass entry others hf hs => exact h.step_pass hf hs
  | close entry others hf hs hg => exact h.step_close hf hs
  | discover cell next label hl hc hm hn hi => exact h.step_discover hn hi

theorem SearchState.Queue.steps (h : s.Queue problem)
    (hs : Relation.ReflTransGen problem.Step s t) : t.Queue problem := by
  induction hs with
  | refl => exact h
  | tail _ hs ih => exact ih.step hs

theorem Problem.Reached.queue (h : problem.Reached s) : s.Queue problem :=
  SearchState.Queue.initial.steps h

/-! ## 3. Counts -/

/-- The settled cells. -/
def SearchState.settledCells (s : SearchState n) : Finset (Fin n) :=
  Finset.univ.filter fun cell => s.settled.get cell = true

@[simp] theorem SearchState.mem_settledCells {cell : Fin n} :
    cell ∈ s.settledCells ↔ s.settled.get cell = true := by
  simp [settledCells]

theorem SearchState.settledCells_close {entry : Entry n} {others : Frontier n} :
    (s.close entry others).settledCells = insert entry.cell s.settledCells := by
  ext cell
  rw [mem_settledCells, Finset.mem_insert, mem_settledCells, settled_close]

/-- The expanded cells are counted, the goal is none of them, and they bound the costs. -/
structure SearchState.Counts (problem : Problem n) (s : SearchState n) : Prop where
  expanded : s.settledCells.card = s.expanded
  goal : s.settled.get problem.goal = false
  cost_le : ∀ (cell : Fin n) (label : Label n), s.labels.get cell = some label →
    label.cost ≤ s.expanded
  cost_lt : ∀ (cell : Fin n) (label : Label n), s.labels.get cell = some label →
    s.settled.get cell = true → label.cost < s.expanded

theorem SearchState.Counts.initial : problem.initial.Counts problem where
  expanded := by
    refine Finset.card_eq_zero.mpr (Finset.eq_empty_of_forall_notMem fun cell hc => ?_)
    rw [mem_settledCells, Problem.settled_initial] at hc
    cases hc
  goal := Problem.settled_initial
  cost_le cell label hl := by
    obtain ⟨-, rfl⟩ := Problem.labels_initial_eq_some hl
    exact Nat.le_refl _
  cost_lt cell _ _ hc := by
    rw [Problem.settled_initial] at hc
    cases hc

theorem SearchState.Counts.step (h : s.Counts problem) (hq : s.Queue problem)
    (hs : problem.Step s t) : t.Counts problem := by
  cases hs with
  | pass entry others hf hs => exact ⟨h.expanded, h.goal, h.cost_le, h.cost_lt⟩
  | close entry others hf hs hg =>
      have hnew := hq.not_settled (hf ▸ List.mem_cons_self) hs
      refine ⟨?_, ?_, fun cell label hl => (h.cost_le cell label hl).trans (Nat.le_succ _),
        fun cell label hl hc => Nat.lt_succ_of_le (h.cost_le cell label hl)⟩
      · rw [settledCells_close, Finset.card_insert_of_notMem, h.expanded, expanded_close]
        rw [mem_settledCells, hnew]
        exact Bool.false_ne_true
      · rw [← Bool.not_eq_true, settled_close, not_or, Bool.not_eq_true]
        exact ⟨hg.symm, h.goal⟩
  | discover cell next label hl hc hm hn hi =>
      have hlt := h.cost_lt cell label hl hc
      refine ⟨h.expanded, h.goal, ?_, ?_⟩
      · intro c known hk
        rcases Problem.labels_discover_eq_some hk with ⟨-, rfl⟩ | ⟨-, hk⟩
        · exact hlt
        · exact h.cost_le c known hk
      · intro c known hk hcs
        rw [Problem.labels_discover_of_ne (ne_of_settled hcs hn)] at hk
        exact h.cost_lt c known hk hcs

theorem Problem.Reached.counts (h : problem.Reached s) : s.Counts problem := by
  induction h with
  | refl => exact .initial
  | tail hr hs ih => exact ih.step (Problem.Reached.queue hr) hs

theorem SearchState.Counts.expanded_le (h : s.Counts problem) : s.expanded ≤ n := by
  rw [← h.expanded]
  exact (Finset.card_le_univ _).trans (Fintype.card_fin n).le

/-- No label costs more than there are cells. -/
theorem SearchState.Counts.cost_le_size (h : s.Counts problem) {cell : Fin n} {label : Label n}
    (hl : s.labels.get cell = some label) : label.cost ≤ n :=
  (h.cost_le cell label hl).trans h.expanded_le

end Wayfinding
