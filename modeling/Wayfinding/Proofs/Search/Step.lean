import Mathlib
import Wayfinding.Proofs.Search.Walk

/-!
# Steps of a search

* `Problem.Step` takes a search apart into three kinds of steps: a stale entry is passed over, a
  cell is closed, a cheaper way to a cell is discovered. `Problem.Reached` is what a sequence of
  steps leads to from the beginning; whatever all steps preserve holds there.
* `SearchState.Extends` is what no step takes back: cells stay settled and keep their label from
  then on, other labels only become cheaper.
-/

namespace Wayfinding

variable {n : Nat}

/-! ## 1. The three kinds of steps -/

/-- The state after an entry was taken off the frontier and its cell was settled. -/
def SearchState.close (s : SearchState n) (entry : Entry n) (others : Frontier n) : SearchState n :=
  { s.settle entry.cell with frontier := others }

/-- The state after a stale entry was taken off the frontier. -/
def SearchState.pass (s : SearchState n) (others : Frontier n) : SearchState n :=
  { s with
    frontier := others
    stale := s.stale + 1 }

/-- **One step of a search**: a stale entry is passed over; the cell of an entry that is not stale
is closed, unless it is the goal; a move from a settled cell leads to one that is not settled at
less cost than is known. -/
inductive Problem.Step (problem : Problem n) : SearchState n → SearchState n → Prop where
  | pass (s : SearchState n) (entry : Entry n) (others : Frontier n)
      (hf : s.frontier = entry :: others) (hs : s.isStale entry = true) :
      Step problem s (s.pass others)
  | close (s : SearchState n) (entry : Entry n) (others : Frontier n)
      (hf : s.frontier = entry :: others) (hs : s.isStale entry = false)
      (hg : entry.cell ≠ problem.goal) : Step problem s (s.close entry others)
  | discover (s : SearchState n) (cell next : Fin n) (label : Label n)
      (hl : s.labels.get cell = some label) (hc : s.settled.get cell = true)
      (hm : LegalMove problem.blocked problem.offsets cell next) (hn : s.settled.get next = false)
      (hi : Problem.improves (label.cost + 1) (s.labels.get next) = true) :
      Step problem s (problem.discover next cell (label.cost + 1) s)

/-- The states of a search. -/
def Problem.Reached (problem : Problem n) (s : SearchState n) : Prop :=
  Relation.ReflTransGen problem.Step problem.initial s

/-! ## 2. What the steps change -/

/-- The entries of a table after one of them was written. -/
theorem get_set {α : Type} (table : Vector α n) (i j : Fin n) (value : α) :
    (table.set i value i.isLt).get j = if j = i then value else table.get j := by
  simp only [Vector.get_eq_getElem, Vector.getElem_set, Fin.ext_iff, eq_comm]

theorem improves_iff {cost : Nat} {known : Option (Label n)} :
    Problem.improves cost known = true ↔ ∀ label, known = some label → cost < label.cost := by
  cases known <;> simp [Problem.improves]

namespace SearchState

variable {s : SearchState n} {entry : Entry n} {others : Frontier n} {cell : Fin n}

theorem isStale_eq_false_iff :
    s.isStale entry = false ↔
      ∃ label, s.labels.get entry.cell = some label ∧ label.cost = entry.cost := by
  simp [isStale]

@[simp] theorem expanded_close : (s.close entry others).expanded = s.expanded + 1 := rfl

theorem settled_close : (s.close entry others).settled.get cell = true ↔
    cell = entry.cell ∨ s.settled.get cell = true := by
  have hset : (s.close entry others).settled.get cell =
      if cell = entry.cell then true else s.settled.get cell := get_set _ _ _ _
  rw [hset]
  by_cases h : cell = entry.cell
  · simp [h]
  · simp [h]

@[simp] theorem frontier_pass : (s.pass others).frontier = others := rfl

/-- A settled cell is another one than a cell that is not settled. -/
theorem ne_of_settled {a b : Fin n} (ha : s.settled.get a = true) (hb : s.settled.get b = false) :
    a ≠ b := by
  rintro rfl
  rw [ha] at hb
  cases hb

end SearchState

namespace Problem

variable {problem : Problem n} {s : SearchState n} {cell next parent : Fin n} {cost : Nat}

/-- The entry that a discovery makes. -/
def entryFor (problem : Problem n) (next : Fin n) (cost : Nat) (s : SearchState n) : Entry n :=
  ⟨problem.priority cost (problem.estimates.get next), cost, s.serial + 1, next⟩

theorem labels_discover : (problem.discover next parent cost s).labels.get cell =
    if cell = next then some ⟨cost, some parent⟩ else s.labels.get cell :=
  get_set _ _ _ _

theorem labels_discover_self :
    (problem.discover next parent cost s).labels.get next = some ⟨cost, some parent⟩ := by
  rw [labels_discover, if_pos rfl]

theorem labels_discover_of_ne (h : cell ≠ next) :
    (problem.discover next parent cost s).labels.get cell = s.labels.get cell := by
  rw [labels_discover, if_neg h]

/-- After a discovery a label is the new one or an old one. -/
theorem labels_discover_eq_some {label : Label n}
    (h : (problem.discover next parent cost s).labels.get cell = some label) :
    cell = next ∧ label = ⟨cost, some parent⟩ ∨ cell ≠ next ∧ s.labels.get cell = some label := by
  rw [labels_discover] at h
  by_cases hcell : cell = next
  · simp only [if_pos hcell, Option.some.injEq] at h
    exact Or.inl ⟨hcell, h.symm⟩
  · simp only [if_neg hcell] at h
    exact Or.inr ⟨hcell, h⟩

theorem labels_initial : problem.initial.labels.get cell =
    if cell = problem.start then some ⟨0, none⟩ else none := by
  simp [initial, get_set]

/-- In the beginning only the start has a label. -/
theorem labels_initial_eq_some {label : Label n}
    (h : problem.initial.labels.get cell = some label) :
    cell = problem.start ∧ label = ⟨0, none⟩ := by
  rw [labels_initial] at h
  by_cases hcell : cell = problem.start
  · simp only [if_pos hcell, Option.some.injEq] at h
    exact ⟨hcell, h.symm⟩
  · simp only [if_neg hcell] at h
    cases h

theorem settled_initial : problem.initial.settled.get cell = false := by
  simp [initial]

end Problem

/-! ## 3. What no step takes back -/

/-- The second state keeps the settled cells of the first one with their labels, and knows a way to
each labelled cell that is no dearer. -/
structure SearchState.Extends (s t : SearchState n) : Prop where
  settled : ∀ cell : Fin n, s.settled.get cell = true → t.settled.get cell = true
  same : ∀ cell : Fin n, s.settled.get cell = true → t.labels.get cell = s.labels.get cell
  cheaper : ∀ (cell : Fin n) (label : Label n), s.labels.get cell = some label →
    ∃ label', t.labels.get cell = some label' ∧ label'.cost ≤ label.cost

namespace SearchState.Extends

variable {problem : Problem n} {s t u : SearchState n}

theorem refl (s : SearchState n) : s.Extends s where
  settled _ h := h
  same _ _ := rfl
  cheaper _ label h := ⟨label, h, Nat.le_refl _⟩

theorem trans (h : s.Extends t) (h' : t.Extends u) : s.Extends u where
  settled cell hc := h'.settled cell (h.settled cell hc)
  same cell hc := (h'.same cell (h.settled cell hc)).trans (h.same cell hc)
  cheaper cell label hl := by
    obtain ⟨label', hl', hle⟩ := h.cheaper cell label hl
    obtain ⟨label'', hl'', hle'⟩ := h'.cheaper cell label' hl'
    exact ⟨label'', hl'', hle'.trans hle⟩

theorem of_step (h : problem.Step s t) : s.Extends t := by
  cases h with
  | pass entry others hf hs =>
      exact ⟨fun _ h => h, fun _ _ => rfl, fun _ l h => ⟨l, h, Nat.le_refl _⟩⟩
  | close entry others hf hs hg =>
      exact ⟨fun _ h => SearchState.settled_close.mpr (Or.inr h), fun _ _ => rfl,
        fun _ l h => ⟨l, h, Nat.le_refl _⟩⟩
  | discover cell next label hl hc hm hn hi =>
      refine ⟨fun _ h => h, ?_, ?_⟩
      · intro c h
        exact Problem.labels_discover_of_ne (ne_of_settled h hn)
      · intro c known hk
        by_cases hcn : c = next
        · subst hcn
          exact ⟨_, Problem.labels_discover_self, (improves_iff.mp hi known hk).le⟩
        · exact ⟨known, (Problem.labels_discover_of_ne hcn).trans hk, Nat.le_refl _⟩

theorem of_steps (h : Relation.ReflTransGen problem.Step s t) : s.Extends t := by
  induction h with
  | refl => exact refl s
  | tail _ hs ih => exact ih.trans (of_step hs)

end SearchState.Extends

end Wayfinding
