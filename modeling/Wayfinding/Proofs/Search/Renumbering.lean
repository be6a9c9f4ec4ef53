import Wayfinding.Proofs.Search.Completeness

/-!
# Searches that differ by the numbers of their cells

* `Problem.Renumbered p q place` says that `q` is the problem `p` with each cell put in another
  place, as far as a search of `p` can see it: the moves from a cell that can be reached lead to the
  same cells, and priorities compare alike.
* `InPlace`: the two searches know the same of a cell and of its place, and the frontiers correspond
  entry by entry, serial numbers included. Every step keeps that.
* `Problem.solve_renumbered`: so both searches find the same, up to the numbers of the cells.
-/

namespace Wayfinding

variable {m n : Nat}

/-! ## 1. Renumbered problems -/

/-- The label with the cell before it put in its place. -/
def Label.renumber (place : Fin m → Fin n) (label : Label m) : Label n :=
  ⟨label.cost, label.parent.map place⟩

/-- The outcome with the cells of its route put in their places. -/
def Outcome.renumber (place : Fin m → Fin n) (outcome : Outcome m) : Outcome n where
  route := outcome.route.map fun route => ⟨route.cost, route.cells.map place⟩
  expanded := outcome.expanded
  stale := outcome.stale

/-- With each cell in its own place a result stays as it is. -/
theorem Outcome.map_renumber_id (result : Except Error (Outcome n)) :
    result.map (renumber id) = result := by
  have hid : renumber (id : Fin n → Fin n) = id := by
    funext outcome
    obtain ⟨route, expanded, stale⟩ := outcome
    cases route with
    | none => rfl
    | some route => simp only [renumber, Option.map_some, List.map_id, id_eq]
  rw [hid]
  exact congrFun Except.map_id result

namespace Problem

/-- Two offsets make the same move from a cell and from its place: to a cell and to its place, both
open or both with an obstacle, or out of the grid with the same error. -/
inductive SameMove (p : Problem m) (q : Problem n) (place : Fin m → Fin n) (cell : Fin m)
    (offset offset' : Int) : Prop where
  | stay (next : Fin m) (h : moveBy cell offset = some next)
      (h' : moveBy (place cell) offset' = some (place next))
      (hb : q.blocked.get (place next) = p.blocked.get next) : SameMove p q place cell offset offset'
  | leave (h : moveBy cell offset = none) (h' : moveBy (place cell) offset' = none)
      (he : Error.escape cell offset m = .escape (place cell) offset' n) :
      SameMove p q place cell offset offset'

/-- The second problem is the first one with each cell put in its place. -/
structure Renumbered (p : Problem m) (q : Problem n) (place : Fin m → Fin n) : Prop where
  injective : Function.Injective place
  start : q.start = place p.start
  goal : q.goal = place p.goal
  order : ∀ a ∈ p.reachable, ∀ b ∈ p.reachable, ∀ cost cost' : Nat,
    precedes (q.priority cost (q.estimates.get (place a)))
        (q.priority cost' (q.estimates.get (place b))) =
      precedes (p.priority cost (p.estimates.get a)) (p.priority cost' (p.estimates.get b))
  moves : ∀ cell ∈ p.reachable, List.Forall₂ (p.SameMove q place cell) p.offsets q.offsets

end Problem

/-! ## 2. Corresponding entries -/

/-- Two entries propose a cell and its place at the same cost and have the same serial number. Each
has the priority of its own problem. -/
structure Entry.Placed (p : Problem m) (q : Problem n) (place : Fin m → Fin n) (a : Entry m)
    (b : Entry n) : Prop where
  cell : b.cell = place a.cell
  cost : b.cost = a.cost
  serial : b.serial = a.serial
  reachable : a.cell ∈ p.reachable
  priority : a.priority = p.priority a.cost (p.estimates.get a.cell)
  priority' : b.priority = q.priority b.cost (q.estimates.get b.cell)

section Entries

variable {p : Problem m} {q : Problem n} {place : Fin m → Fin n}

/-- **Corresponding entries are ordered alike.** -/
theorem Entry.Placed.before_eq (hp : p.Renumbered q place) {a b : Entry m} {a' b' : Entry n}
    (ha : a.Placed p q place a') (hb : b.Placed p q place b') : a'.before b' = a.before b := by
  have hforth := hp.order a.cell ha.reachable b.cell hb.reachable a.cost b.cost
  have hback := hp.order b.cell hb.reachable a.cell ha.reachable b.cost a.cost
  unfold Entry.before
  rw [ha.priority', hb.priority', ha.cost, hb.cost, ha.serial, hb.serial, ha.cell, hb.cell,
    ha.priority, hb.priority, hforth, hback]

/-- Corresponding entries go to the same place in corresponding frontiers. -/
theorem Frontier.forall₂_push (hp : p.Renumbered q place) {a : Entry m} {b : Entry n}
    (hab : a.Placed p q place b) {f : Frontier m} {g : Frontier n}
    (h : List.Forall₂ (Entry.Placed p q place) f g) :
    List.Forall₂ (Entry.Placed p q place) (f.push a) (g.push b) := by
  induction h with
  | nil => exact .cons hab .nil
  | cons hfirst hothers ih =>
      rw [push, push, hab.before_eq hp hfirst]
      split
      · exact .cons hab (.cons hfirst hothers)
      · exact .cons hfirst ih

end Entries

/-! ## 3. Corresponding states -/

/-- Both searches know the same, up to the numbers of the cells. -/
structure InPlace (p : Problem m) (q : Problem n) (place : Fin m → Fin n) (s : SearchState m)
    (t : SearchState n) : Prop where
  labels : ∀ cell : Fin m,
    t.labels.get (place cell) = (s.labels.get cell).map (Label.renumber place)
  settled : ∀ cell : Fin m, t.settled.get (place cell) = s.settled.get cell
  frontier : List.Forall₂ (Entry.Placed p q place) s.frontier t.frontier
  serial : t.serial = s.serial
  expanded : t.expanded = s.expanded
  stale : t.stale = s.stale

namespace InPlace

variable {p : Problem m} {q : Problem n} {place : Fin m → Fin n} {s : SearchState m}
  {t : SearchState n} {cell next : Fin m} {cost : Nat}

theorem initial (hp : p.Renumbered q place) : InPlace p q place p.initial q.initial where
  labels cell := by
    rw [Problem.labels_initial, Problem.labels_initial, hp.start]
    by_cases hcell : cell = p.start
    · rw [if_pos hcell, if_pos (congrArg place hcell)]
      rfl
    · rw [if_neg hcell, if_neg fun hsame => hcell (hp.injective hsame)]
      rfl
  settled cell := by rw [Problem.settled_initial, Problem.settled_initial]
  frontier := .cons ⟨hp.start, rfl, rfl, start_mem_reachable, rfl, rfl⟩ .nil
  serial := rfl
  expanded := rfl
  stale := rfl

theorem isStale_eq (h : InPlace p q place s t) {a : Entry m} {b : Entry n}
    (hab : a.Placed p q place b) : t.isStale b = s.isStale a := by
  unfold SearchState.isStale
  rw [hab.cell, hab.cost, h.labels, Option.map_map]
  rfl

theorem improves_eq (h : InPlace p q place s t) :
    Problem.improves cost (t.labels.get (place next)) =
      Problem.improves cost (s.labels.get next) := by
  rw [h.labels]
  cases s.labels.get next with
  | none => rfl
  | some label => rfl

/-- The same stale entries are passed over. -/
theorem dropStale (h : InPlace p q place s t) : InPlace p q place s.dropStale t.dropStale := by
  generalize hf : s.frontier = f
  induction f generalizing s t with
  | nil =>
      have hg : t.frontier = [] := List.forall₂_nil_left_iff.mp (hf ▸ h.frontier)
      rw [SearchState.dropStale_of_nil hf, SearchState.dropStale_of_nil hg]
      exact h
  | cons a others ih =>
      obtain ⟨b, others', hab, hothers, hg⟩ := List.forall₂_cons_left_iff.mp (hf ▸ h.frontier)
      have hsame := h.isStale_eq hab
      cases hstale : s.isStale a with
      | true =>
          rw [SearchState.dropStale_of_stale hf hstale,
            SearchState.dropStale_of_stale hg (hsame.trans hstale)]
          exact ih ⟨h.labels, h.settled, hothers, h.serial, h.expanded,
            congrArg (· + 1) h.stale⟩ rfl
      | false =>
          rw [SearchState.dropStale_of_live hf hstale,
            SearchState.dropStale_of_live hg (hsame.trans hstale)]
          exact h

/-- Corresponding cells are closed. -/
theorem close (hp : p.Renumbered q place) (h : InPlace p q place s t) {a : Entry m} {b : Entry n}
    {others : Frontier m} {others' : Frontier n} (hab : a.Placed p q place b)
    (ho : List.Forall₂ (Entry.Placed p q place) others others') :
    InPlace p q place (s.close a others) (t.close b others') where
  labels := h.labels
  settled cell := by
    rw [Bool.eq_iff_iff, SearchState.settled_close, SearchState.settled_close, hab.cell,
      hp.injective.eq_iff, h.settled]
  frontier := ho
  serial := h.serial
  expanded := congrArg (· + 1) h.expanded
  stale := h.stale

/-- **Corresponding discoveries** make corresponding labels and entries. -/
theorem discover (hp : p.Renumbered q place) (h : InPlace p q place s t)
    (hr : next ∈ p.reachable) :
    InPlace p q place (p.discover next cell cost s)
      (q.discover (place next) (place cell) cost t) where
  labels c := by
    rw [Problem.labels_discover, Problem.labels_discover, h.labels]
    by_cases hc : c = next
    · rw [if_pos hc, if_pos (congrArg place hc)]
      rfl
    · rw [if_neg hc, if_neg fun hsame => hc (hp.injective hsame)]
  settled := h.settled
  frontier := Frontier.forall₂_push hp
    ⟨rfl, rfl, congrArg (· + 1) h.serial, hr, rfl, rfl⟩ h.frontier
  serial := congrArg (· + 1) h.serial
  expanded := h.expanded
  stale := h.stale

/-- **Moves to corresponding cells** do the same. -/
theorem visit (hp : p.Renumbered q place) (h : InPlace p q place s t)
    (hb : q.blocked.get (place next) = p.blocked.get next)
    (hr : p.blocked.get next = false → next ∈ p.reachable) :
    InPlace p q place (p.visit cell cost next s) (q.visit (place cell) cost (place next) t) := by
  unfold Problem.visit
  rw [hb, h.settled, h.improves_eq]
  by_cases hskip : (p.blocked.get next || s.settled.get next) = true
  · rw [if_pos hskip, if_pos hskip]
    exact h
  · rw [if_neg hskip, if_neg hskip]
    split
    · exact h.discover hp (hr (Bool.or_eq_false_iff.mp (Bool.not_eq_true _ ▸ hskip)).1)
    · exact h

/-- **All moves of corresponding cells are made in step**, up to the first one that leaves the
grid. -/
theorem visitAll (hp : p.Renumbered q place) (h : InPlace p q place s t) (hc : cell ∈ p.reachable)
    {offsets offsets' : List Int} (hin : ∀ offset ∈ offsets, offset ∈ p.offsets)
    (ho : List.Forall₂ (p.SameMove q place cell) offsets offsets') (cost : Nat) :
    Both (InPlace p q place) (p.visitAll cell cost offsets s)
      (q.visitAll (place cell) cost offsets' t) := by
  induction ho generalizing s t with
  | nil => exact .ok h
  | @cons offset offset' others others' hmove hothers ih =>
      rw [Problem.visitAll, Problem.visitAll]
      cases hmove with
      | stay next hm hm' hb =>
          rw [hm, hm']
          refine ih (h.visit hp hb fun hopen => hc.tail ⟨hopen, offset, ?_, ?_⟩) fun o ho =>
            hin o (List.mem_cons_of_mem _ ho)
          · exact hin offset List.mem_cons_self
          · exact moveBy_eq_some_iff.mp hm
      | leave hm hm' he =>
          rw [hm, hm', he]
          exact .error _

/-- **Corresponding expansions**: a cell and its place are closed, and all their moves are made. -/
theorem expand (hp : p.Renumbered q place) (h : InPlace p q place s t) {a : Entry m} {b : Entry n}
    {others : Frontier m} {others' : Frontier n} (hab : a.Placed p q place b)
    (ho : List.Forall₂ (Entry.Placed p q place) others others') :
    Both (InPlace p q place) (p.expand a { s with frontier := others })
      (q.expand b { t with frontier := others' }) := by
  have hmoves := (h.close hp hab ho).visitAll hp hab.reachable (fun _ ho => ho)
    (hp.moves a.cell hab.reachable) a.cost
  rw [← hab.cell] at hmoves
  unfold Problem.expand
  rw [hab.cost]
  exact hmoves

/-- The ways are traced back over corresponding cells. -/
theorem traceBack_eq (h : InPlace p q place s t) (steps : Nat) (cell : Fin m) :
    t.traceBack steps (place cell) = (s.traceBack steps cell).map place := by
  induction steps generalizing cell with
  | zero => rfl
  | succ steps ih =>
      have hparent : (t.labels.get (place cell)).bind Label.parent =
          ((s.labels.get cell).bind Label.parent).map place := by
        rw [h.labels]
        cases s.labels.get cell with
        | none => rfl
        | some label => rfl
      rw [SearchState.traceBack, SearchState.traceBack, hparent]
      cases (s.labels.get cell).bind Label.parent with
      | none => rfl
      | some parent => exact congrArg (place cell :: ·) (ih parent)

/-! ## 4. Corresponding runs -/

/-- **Every round is made in step**, whether it is the last one or not. -/
theorem rounds_eq (hp : p.Renumbered q place) (h : InPlace p q place s t) (left : Nat) :
    q.rounds left t = (p.rounds left s).map (Outcome.renumber place) := by
  induction left generalizing s t with
  | zero =>
      rw [Problem.rounds, Problem.rounds, SearchState.outcome, h.expanded, h.stale]
      rfl
  | succ left ih =>
      have hdrop := h.dropStale
      rw [Problem.rounds, Problem.rounds]
      cases hf : s.dropStale.frontier with
      | nil =>
          have hg : t.dropStale.frontier = [] :=
            List.forall₂_nil_left_iff.mp (hf ▸ hdrop.frontier)
          simp only [hg]
          rw [SearchState.outcome, hdrop.expanded, hdrop.stale]
          rfl
      | cons a others =>
          obtain ⟨b, others', hab, hothers, hg⟩ :=
            List.forall₂_cons_left_iff.mp (hf ▸ hdrop.frontier)
          have hsame : b.cell = q.goal ↔ a.cell = p.goal := by
            rw [hab.cell, hp.goal, hp.injective.eq_iff]
          simp only [hg]
          by_cases hgoal : a.cell = p.goal
          · rw [if_pos hgoal, if_pos (hsame.mpr hgoal), SearchState.route, hab.cost, hab.cell,
              hdrop.traceBack_eq, SearchState.outcome, hdrop.expanded, hdrop.stale,
              ← List.map_reverse]
            rfl
          · rw [if_neg hgoal, if_neg (mt hsame.mp hgoal)]
            have hexpand := hdrop.expand hp hab hothers
            generalize p.expand a { s.dropStale with frontier := others } = here at hexpand ⊢
            generalize q.expand b { t.dropStale with frontier := others' } = there at hexpand ⊢
            cases hexpand with
            | error error => rfl
            | ok hnext => exact ih hnext

end InPlace

/-- **Renumbered problems have the same solution**, up to the numbers of the cells. -/
theorem Problem.solve_renumbered {p : Problem m} {q : Problem n} {place : Fin m → Fin n}
    (hp : p.Renumbered q place) : q.solve = p.solve.map (Outcome.renumber place) := by
  have hle : m ≤ n := by
    simpa only [Fintype.card_fin] using Fintype.card_le_of_injective place hp.injective
  -- The second search is allowed more rounds, which the first one does not need.
  obtain ⟨more, rfl⟩ := Nat.exists_eq_add_of_le hle
  have hlong := (InPlace.initial hp).rounds_eq hp (m + 1 + more)
  rw [rounds_add .refl (Nat.lt_succ_self m), Nat.add_right_comm] at hlong
  exact hlong

end Wayfinding
