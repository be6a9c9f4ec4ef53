import Wayfinding.Proofs.Formula.Linear
import Wayfinding.Proofs.Search.Completeness

/-!
# What a route costs

* `Problem.Guided k drop`: the priorities are the travelled cost and `k` times the estimate, and no
  move lowers the estimate by more than `drop`.
* `AtRound.exists_frontier`: on every walk to a cell that is not settled there is a cell that is
  next to the settled ones, and the frontier has an entry for it.
* So a cell is settled at no more than `max 1 (k * drop)` times the length of every walk to it
  (`AtRound.cheap`), although no settled cell is ever opened again. The cost of a route is bounded
  in the same way (`search_cost_le`), and with `k * drop ≤ 1` it is the least one.
-/

namespace Wayfinding

variable {n : Nat} {problem : Problem n} {s t : SearchState n} {k drop : Nat}

/-! ## 1. The frontier on a walk -/

/-- A search that the estimates guide: priorities are compared as the travelled cost and `k` times
the estimate are, and the estimate drops by at most `drop` with every move. -/
structure Problem.Guided (problem : Problem n) (k drop : Nat) : Prop where
  priority : ∀ (a b : Fin n) (cost cost' : Nat), cost ≤ n → cost' ≤ n →
    rank (problem.priority cost (problem.estimates.get a)) ≤
      rank (problem.priority cost' (problem.estimates.get b)) →
    cost + k * problem.estimates.get a ≤ cost' + k * problem.estimates.get b
  drop : ∀ a b : Fin n, a ∈ problem.reachable → LegalMove problem.blocked problem.offsets a b →
    problem.estimates.get a ≤ problem.estimates.get b + drop

/-- Every settled cell costs at most `factor` for each move of any walk to it. -/
def SearchState.Cheap (problem : Problem n) (factor : Nat) (s : SearchState n) : Prop :=
  ∀ (cell : Fin n) (label : Label n) (moves : Nat), s.settled.get cell = true →
    s.labels.get cell = some label →
    Walk (LegalMove problem.blocked problem.offsets) problem.start moves cell →
    label.cost ≤ factor * moves

namespace Problem

variable {factor moves : Nat} {cell : Fin n}

/-- **On every walk to a cell that is not settled a cell is known and not settled.** It costs no
more than the moves up to it allow. -/
theorem AtRound.exists_frontier (h : problem.AtRound s) (hc : s.Cheap problem factor)
    (hpos : 1 ≤ factor)
    (hw : Walk (LegalMove problem.blocked problem.offsets) problem.start moves cell)
    (hn : s.settled.get cell = false) :
    ∃ i j y label, Walk (LegalMove problem.blocked problem.offsets) problem.start i y ∧
      s.settled.get y = false ∧ s.labels.get y = some label ∧ label.cost ≤ factor * i ∧
      Walk (LegalMove problem.blocked problem.offsets) y j cell ∧ i + j = moves := by
  by_cases hstart : s.settled.get problem.start = true
  · have hout : ¬ s.settled.get cell = true := by
      rw [hn]
      exact Bool.false_ne_true
    obtain ⟨i, j, x, y, hx, hin, hxy, hny, hy, hsum⟩ :=
      hw.exists_crossing (fun c => s.settled.get c = true) hstart hout
    rcases h.explored.covers hin hxy with hset | ⟨above, label, ha, hl, hle⟩
    · exact absurd hset hny
    · have habove : above.cost ≤ factor * i := hc x above i hin ha hx
      have hcost : label.cost ≤ factor * (i + 1) := by
        rw [Nat.mul_succ]
        omega
      exact ⟨i + 1, j, y, label, hx.step hxy, Bool.not_eq_true _ ▸ hny, hl, hcost, hy, hsum⟩
  · have hnot : s.settled.get problem.start = false := Bool.not_eq_true _ ▸ hstart
    exact ⟨0, moves, problem.start, ⟨0, none⟩, .stay, hnot, h.reached.tree.start, Nat.zero_le _, hw,
      Nat.zero_add moves⟩

/-- **The next entry has no greater value than every walk to a cell that is not settled allows**,
where the value is the cost and `k` times the estimate. -/
theorem AtRound.head_value_le (h : problem.AtRound s) (hg : problem.Guided k drop)
    (hc : s.Cheap problem (max 1 (k * drop))) {entry : Entry n} {others : Frontier n}
    (hf : s.dropStale.frontier = entry :: others)
    (hw : Walk (LegalMove problem.blocked problem.offsets) problem.start moves cell)
    (hn : s.settled.get cell = false) :
    entry.cost + k * problem.estimates.get entry.cell ≤
      max 1 (k * drop) * moves + k * problem.estimates.get cell := by
  have hr := h.reached_dropStale
  have hqueue := hr.queue
  have hmem : entry ∈ s.dropStale.frontier := hf ▸ List.mem_cons_self
  obtain ⟨i, j, y, label, hwy, hny, hly, hcy, hyc, hsum⟩ :=
    h.exists_frontier hc (Nat.le_max_left _ _) hw hn
  -- the entry of that cell is in the frontier, so the next entry has no worse priority
  obtain ⟨other, hother, rfl, hcost⟩ := hqueue.live y label hly hny
  have hrank : rank entry.priority ≤ rank other.priority := hqueue.rank_head_le hf hother
  obtain ⟨known, hknown, hkcost⟩ := SearchState.exists_label_dropStale hf
  have hle : entry.cost ≤ n := hkcost ▸ hr.counts.cost_le_size hknown
  have hle' : other.cost ≤ n := hcost ▸ hr.counts.cost_le_size hly
  rw [hqueue.priority entry hmem, hqueue.priority other hother] at hrank
  have hvalue := hg.priority entry.cell other.cell entry.cost other.cost hle hle' hrank
  have hdrop : problem.estimates.get other.cell ≤ problem.estimates.get cell + drop * j :=
    hyc.le_add_mul (f := fun c => problem.estimates.get c)
      fun a b ha hab => hg.drop a b (hwy.reflTransGen.trans ha) hab
  have hscaled : k * problem.estimates.get other.cell ≤
      k * problem.estimates.get cell + k * drop * j := by
    calc k * problem.estimates.get other.cell ≤ k * (problem.estimates.get cell + drop * j) :=
          Nat.mul_le_mul_left k hdrop
      _ = k * problem.estimates.get cell + k * drop * j := by rw [Nat.mul_add, Nat.mul_assoc]
  have hfactor : k * drop * j ≤ max 1 (k * drop) * j :=
    Nat.mul_le_mul_right j (Nat.le_max_right _ _)
  have hsplit : max 1 (k * drop) * i + max 1 (k * drop) * j = max 1 (k * drop) * moves := by
    rw [← Nat.mul_add, hsum]
  omega

/-- **The next entry costs no more than every walk to its cell allows.** -/
theorem AtRound.head_cost_le (h : problem.AtRound s) (hg : problem.Guided k drop)
    (hc : s.Cheap problem (max 1 (k * drop))) {entry : Entry n} {others : Frontier n}
    (hf : s.dropStale.frontier = entry :: others)
    (hw : Walk (LegalMove problem.blocked problem.offsets) problem.start moves entry.cell) :
    entry.cost ≤ max 1 (k * drop) * moves := by
  have hn : s.settled.get entry.cell = false :=
    h.reached_dropStale.queue.not_settled (hf ▸ List.mem_cons_self)
      (SearchState.isStale_dropStale hf)
  exact Nat.le_of_add_le_add_right (h.head_value_le hg hc hf hw hn)

/-- **A round settles a cell at no more than every walk to it allows.** -/
theorem AtRound.cheap_round (h : problem.AtRound s) (hg : problem.Guided k drop)
    (hc : s.Cheap problem (max 1 (k * drop))) (hs : problem.Round s t) :
    t.Cheap problem (max 1 (k * drop)) := by
  intro cell label moves hset hl hw
  obtain ⟨entry, others, known, he⟩ := hs.expansion
  rcases he.settled_cases hset hl with ⟨rfl, hcost⟩ | ⟨hold, hl'⟩
  · rw [hcost]
    exact h.head_cost_le hg hc he.frontier hw
  · exact hc cell label moves hold hl' hw

theorem AtRound.cheap (h : problem.AtRound s) (hg : problem.Guided k drop) :
    s.Cheap problem (max 1 (k * drop)) := by
  induction h with
  | refl =>
      intro cell label moves hset
      rw [settled_initial] at hset
      cases hset
  | tail hr hs ih => exact AtRound.cheap_round hr hg ih hs

/-- **What a route costs**: no less than a shortest walk, and at most `max 1 (k * drop)` times as
much. -/
theorem solve_cost_le {outcome : Outcome n} {route : Route n} (hg : problem.Guided k drop)
    (h : problem.solve = .ok outcome) (hr : outcome.route = some route) :
    Walk (LegalMove problem.blocked problem.offsets) problem.start route.cost problem.goal ∧
      ∀ moves, Walk (LegalMove problem.blocked problem.offsets) problem.start moves problem.goal →
        route.cost ≤ max 1 (k * drop) * moves := by
  obtain ⟨s, hs, _, ⟨_, hnone⟩ | ⟨entry, others, label, hf, hgoal, hl, hcost, hroute⟩⟩ :=
    solve_ok_cases h
  · rw [hr] at hnone
    cases hnone
  · have hsome : route.cost = label.cost := by
      rw [hr, Option.some.injEq] at hroute
      rw [hroute]
      rfl
    refine ⟨hs.reached.tree.walk hl hsome.symm, fun moves hw => ?_⟩
    rw [hsome, hcost]
    exact hs.head_cost_le hg (hs.cheap hg) hf (hgoal ▸ hw)

end Problem

/-! ## 2. Searches with a linear formula -/

/-- A problem with the priorities of a linear formula is guided by its estimates. -/
theorem Formula.IsLinear.guided {formula : Formula} (h : formula.IsLinear k)
    (hp : problem.priority = formula.priority)
    (hword : ∀ cell : Fin n, problem.estimates.get cell < 2 ^ 64)
    (hexact : ∀ cell : Fin n, n + k * problem.estimates.get cell ≤ 2 ^ 53)
    (hdrop : ∀ a b : Fin n, a ∈ problem.reachable →
      LegalMove problem.blocked problem.offsets a b →
      problem.estimates.get a ≤ problem.estimates.get b + drop) : problem.Guided k drop where
  priority a b cost cost' hcost hcost' hrank := by
    have hle := (Nat.add_le_add_right hcost _).trans (hexact a)
    have hle' := (Nat.add_le_add_right hcost' _).trans (hexact b)
    have ha := h cost (problem.estimates.get a) (hword a) hle
    have hb := h cost' (problem.estimates.get b) (hword b) hle'
    rw [hp, ← not_lt, rank_lt_iff_of_denotes hb ha, not_lt] at hrank
    exact hrank
  drop := hdrop

/-- **The cost of a route under a linear formula.** Let no legal move from a cell that can be
reached lower the estimate by more than `drop`. A search by `G+k*H` that finds a route then finds
one that costs at most `max 1 (k * drop)` times the least number of legal moves to the goal; a
consistent table and `G+H` give the least number itself. Estimates are numbers of 64 bits, and what
is added up stays below `2 ^ 53`, where floats are exact. -/
theorem search_cost_le {grid : Grid} {offsets : List Int} {start goal k drop : Nat}
    {estimates : Array Nat} {policy : Policy} {source : String} {formula : Formula}
    {outcome : Outcome grid.size} {route : Route grid.size} (hk : k ≤ 2 ^ 53)
    (hsource : source = "G+" ++ toString k ++ "*H" ∨ k = 1 ∧ source = "G+H")
    (hread : Formula.read policy source = .ok formula)
    (hword : ∀ estimate ∈ estimates, estimate < 2 ^ 64)
    (hexact : ∀ estimate ∈ estimates, grid.size + k * estimate ≤ 2 ^ 53)
    (hdrop : ∀ (hs : start < grid.size) (a b : Fin grid.size),
      a ∈ reachable grid.blocked offsets ⟨start, hs⟩ → LegalMove grid.blocked offsets a b →
      estimates[a]! ≤ estimates[b]! + drop)
    (h : grid.search offsets start goal estimates formula = .ok outcome)
    (hr : outcome.route = some route) :
    ∃ (hs : start < grid.size) (hg : goal < grid.size) (least : Nat),
      IsLeast {moves | Walk (LegalMove grid.blocked offsets) ⟨start, hs⟩ moves ⟨goal, hg⟩} least ∧
      route.cost ≤ max 1 (k * drop) * least ∧ (k * drop ≤ 1 → route.cost = least) := by
  obtain ⟨hs, hg, hsize, hsolve⟩ := Grid.search_ok h
  have hlinear : formula.IsLinear k := by
    rcases hsource with rfl | ⟨rfl, rfl⟩
    · exact isLinear_weighted hk hread
    · exact isLinear_sum hread
  have hguided : Problem.Guided ⟨grid.blocked, offsets, ⟨estimates, hsize⟩, formula.priority,
      ⟨start, hs⟩, ⟨goal, hg⟩⟩ k drop := by
    refine hlinear.guided rfl (fun cell => ?_) (fun cell => ?_) fun a b ha hab => ?_
    · exact hword _ (Array.getElem_mem _)
    · exact hexact _ (Array.getElem_mem _)
    · have hinside (c : Fin grid.size) : c.val < estimates.size := c.isLt.trans_eq hsize.symm
      have hle := hdrop hs a b ha hab
      rw [Fin.getElem!_fin, Fin.getElem!_fin, getElem!_pos estimates a.val (hinside a),
        getElem!_pos estimates b.val (hinside b)] at hle
      exact hle
  obtain ⟨hwalk, hall⟩ := Problem.solve_cost_le hguided hsolve hr
  obtain ⟨least, hleast⟩ := exists_isLeast_walk hwalk.reflTransGen
  refine ⟨hs, hg, least, hleast, hall least hleast.1, fun hone => ?_⟩
  have hle := hall least hleast.1
  rw [Nat.max_eq_left hone, Nat.one_mul] at hle
  exact Nat.le_antisymm hle (hleast.2 hwalk)

/-- A track of seven cells with an obstacle on the first one. -/
def track : Grid :=
  ⟨1, 7, #v[true, false, false, false, false, false, false]⟩

/-- A way along the track in three moves. -/
def trackRoute : Route track.size :=
  ⟨3, [⟨6, by decide⟩, ⟨5, by decide⟩, ⟨3, by decide⟩, ⟨2, by decide⟩]⟩

/-- The formula that counts the estimate twice. -/
def twice : Formula :=
  ⟨"G+2*H", .linear (Nat.toFloat 2)⟩

/-- On the track a search by `G+2*H` finds a way in three moves where two are enough. -/
theorem cost_le_track :
    track.search [-1, -2] 6 2 #[0, 2, 0, 0, 1, 0, 0] twice = .ok ⟨some trackRoute, 3, 0⟩ ∧
      ∃ least, IsLeast {moves | Walk (LegalMove track.blocked [-1, -2]) ⟨6, by decide⟩ moves
        ⟨2, by decide⟩} least ∧ 3 ≤ max 1 (2 * 1) * least := by
  have hread : Formula.read .strict "G+2*H" = .ok twice := by rfl
  have hsearch : track.search [-1, -2] 6 2 #[0, 2, 0, 0, 1, 0, 0] twice =
      .ok ⟨some trackRoute, 3, 0⟩ := by rfl
  have hdrop : ∀ a b : Fin track.size, LegalMove track.blocked [-1, -2] a b →
      (#[0, 2, 0, 0, 1, 0, 0] : Array Nat)[a]! ≤ (#[0, 2, 0, 0, 1, 0, 0] : Array Nat)[b]! + 1 := by
    unfold LegalMove
    decide
  obtain ⟨_, _, least, hleast, hle, _⟩ := search_cost_le (k := 2) (by decide) (Or.inl rfl) hread
    (by decide) (by decide) (fun _ a b _ hab => hdrop a b hab) hsearch rfl
  exact ⟨hsearch, least, hleast, hle⟩

end Wayfinding
