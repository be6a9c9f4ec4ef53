import Mathlib.Data.List.Chain
import Wayfinding.Proofs.Search.Run

/-!
# What a search reports is a route

* `IsRoute` is what a reported route should be: from the start to the goal, no cell twice, each step
  by one of the offsets to a cell without an obstacle, and as many steps as its cost says.
* `SearchState.Tree.isRoute`: in every state of a search the way back over the labels is a route.
* `search_ok_isRoute`: so is every route that a search reports, for any formula.
-/

namespace Wayfinding

variable {n : Nat} {problem : Problem n} {s : SearchState n}

/-! ## 1. Routes -/

/-- A route from one cell to another by legal moves, without a cell twice. -/
structure IsRoute (blocked : Vector Bool n) (offsets : List Int) (start goal : Fin n)
    (route : Route n) : Prop where
  head : route.cells.head? = some start
  last : route.cells.getLast? = some goal
  nodup : route.cells.Nodup
  moves : route.cells.IsChain fun a b => ∃ offset ∈ offsets, (b.val : Int) = a.val + offset
  free : ∀ cell ∈ route.cells.tail, blocked.get cell = false
  length : route.cells.length = route.cost + 1

section Route

variable {blocked : Vector Bool n} {offsets : List Int} {start cell next : Fin n} {route : Route n}

theorem IsRoute.single : IsRoute blocked offsets start start ⟨0, [start]⟩ where
  head := rfl
  last := rfl
  nodup := List.nodup_singleton _
  moves := .singleton _
  free _ hc := absurd hc List.not_mem_nil
  length := rfl

/-- A route goes on by a legal move to a cell that is not on it. -/
theorem IsRoute.snoc (h : IsRoute blocked offsets start cell route)
    (hm : LegalMove blocked offsets cell next) (hnew : next ∉ route.cells) :
    IsRoute blocked offsets start next ⟨route.cost + 1, route.cells ++ [next]⟩ where
  head := by rw [List.head?_append, h.head, Option.some_or]
  last := List.getLast?_concat
  nodup := by
    rw [← List.concat_eq_append]
    exact h.nodup.concat hnew
  moves := by
    refine h.moves.append (.singleton _) fun x hx y hy => ?_
    rw [h.last, Option.mem_some_iff] at hx
    rw [List.head?_cons, Option.mem_some_iff] at hy
    subst hx hy
    exact hm.2
  free c hc := by
    have hne : route.cells ≠ [] := by
      intro e
      have := h.length
      rw [e] at this
      cases this
    rw [List.tail_append_of_ne_nil hne] at hc
    rcases List.mem_append.mp hc with hc | hc
    · exact h.free c hc
    · cases List.mem_singleton.mp hc
      exact hm.1
  length := by rw [List.length_append, h.length, List.length_singleton]

/-- The moves of a route are legal. -/
theorem IsRoute.isChain_legalMove (h : IsRoute blocked offsets start cell route) :
    route.cells.IsChain (LegalMove blocked offsets) :=
  h.moves.imp_of_mem_tail_imp fun _ b _ hb hmove => ⟨h.free b hb, hmove⟩

/-- Every cell of a route can be reached. -/
theorem IsRoute.mem_reachable (h : IsRoute blocked offsets start cell route)
    (hc : next ∈ route.cells) : next ∈ reachable blocked offsets start := by
  refine h.isChain_legalMove.induction (· ∈ reachable blocked offsets start) _
    (fun _ _ hm ha => ha.tail hm) (fun hne => ?_) next hc
  have hhead : route.cells.head hne = start :=
    Option.some.inj ((List.head?_eq_some_head hne).symm.trans h.head)
  rw [hhead]
  exact start_mem_reachable

end Route

/-! ## 2. The way back over the labels -/

/-- The way back from a cell goes over its parent. -/
theorem SearchState.traceBack_succ {cell parent : Fin n} {label : Label n}
    (hl : s.labels.get cell = some label) (hp : label.parent = some parent) (k : Nat) :
    s.traceBack (k + 1) cell = cell :: s.traceBack k parent := by
  rw [traceBack, hl, Option.bind_some, hp]

namespace SearchState.Tree

theorem eq_start (h : s.Tree problem) {cell : Fin n} {label : Label n}
    (hl : s.labels.get cell = some label) (h0 : label.cost = 0) : cell = problem.start := by
  by_contra hne
  obtain ⟨parent, above, _, _, _, hcost, _⟩ := h.parent cell label hl hne
  rw [h0] at hcost
  cases hcost

/-- A cell at a cost above zero has its parent one below it. -/
theorem exists_parent (h : s.Tree problem) {cell : Fin n} {label : Label n} {k : Nat}
    (hl : s.labels.get cell = some label) (hk : label.cost = k + 1) :
    ∃ parent above, label.parent = some parent ∧ s.labels.get parent = some above ∧
      above.cost = k ∧ LegalMove problem.blocked problem.offsets parent cell := by
  have hne : cell ≠ problem.start := by
    rintro rfl
    rw [h.start, Option.some.injEq] at hl
    subst hl
    cases hk
  obtain ⟨parent, above, hp, ha, _, hcost, hm⟩ := h.parent cell label hl hne
  exact ⟨parent, above, hp, ha, by omega, hm⟩

/-- A label is the cost of a walk to its cell. -/
theorem walk (h : s.Tree problem) {k : Nat} {cell : Fin n} {label : Label n}
    (hl : s.labels.get cell = some label) (hk : label.cost = k) :
    Walk (LegalMove problem.blocked problem.offsets) problem.start k cell := by
  induction k generalizing cell label with
  | zero =>
      cases h.eq_start hl hk
      exact .stay
  | succ k ih =>
      obtain ⟨parent, above, _, ha, hak, hm⟩ := h.exists_parent hl hk
      exact (ih ha hak).step hm

theorem mem_reachable (h : s.Tree problem) {cell : Fin n} {label : Label n}
    (hl : s.labels.get cell = some label) :
    cell ∈ reachable problem.blocked problem.offsets problem.start :=
  (h.walk hl rfl).reflTransGen

/-- **The way back over the labels is a route**, over cells that cost no more than the last one. -/
theorem isRoute (h : s.Tree problem) {k : Nat} {cell : Fin n} {label : Label n}
    (hl : s.labels.get cell = some label) (hk : label.cost = k) :
    IsRoute problem.blocked problem.offsets problem.start cell (s.route cell k) ∧
      ∀ c ∈ s.traceBack k cell, ∃ known, s.labels.get c = some known ∧ known.cost ≤ k := by
  induction k generalizing cell label with
  | zero =>
      cases h.eq_start hl hk
      refine ⟨.single, fun c hc => ?_⟩
      cases List.mem_singleton.mp hc
      exact ⟨label, hl, hk.le⟩
  | succ k ih =>
      obtain ⟨parent, above, hp, ha, hak, hm⟩ := h.exists_parent hl hk
      have htrace := traceBack_succ hl hp k
      obtain ⟨hroute, hcosts⟩ := ih ha hak
      have hnew : cell ∉ (s.route parent k).cells := by
        intro hc
        obtain ⟨known, hknown, hle⟩ := hcosts cell (List.mem_reverse.mp hc)
        cases hl.symm.trans hknown
        omega
      have hcells : s.route cell (k + 1) = ⟨k + 1, (s.route parent k).cells ++ [cell]⟩ := by
        simp only [route, htrace, List.reverse_cons]
      refine ⟨?_, fun c hc => ?_⟩
      · rw [hcells]
        exact hroute.snoc hm hnew
      · rw [htrace] at hc
        rcases List.mem_cons.mp hc with rfl | hc
        · exact ⟨label, hl, hk.le⟩
        · obtain ⟨known, hknown, hle⟩ := hcosts c hc
          exact ⟨known, hknown, hle.trans (Nat.le_succ k)⟩

end SearchState.Tree

/-! ## 3. Reported routes -/

theorem Problem.solve_isRoute {outcome : Outcome n} {route : Route n}
    (h : problem.solve = .ok outcome) (hr : outcome.route = some route) :
    IsRoute problem.blocked problem.offsets problem.start problem.goal route := by
  obtain ⟨s, hs, _, ⟨_, hnone⟩ | ⟨_, _, label, _, _, hl, _, hroute⟩⟩ := solve_ok_cases h
  · rw [hr] at hnone
    cases hnone
  · rw [hr, Option.some.injEq] at hroute
    rw [hroute]
    exact (hs.reached_dropStale.tree.isRoute hl rfl).1

/-- A lane of six cells with an obstacle on the first one. -/
def lane : Grid :=
  ⟨1, 6, #v[true, false, false, false, false, false]⟩

/-- The way from the last cell of the lane to the second one, two cells at a time. -/
def laneRoute : Route lane.size :=
  ⟨2, [⟨5, by decide⟩, ⟨3, by decide⟩, ⟨1, by decide⟩]⟩

/-- **What a search reports is a route.** Whatever the formula, a search that does not fail reports
a route together with its cost or neither, and a reported route begins at the start, ends at the
goal, has no cell twice, goes by the offsets over cells without an obstacle, and costs one for each
of its steps. -/
theorem search_ok_isRoute {grid : Grid} {offsets : List Int} {start goal : Nat}
    {estimates : Array Nat} {formula : Formula} {outcome : Outcome grid.size}
    (h : grid.search offsets start goal estimates formula = .ok outcome) :
    ((outcome.route.map Route.cells).isSome ↔ (outcome.route.map Route.cost).isSome) ∧
    ∃ (hs : start < grid.size) (hg : goal < grid.size), ∀ route, outcome.route = some route →
      IsRoute grid.blocked offsets ⟨start, hs⟩ ⟨goal, hg⟩ route := by
  refine ⟨by rw [Option.isSome_map, Option.isSome_map], ?_⟩
  obtain ⟨hs, hg, _, hsolve⟩ := Grid.search_ok h
  exact ⟨hs, hg, fun route hr => Problem.solve_isRoute hsolve hr⟩

/-- On the lane the goal is found over a detour first; the route is the shorter one found later. -/
theorem isRoute_lane :
    lane.search [-2, -1] 5 1 #[1, 3, 1, 2, 1, 4] ⟨"H", .estimate⟩ =
        .ok ⟨some laneRoute, 4, 1⟩ ∧
      IsRoute lane.blocked [-2, -1] ⟨5, by decide⟩ ⟨1, by decide⟩ laneRoute := by
  have hsearch : lane.search [-2, -1] 5 1 #[1, 3, 1, 2, 1, 4] ⟨"H", .estimate⟩ =
      .ok ⟨some laneRoute, 4, 1⟩ := by rfl
  obtain ⟨_, _, _, hroute⟩ := search_ok_isRoute hsearch
  exact ⟨hsearch, hroute laneRoute rfl⟩

end Wayfinding
