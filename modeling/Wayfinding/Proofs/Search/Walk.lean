import Mathlib.Logic.Relation
import Mathlib.Order.Bounds.Basic
import Mathlib.Data.Nat.Find
import Wayfinding.Search.Basic

/-!
# Walks

* `LegalMove` is what a search may do at a cell: move by one of the offsets to a cell that has no
  obstacle. The cells that can be reached are those of its reflexive and transitive closure.
* `Walk` counts moves. A cell can be reached exactly if there is a walk to it
  (`reflTransGen_iff_exists_walk`), and then one of them is shortest (`exists_isLeast_walk`).
* `Walk.exists_crossing`: a walk that begins in a set of cells and ends outside it leaves the set
  for the last time with one of its moves.
-/

namespace Wayfinding

/-! ## 1. Walks of any moves -/

/-- There is a way of so many moves from one point to another. -/
inductive Walk {α : Type} (move : α → α → Prop) (first : α) : Nat → α → Prop where
  | stay : Walk move first 0 first
  | step {k : Nat} {last next : α} (h : Walk move first k last) (hm : move last next) :
      Walk move first (k + 1) next

section Walk

variable {α : Type} {move : α → α → Prop} {a b c : α} {k l : Nat}

theorem Walk.reflTransGen (h : Walk move a k b) : Relation.ReflTransGen move a b := by
  induction h with
  | stay => exact .refl
  | step _ hm ih => exact ih.tail hm

theorem reflTransGen_iff_exists_walk :
    Relation.ReflTransGen move a b ↔ ∃ k, Walk move a k b := by
  constructor
  · intro h
    induction h with
    | refl => exact ⟨0, .stay⟩
    | tail _ hm ih =>
        obtain ⟨k, hk⟩ := ih
        exact ⟨k + 1, hk.step hm⟩
  · rintro ⟨k, h⟩
    exact h.reflTransGen

/-- A point that can be reached has a distance. -/
theorem exists_isLeast_walk (h : Relation.ReflTransGen move a b) :
    ∃ d, IsLeast {k | Walk move a k b} d := by
  classical
  have hex := reflTransGen_iff_exists_walk.mp h
  exact ⟨Nat.find hex, Nat.find_spec hex, fun k hk => Nat.find_min' hex hk⟩

/-- **A walk from inside a set to outside it crosses its border.** There is a last point inside, one
move leads from it to a point outside, and the walk goes on from there. -/
theorem Walk.exists_crossing (inside : α → Prop) (ha : inside a) (h : Walk move a k b)
    (hb : ¬ inside b) :
    ∃ i j x y, Walk move a i x ∧ inside x ∧ move x y ∧ ¬ inside y ∧ Walk move y j b ∧
      i + 1 + j = k := by
  induction h with
  | stay => exact absurd ha hb
  | @step k last next h' hm ih =>
      by_cases hlast : inside last
      · exact ⟨k, 0, last, next, h', hlast, hm, hb, .stay, rfl⟩
      · obtain ⟨i, j, x, y, hx, hin, hxy, hout, hy, hk⟩ := ih hlast
        exact ⟨i, j + 1, x, y, hx, hin, hxy, hout, hy.step hm, by omega⟩

/-- What a move lowers by at most so much, a walk lowers by at most so much for each move. -/
theorem Walk.le_add_mul {f : α → Nat} {drop : Nat}
    (hf : ∀ x y, Relation.ReflTransGen move a x → move x y → f x ≤ f y + drop)
    (h : Walk move a k b) : f a ≤ f b + drop * k := by
  induction h with
  | stay => exact Nat.le_add_right _ _
  | step h' hm ih =>
      have := hf _ _ h'.reflTransGen hm
      rw [Nat.mul_succ]
      omega

end Walk

/-! ## 2. Moves between cells -/

/-- A move by one of the offsets to a cell without an obstacle. -/
def LegalMove {n : Nat} (blocked : Vector Bool n) (offsets : List Int) (cell next : Fin n) : Prop :=
  blocked.get next = false ∧ ∃ offset ∈ offsets, (next.val : Int) = cell.val + offset

/-- The cells that legal moves lead to from `start`, which is one of them. -/
def reachable {n : Nat} (blocked : Vector Bool n) (offsets : List Int) (start : Fin n) :
    Set (Fin n) :=
  {cell | Relation.ReflTransGen (LegalMove blocked offsets) start cell}

section Moves

variable {n : Nat} {blocked : Vector Bool n} {offsets others : List Int} {start : Fin n}

/-- The order of the offsets and their repetitions do not matter for what can be reached. -/
theorem reachable_congr (h : ∀ offset, offset ∈ offsets ↔ offset ∈ others) :
    reachable blocked offsets start = reachable blocked others start := by
  have same : LegalMove blocked offsets = LegalMove blocked others := by
    funext cell next
    simp only [LegalMove, h]
  rw [reachable, reachable, same]

theorem start_mem_reachable : start ∈ reachable blocked offsets start :=
  .refl

/-- An obstacle is reached only if it is the start. -/
theorem free_of_mem_reachable {cell : Fin n} (h : cell ∈ reachable blocked offsets start)
    (hne : cell ≠ start) : blocked.get cell = false := by
  cases h with
  | refl => exact absurd rfl hne
  | tail _ hm => exact hm.1

end Moves

end Wayfinding
