import Mathlib
import Wayfinding.Search.Frontier

/-!
# The order of the frontier

* `rank` places every float on a line: the negative numbers, both zeros on one place, the positive
  numbers, and after the infinities what is no number. `precedes_iff` says that priorities are
  compared as their places are.
* `Entry.key` adds the cost and the serial number, so the order of expansion is that of a linear
  order (`Entry.before_iff`).
* `Frontier.Sorted.push`: a frontier whose serial numbers are distinct stays sorted.
-/

namespace Wayfinding

open Float.Model

/-! ## 1. Priorities -/

/-- A place on the line of floats: class, exponent and significand. -/
abbrev Rank := ℤ ×ₗ ℤ ×ₗ ℤ

/-- The place of an unpacked float. -/
def unpackedRank : UnpackedFloat → Rank
  | .infinity .negative => toLex (-2, toLex (0, 0))
  | .finite .negative m e _ => toLex (-1, toLex (-e, -m))
  | .zero _ => toLex (0, toLex (0, 0))
  | .finite .positive m e _ => toLex (1, toLex (e, m))
  | .infinity .positive => toLex (2, toLex (0, 0))
  | .notANumber => toLex (3, toLex (0, 0))

/-- The place of a float. -/
def rank (x : Float) : Rank :=
  unpackedRank x.toModel.unpack

theorem rank_lt_iff {a b c a' b' c' : ℤ} :
    (toLex (a, toLex (b, c)) : Rank) < toLex (a', toLex (b', c')) ↔
      a < a' ∨ a = a' ∧ (b < b' ∨ b = b' ∧ c < c') := by
  simp only [Prod.Lex.toLex_lt_toLex]

theorem compare_negative_positive :
    compare UnpackedFloat.Sign.negative UnpackedFloat.Sign.positive = .lt := rfl

theorem then_compare_eq_lt_iff {e e' : Int} {m m' : Nat} :
    (compare e e').then (compare m m') = .lt ↔ e < e' ∨ e = e' ∧ m < m' := by
  rw [Ordering.then_eq_lt, compare_lt_iff_lt, compare_eq_iff_eq, compare_lt_iff_lt]

theorem then_compare_eq_gt_iff {e e' : Int} {m m' : Nat} :
    (compare e e').then (compare m m') = .gt ↔ e' < e ∨ e = e' ∧ m' < m := by
  rw [Ordering.then_eq_gt, compare_gt_iff_gt, compare_eq_iff_eq, compare_gt_iff_gt]

/-- Numbers are compared as their places are. -/
theorem lt_iff_unpackedRank_lt {x y : UnpackedFloat} (hx : x ≠ .notANumber) (hy : y ≠ .notANumber) :
    x.lt y = true ↔ unpackedRank x < unpackedRank y := by
  rcases x with (_ | _) | _ | _ | ⟨_ | _, m, e, _⟩ <;>
    rcases y with (_ | _) | _ | _ | ⟨_ | _, m', e', _⟩ <;>
    simp_all [UnpackedFloat.lt, UnpackedFloat.compare, unpackedRank, rank_lt_iff,
      compare_negative_positive, then_compare_eq_lt_iff, then_compare_eq_gt_iff,
      Ordering.swap_eq_lt]

theorem lt_iff_unpack_lt {x y : Float} : x < y ↔ x.toModel.unpack.lt y.toModel.unpack = true :=
  decide_eq_true_iff (p := x.toModel < y.toModel)

theorem isNaN_iff {x : Float} : x.isNaN = true ↔ x.toModel.unpack = .notANumber :=
  UnpackedFloat.isNaN_iff

theorem unpackedRank_lt_notANumber {x : UnpackedFloat} (hx : x ≠ .notANumber) :
    unpackedRank x < unpackedRank .notANumber := by
  rcases x with (_ | _) | _ | _ | ⟨_ | _, m, e, _⟩ <;> simp_all [unpackedRank, rank_lt_iff]

/-- **Priorities are compared as their places are**, whether they are numbers or not. -/
theorem precedes_iff {x y : Float} : precedes x y = true ↔ rank x < rank y := by
  unfold precedes rank
  by_cases hx : x.toModel.unpack = .notANumber
  · rw [isNaN_iff.mpr hx, hx]
    by_cases hy : y.toModel.unpack = .notANumber
    · simp [hy]
    · simpa using (unpackedRank_lt_notANumber hy).le
  · have nx : x.isNaN = false := by rw [← Bool.not_eq_true, isNaN_iff]; exact hx
    by_cases hy : y.toModel.unpack = .notANumber
    · rw [nx, isNaN_iff.mpr hy, hy]
      simpa using unpackedRank_lt_notANumber hx
    · have ny : y.isNaN = false := by rw [← Bool.not_eq_true, isNaN_iff]; exact hy
      rw [nx, ny, ← lt_iff_unpackedRank_lt hx hy, ← lt_iff_unpack_lt]
      simp only [Bool.not_false, Bool.false_or, Bool.true_and, decide_eq_true_eq]

/-! ## 2. Entries -/

variable {n : Nat}

/-- What the order of expansion looks at: the priority, then the cost downwards, then the serial
number. -/
def Entry.key (entry : Entry n) : Rank ×ₗ ℕᵒᵈ ×ₗ ℕ :=
  toLex (rank entry.priority, toLex (OrderDual.toDual entry.cost, entry.serial))

/-- **The order of expansion is that of the keys.** -/
theorem Entry.before_iff {a b : Entry n} : a.before b = true ↔ a.key < b.key := by
  unfold Entry.before Entry.key
  rw [Prod.Lex.toLex_lt_toLex, Prod.Lex.toLex_lt_toLex]
  rcases lt_trichotomy (rank a.priority) (rank b.priority) with h | h | h
  · simp [precedes_iff.mpr h, h]
  · have hab : precedes a.priority b.priority = false := by
      rw [← Bool.not_eq_true, precedes_iff, h]
      exact lt_irrefl _
    have hba : precedes b.priority a.priority = false := by
      rw [← Bool.not_eq_true, precedes_iff, h]
      exact lt_irrefl _
    by_cases hc : a.cost = b.cost
    · simp [hab, hba, h, hc]
    · simp [hab, hba, h, hc]
  · have hab : precedes a.priority b.priority = false := by
      rw [← Bool.not_eq_true, precedes_iff]
      exact h.not_gt
    simp [hab, precedes_iff.mpr h, h.not_gt, h.ne']

theorem Entry.key_ne {a b : Entry n} (h : a.serial ≠ b.serial) : a.key ≠ b.key := by
  intro e
  have e' : (ofLex (ofLex a.key).2).2 = (ofLex (ofLex b.key).2).2 := by rw [e]
  exact h e'

/-- The first of two entries has no worse priority. -/
theorem Entry.rank_le_of_before {a b : Entry n} (h : a.before b = true) :
    rank a.priority ≤ rank b.priority := by
  rw [before_iff, key, key, Prod.Lex.toLex_lt_toLex] at h
  rcases h with h | ⟨h, _⟩
  · exact h.le
  · exact h.le

/-! ## 3. Sorted frontiers -/

/-- Every entry comes before those after it. -/
def Frontier.Sorted (frontier : Frontier n) : Prop :=
  frontier.Pairwise fun a b => a.before b = true

theorem Frontier.Sorted.push {frontier : Frontier n} {entry : Entry n} (h : frontier.Sorted)
    (hs : ∀ other ∈ frontier, other.serial ≠ entry.serial) : (frontier.push entry).Sorted := by
  induction frontier with
  | nil => exact List.pairwise_singleton _ _
  | cons first others ih =>
      obtain ⟨hfirst, hothers⟩ := List.pairwise_cons.mp h
      rw [Frontier.push]
      by_cases hb : entry.before first = true
      · rw [if_pos hb]
        refine List.pairwise_cons.mpr ⟨fun other ho => ?_, h⟩
        rcases List.mem_cons.mp ho with rfl | ho
        · exact hb
        · exact Entry.before_iff.mpr
            ((Entry.before_iff.mp hb).trans (Entry.before_iff.mp (hfirst other ho)))
      · rw [if_neg hb]
        have hne := Entry.key_ne (hs first List.mem_cons_self)
        have hlt : first.key < entry.key := by
          rw [Entry.before_iff, not_lt] at hb
          exact lt_of_le_of_ne hb hne
        refine List.pairwise_cons.mpr ⟨fun other ho => ?_,
          ih hothers fun other ho => hs other (List.mem_cons_of_mem _ ho)⟩
        rcases Frontier.mem_push.mp ho with rfl | ho
        · exact Entry.before_iff.mpr hlt
        · exact hfirst other ho

end Wayfinding
