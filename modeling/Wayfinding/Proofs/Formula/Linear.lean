import Wayfinding.Proofs.Formula.Completeness

/-!
# The linear formulas

* `Expr.linear` adds the estimate, times a factor, to the travelled cost. It is what is read from
  the text `G+k*H` when `k` is a literal of the factor (`read_linear`).
* `Formula.IsLinear`: as long as a priority is no greater than `2 ^ 53` it is computed exactly. So
  are those of `G+k*H` (`isLinear_weighted`) and of `G+H` (`isLinear_sum`).
* What is read from `G` is the travelled cost (`denotes_travelled`).
-/

namespace Wayfinding

open Nat (toDigits)

/-! ## 1. Reading the formula -/

namespace Expr

/-- The estimate times a constant. -/
def scaled (factor : Float) : Expr :=
  .binary .multiply (.constant factor) .estimate

/-- The travelled cost and so many times the estimate. -/
def linear (factor : Float) : Expr :=
  .binary .add .travelled (.scaled factor)

end Expr

/-- The grammar derives `G+k*H`. -/
theorem derives_linear {text : List Char} {value : Float} (h : IsLiteral text value) :
    Derives .comparison ('G' :: '+' :: text ++ ['*', 'H']) (.linear value) 3 :=
  (Derives.travelled.ofAtom.ofProduct.plus ((Derives.literal h).ofAtom.times .estimate)).ofSum

/-- **What is read from `G+k*H`**, under any policy. -/
theorem read_linear {text : List Char} {value : Float} (h : IsLiteral text value)
    (policy : Policy) : Formula.read policy (String.ofList ('G' :: '+' :: text ++ ['*', 'H'])) =
      .ok ⟨String.ofList ('G' :: '+' :: text ++ ['*', 'H']), .linear value⟩ := by
  have hcount : (Expr.linear value).operators = 2 := rfl
  have hfits : (Expr.linear value).Fits 3 maxNesting 0 := by
    refine ⟨by decide, ?_⟩
    rw [hcount]
    decide
  unfold Formula.read
  rw [String.toList_ofList, (Expr.read_derived policy (derives_linear h)).ok hfits]
  rfl

/-! ## 2. Values -/

section Values

variable {k g h : Nat} {policy : Policy} {formula : Formula}

/-- A product with a number of 64 bits is exact as long as it is no greater than `2 ^ 53`. -/
theorem denotes_scaled (hk : k ≤ 2 ^ 53) (hh : h < 2 ^ 64) (hle : k * h ≤ 2 ^ 53) :
    Denotes ((Expr.scaled k.toFloat).evaluate g h).toModel.unpack (k * h) := by
  rcases Nat.eq_zero_or_pos k with rfl | hpos
  · rw [Nat.zero_mul]
    exact denotes_zero_mul hh
  · have hle' : h ≤ 2 ^ 53 := (Nat.le_mul_of_pos_left h hpos).trans hle
    exact denotes_mul (denotes_toFloat hk) (denotes_toFloat hle') hle

/-- The priorities of the formula are the travelled cost and `k` times the estimate. -/
def Formula.IsLinear (formula : Formula) (k : Nat) : Prop :=
  ∀ g h, h < 2 ^ 64 → g + k * h ≤ 2 ^ 53 → Denotes (formula.priority g h).toModel.unpack (g + k * h)

/-- **A linear formula is computed exactly** as long as its value is no greater than `2 ^ 53`. -/
theorem isLinear_of_tree (hk : k ≤ 2 ^ 53) (ht : formula.tree = .linear k.toFloat) :
    formula.IsLinear k := by
  intro g h hh hle
  have hg : g ≤ 2 ^ 53 := (Nat.le_add_right g _).trans hle
  have hprod : k * h ≤ 2 ^ 53 := (Nat.le_add_left _ g).trans hle
  unfold Formula.priority
  rw [ht]
  exact denotes_add (denotes_toFloat hg) (denotes_scaled hk hh hprod) hle

/-- **What is read from `G+k*H` is linear.** -/
theorem isLinear_weighted (hk : k ≤ 2 ^ 53)
    (h : Formula.read policy ("G+" ++ toString k ++ "*H") = .ok formula) : formula.IsLinear k := by
  have htext : "G+" ++ toString k ++ "*H" =
      String.ofList ('G' :: '+' :: toDigits 10 k ++ ['*', 'H']) := by
    rw [← String.toList_inj, String.toList_append, String.toList_append,
      Nat.toString_eq_ofList_toDigits]
    simp only [String.toList_ofList]
    rfl
  rw [htext, read_linear (isLiteral_toDigits k)] at h
  cases h
  exact isLinear_of_tree hk rfl

/-- **What is read from `G+H` is linear.** -/
theorem isLinear_sum (h : Formula.read policy "G+H" = .ok formula) : formula.IsLinear 1 := by
  intro g h' _ hle
  have hread : Formula.read policy "G+H" = .ok ⟨"G+H", .binary .add .travelled .estimate⟩ := by
    cases policy <;> rfl
  have htree : formula.tree = .binary .add .travelled .estimate := by
    cases hread.symm.trans h
    rfl
  rw [Nat.one_mul] at hle ⊢
  have hg : g ≤ 2 ^ 53 := (Nat.le_add_right g h').trans hle
  have hh : h' ≤ 2 ^ 53 := (Nat.le_add_left h' g).trans hle
  unfold Formula.priority
  rw [htree]
  exact denotes_add (denotes_toFloat hg) (denotes_toFloat hh) hle

/-- **What is read from `G` is the travelled cost**, whatever the estimate. -/
theorem denotes_travelled (h : Formula.read policy "G" = .ok formula) (hg : g ≤ 2 ^ 53)
    (estimate : Nat) : Denotes (formula.priority g estimate).toModel.unpack g := by
  have hread : Formula.read policy "G" = .ok ⟨"G", .travelled⟩ := by
    cases policy <;> rfl
  have htree : formula.tree = .travelled := by
    cases hread.symm.trans h
    rfl
  unfold Formula.priority
  rw [htree]
  exact denotes_toFloat hg

/-- What is read from `G` is linear and does not count the estimate. -/
theorem isLinear_travelled (h : Formula.read policy "G" = .ok formula) : formula.IsLinear 0 := by
  intro g estimate _ hle
  rw [Nat.zero_mul, Nat.add_zero] at hle ⊢
  exact denotes_travelled h hle estimate

end Values

end Wayfinding
