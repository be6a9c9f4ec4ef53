import Wayfinding.Proofs.Formula.Completeness

/-!
# Reading what is printed

* `Expr.IsPrintable`: no part of the tree is degenerate, and its constants are finite and have no
  minus sign.
* A printable tree is printed as an atom that means the tree (`derives_print`). Its levels are
  counted by `Expr.nesting`: every operator is printed in parentheses, so it takes one of its own.
* `readStrict_print`: such a text is read back as the tree up to the limits, and is refused above
  them.
-/

namespace Wayfinding

namespace Expr

/-- No part of the tree is degenerate, and every constant is finite and has no minus sign. -/
def IsPrintable : Expr → Prop
  | constant value => value.isFinite = true ∧ Layout.isNegative value = false
  | travelled => True
  | estimate => True
  | binary _ left right => left.IsPrintable ∧ right.IsPrintable
  | conditional condition whenTrue whenFalse =>
    condition.IsPrintable ∧ whenTrue.IsPrintable ∧ whenFalse.IsPrintable
  | degenerate => False

/-- The levels that the printed tree takes. -/
def nesting : Expr → Nat
  | binary _ left right => 1 + max left.nesting (1 + right.nesting)
  | conditional condition whenTrue whenFalse =>
    1 + max condition.nesting (max whenTrue.nesting whenFalse.nesting)
  | _ => 1

/-- Between parentheses an operator takes its operands as atoms, whatever its power is. -/
theorem derives_print_binary (op : Operator) {l r : List Char} {left right : Expr} {m n : Nat}
    (hl : Derives .atom l left m) (hr : Derives .atom r right n) :
    Derives .atom ('(' :: l ++ op.symbol :: r ++ [')']) (binary op left right)
      (max m (n + 1) + 1) := by
  have hleft : Derives op.phrase l left m := hl.loosen (by cases op <;> decide)
  have hright : Derives op.operand r right n := hr.loosen (by cases op <;> decide)
  have hjoin : Derives .comparison (l ++ op.symbol :: r) (binary op left right) (max m (n + 1)) :=
    (hleft.join op hright).loosen (Nat.zero_le _)
  exact hjoin.group

/-- **A printed tree is an atom that means the tree.** -/
theorem derives_print {tree : Expr} (h : tree.IsPrintable) :
    Derives .atom tree.print tree tree.nesting := by
  induction tree with
  | constant value => exact .literal (isLiteral_write h.1 h.2)
  | travelled => exact .travelled
  | estimate => exact .estimate
  | binary op left right ihl ihr =>
      have hbinary := derives_print_binary op (ihl h.1) (ihr h.2)
      have hnesting : (binary op left right).nesting =
          max left.nesting (right.nesting + 1) + 1 := by
        simp only [nesting, Nat.add_comm]
      rw [hnesting]
      exact hbinary
  | conditional condition whenTrue whenFalse ihc iht ihf =>
      have hchoice := Derives.choice ((ihc h.1).loosen (Nat.zero_le _))
        ((iht h.2.1).loosen (Nat.zero_le _)) ((ihf h.2.2).loosen (Nat.zero_le _))
      have hnesting : (conditional condition whenTrue whenFalse).nesting =
          max condition.nesting (max whenTrue.nesting whenFalse.nesting) + 1 := by
        simp only [nesting, Nat.add_comm]
      rw [hnesting]
      exact hchoice
  | degenerate => exact absurd h id

end Expr

/-- **A printed tree is read back as the tree** if it keeps the limits of levels and operators, and
is refused if it does not. -/
theorem readStrict_print {tree : Expr} (h : tree.IsPrintable) :
    (tree.nesting ≤ maxNesting ∧ tree.operators ≤ maxOperators →
      Formula.readStrict (String.ofList tree.print) = .ok ⟨String.ofList tree.print, tree⟩) ∧
    (¬ (tree.nesting ≤ maxNesting ∧ tree.operators ≤ maxOperators) →
      ∃ fault, Formula.readStrict (String.ofList tree.print) = .error fault) := by
  have hderives : Derives .comparison tree.print tree tree.nesting :=
    (Expr.derives_print h).loosen (Nat.zero_le _)
  have hread := Expr.read_derived .strict hderives
  rw [Expr.Fits, Nat.zero_add] at hread
  unfold Formula.readStrict Formula.read
  rw [String.toList_ofList]
  refine ⟨fun hkept => ?_, fun hkept => ?_⟩
  · rw [hread.ok hkept]
    rfl
  · obtain ⟨fault, hfault⟩ := hread.error hkept rfl
    exact ⟨fault, by rw [hfault]; rfl⟩

section Sum

/-- A sum of ones whose right operands are sums again. -/
def Expr.onesSum : Nat → Expr
  | 0 => .constant (Nat.toFloat 1)
  | n + 1 => .binary .add (.constant (Nat.toFloat 1)) (onesSum n)

variable (n : Nat)

theorem Expr.isPrintable_onesSum : (onesSum n).IsPrintable := by
  have hone : (constant (Nat.toFloat 1)).IsPrintable :=
    ⟨(denotes_toFloat (n := 1) (by decide)).isFinite.1, isNegative_toFloat (by decide)⟩
  induction n with
  | zero => exact hone
  | succ n ih => exact ⟨hone, ih⟩

theorem Expr.nesting_onesSum : (onesSum n).nesting = 2 * n + 1 := by
  induction n with
  | zero => rfl
  | succ n ih =>
      simp only [onesSum, nesting, ih]
      omega

theorem Expr.operators_onesSum : (onesSum n).operators = n := by
  induction n with
  | zero => rfl
  | succ n ih => simp only [onesSum, operators, ih, Nat.zero_add]

end Sum

/-- Every operator on the right takes two levels, so 127 of them are read back and 128 are not. -/
theorem readStrict_print_onesSum :
    Formula.readStrict (String.ofList (Expr.onesSum 127).print) =
        .ok ⟨String.ofList (Expr.onesSum 127).print, .onesSum 127⟩ ∧
      ∃ fault, Formula.readStrict (String.ofList (Expr.onesSum 128).print) = .error fault := by
  refine ⟨(readStrict_print (Expr.isPrintable_onesSum 127)).1 ?_,
    (readStrict_print (Expr.isPrintable_onesSum 128)).2 ?_⟩
  · rw [Expr.nesting_onesSum, Expr.operators_onesSum]
    decide
  · rw [Expr.nesting_onesSum]
    decide

end Wayfinding
