import Wayfinding.Proofs.Formula.Literal

/-!
# The grammar of formulas

* `Derives phrase text tree nesting`: the text is a phrase of the given kind and means the tree.
  Parentheses leave no node. The nesting counts the levels of the phrase: a right operand, what
  stands in parentheses and the parts of a choice are one level deeper, a left operand is not.
* The four kinds of phrases are ordered by the power that their operators bind with
  (`Derives.loosen`), so the productions with an operator are one rule (`Derives.join`).
-/

namespace Wayfinding

/-- The kinds of phrases, beginning with those that hold together most strongly. -/
inductive Phrase where
  | atom
  | product
  | sum
  | comparison
deriving DecidableEq

/-- How many operators and choices a tree has. -/
def Expr.operators : Expr → Nat
  | binary _ left right => left.operators + right.operators + 1
  | conditional condition whenTrue whenFalse =>
    condition.operators + whenTrue.operators + whenFalse.operators + 1
  | _ => 0

/-- **The grammar**, with the tree that each phrase means and the levels that it takes. -/
inductive Derives : Phrase → List Char → Expr → Nat → Prop where
  | literal {text : List Char} {value : Float} (h : IsLiteral text value) :
      Derives .atom text (.constant value) 1
  | travelled : Derives .atom ['G'] .travelled 1
  | estimate : Derives .atom ['H'] .estimate 1
  | group {body : List Char} {tree : Expr} {n : Nat} (h : Derives .comparison body tree n) :
      Derives .atom ('(' :: body ++ [')']) tree (n + 1)
  | choice {c t f : List Char} {condition whenTrue whenFalse : Expr} {l m n : Nat}
      (hc : Derives .comparison c condition l) (ht : Derives .comparison t whenTrue m)
      (hf : Derives .comparison f whenFalse n) :
      Derives .atom ('i' :: 'f' :: '(' :: c ++ ',' :: t ++ ',' :: f ++ [')'])
        (.conditional condition whenTrue whenFalse) (max l (max m n) + 1)
  | ofAtom {text : List Char} {tree : Expr} {n : Nat} (h : Derives .atom text tree n) :
      Derives .product text tree n
  | times {l r : List Char} {left right : Expr} {m n : Nat} (hl : Derives .product l left m)
      (hr : Derives .atom r right n) :
      Derives .product (l ++ '*' :: r) (.binary .multiply left right) (max m (n + 1))
  | ofProduct {text : List Char} {tree : Expr} {n : Nat} (h : Derives .product text tree n) :
      Derives .sum text tree n
  | plus {l r : List Char} {left right : Expr} {m n : Nat} (hl : Derives .sum l left m)
      (hr : Derives .product r right n) :
      Derives .sum (l ++ '+' :: r) (.binary .add left right) (max m (n + 1))
  | minus {l r : List Char} {left right : Expr} {m n : Nat} (hl : Derives .sum l left m)
      (hr : Derives .product r right n) :
      Derives .sum (l ++ '-' :: r) (.binary .subtract left right) (max m (n + 1))
  | ofSum {text : List Char} {tree : Expr} {n : Nat} (h : Derives .sum text tree n) :
      Derives .comparison text tree n
  | less {l r : List Char} {left right : Expr} {m n : Nat} (hl : Derives .comparison l left m)
      (hr : Derives .sum r right n) :
      Derives .comparison (l ++ '<' :: r) (.binary .lessThan left right) (max m (n + 1))

/-! ## 1. Powers -/

namespace Phrase

/-- The power above which the operators of a phrase bind. -/
def bound : Phrase → Nat
  | atom => 30
  | product => 20
  | sum => 10
  | comparison => 0

/-- The greatest power of an operator that may follow a phrase as its left operand. -/
def limit : Phrase → Nat
  | atom => 30
  | product => 30
  | sum => 20
  | comparison => 10

theorem bound_le_limit (phrase : Phrase) : phrase.bound ≤ phrase.limit := by
  cases phrase <;> decide

end Phrase

namespace Operator

/-- The phrase that an operator makes, which its left operand is too. -/
def phrase : Operator → Phrase
  | multiply => .product
  | add => .sum
  | subtract => .sum
  | lessThan => .comparison

/-- The phrase that an operator takes on its right. -/
def operand : Operator → Phrase
  | multiply => .atom
  | add => .product
  | subtract => .product
  | lessThan => .sum

theorem bound_operand (op : Operator) : op.operand.bound = op.power := by
  cases op <;> rfl

theorem limit_phrase (op : Operator) : op.phrase.limit = op.power := by
  cases op <;> rfl

theorem bound_phrase_lt (op : Operator) : op.phrase.bound < op.power := by
  cases op <;> decide

/-- An operator above the bound of a phrase makes one that is no looser. -/
theorem bound_le_bound_phrase {op : Operator} {phrase : Phrase} (h : phrase.bound < op.power) :
    phrase.bound ≤ op.phrase.bound := by
  cases op <;> cases phrase <;> revert h <;> decide

/-- An operator within the limit of a phrase takes it as its left operand. -/
theorem bound_phrase_le {op : Operator} {phrase : Phrase} (h : op.power ≤ phrase.limit) :
    op.phrase.bound ≤ phrase.bound := by
  cases op <;> cases phrase <;> revert h <;> decide

end Operator

/-! ## 2. Derivations -/

namespace Derives

variable {phrase phrase' : Phrase} {text l r : List Char} {tree left right : Expr} {m n : Nat}

/-- A phrase is also one of every looser kind. -/
theorem loosen (h : Derives phrase text tree n) (hle : phrase'.bound ≤ phrase.bound) :
    Derives phrase' text tree n := by
  cases phrase <;> cases phrase' <;> first | exact absurd hle (by decide) | skip
  · exact h
  · exact h.ofAtom
  · exact h.ofAtom.ofProduct
  · exact h.ofAtom.ofProduct.ofSum
  · exact h
  · exact h.ofProduct
  · exact h.ofProduct.ofSum
  · exact h
  · exact h.ofSum
  · exact h

/-- An operator between its operands. -/
theorem join (op : Operator) (hl : Derives op.phrase l left m) (hr : Derives op.operand r right n) :
    Derives op.phrase (l ++ op.symbol :: r) (.binary op left right) (max m (n + 1)) := by
  cases op with
  | add => exact hl.plus hr
  | subtract => exact hl.minus hr
  | multiply => exact hl.times hr
  | lessThan => exact hl.less hr

theorem nesting_pos (h : Derives phrase text tree n) : 0 < n := by
  induction h with
  | literal _ => exact Nat.one_pos
  | travelled => exact Nat.one_pos
  | estimate => exact Nat.one_pos
  | group _ _ => exact Nat.succ_pos _
  | choice _ _ _ _ _ _ => exact Nat.succ_pos _
  | ofAtom _ ih => exact ih
  | ofProduct _ ih => exact ih
  | ofSum _ ih => exact ih
  | times _ _ ih _ => exact ih.trans_le (Nat.le_max_left _ _)
  | plus _ _ ih _ => exact ih.trans_le (Nat.le_max_left _ _)
  | minus _ _ ih _ => exact ih.trans_le (Nat.le_max_left _ _)
  | less _ _ ih _ => exact ih.trans_le (Nat.le_max_left _ _)

/-- What the grammar derives is never degenerate. -/
theorem ne_degenerate (h : Derives phrase text tree n) : tree ≠ .degenerate := by
  induction h with
  | group _ ih => exact ih
  | ofAtom _ ih => exact ih
  | ofProduct _ ih => exact ih
  | ofSum _ ih => exact ih
  | _ => exact Expr.noConfusion

end Derives

end Wayfinding
