import Wayfinding.Number.Layout

/-!
# Priority expressions

* `Expr` is a tree over the travelled cost `G` and the estimate `H`. A part of a formula that could
  not be read is the single node `degenerate`.
* `Expr.join` and `Expr.choose` build the inner nodes. They pass `degenerate` on, so a tree that
  they built is degenerate as a whole or nowhere.
* `Expr.evaluate` is total: arithmetic is that of floats, a comparison is one or zero, and what is
  degenerate has the greatest finite value.
* `Expr.print` puts every operator in parentheses.
-/

namespace Wayfinding

/-! ## 1. Operators -/

/-- The operators with two operands. -/
inductive Operator where
  | add
  | subtract
  | multiply
  | lessThan
deriving DecidableEq, Repr

namespace Operator

/-- The character that stands for an operator. -/
def symbol : Operator → Char
  | add => '+'
  | subtract => '-'
  | multiply => '*'
  | lessThan => '<'

/-- The operator that a character stands for. -/
def ofSymbol? : Char → Option Operator
  | '+' => some add
  | '-' => some subtract
  | '*' => some multiply
  | '<' => some lessThan
  | _ => none

/-- How strongly an operator holds its operands: the greater power binds first. -/
def power : Operator → Nat
  | multiply => 30
  | add => 20
  | subtract => 20
  | lessThan => 10

/-- The value of an operator at two values. -/
def apply : Operator → Float → Float → Float
  | add, x, y => x + y
  | subtract, x, y => x - y
  | multiply, x, y => x * y
  | lessThan, x, y => if x < y then 1 else 0

@[simp] theorem ofSymbol?_symbol (op : Operator) : ofSymbol? op.symbol = some op := by
  cases op <;> rfl

theorem ofSymbol?_eq_some_iff {c : Char} {op : Operator} : ofSymbol? c = some op ↔ c = op.symbol := by
  constructor
  · intro h
    unfold ofSymbol? at h
    split at h <;> cases h <;> rfl
  · rintro rfl
    exact ofSymbol?_symbol op

theorem power_pos (op : Operator) : 0 < op.power := by
  cases op <;> decide

end Operator

/-! ## 2. Trees -/

/-- An expression over the travelled cost and the estimate of a cell. -/
inductive Expr where
  | constant (value : Float)
  | travelled
  | estimate
  | binary (op : Operator) (left right : Expr)
  | conditional (condition whenTrue whenFalse : Expr)
  | degenerate
deriving DecidableEq

namespace Expr

/-- An operator between two expressions, degenerate as soon as one of them is. -/
def join (op : Operator) : Expr → Expr → Expr
  | degenerate, _ => degenerate
  | _, degenerate => degenerate
  | left, right => binary op left right

/-- A choice between two expressions, degenerate as soon as one of the three is. -/
def choose : Expr → Expr → Expr → Expr
  | degenerate, _, _ => degenerate
  | _, degenerate, _ => degenerate
  | _, _, degenerate => degenerate
  | condition, whenTrue, whenFalse => conditional condition whenTrue whenFalse

theorem join_eq_degenerate_iff {op : Operator} {left right : Expr} :
    join op left right = degenerate ↔ left = degenerate ∨ right = degenerate := by
  cases left <;> cases right <;> simp [join]

theorem join_of_ne {op : Operator} {left right : Expr} (hl : left ≠ degenerate)
    (hr : right ≠ degenerate) : join op left right = binary op left right := by
  cases left <;> cases right <;> simp_all [join]

theorem choose_eq_degenerate_iff {condition whenTrue whenFalse : Expr} :
    choose condition whenTrue whenFalse = degenerate ↔
      condition = degenerate ∨ whenTrue = degenerate ∨ whenFalse = degenerate := by
  cases condition <;> cases whenTrue <;> cases whenFalse <;> simp [choose]

theorem choose_of_ne {condition whenTrue whenFalse : Expr} (hc : condition ≠ degenerate)
    (ht : whenTrue ≠ degenerate) (hf : whenFalse ≠ degenerate) :
    choose condition whenTrue whenFalse = conditional condition whenTrue whenFalse := by
  cases condition <;> cases whenTrue <;> cases whenFalse <;> simp_all [choose]

/-- Whether some part of the tree could not be read. -/
def hasDegenerate : Expr → Bool
  | constant _ => false
  | travelled => false
  | estimate => false
  | binary _ left right => left.hasDegenerate || right.hasDegenerate
  | conditional condition whenTrue whenFalse =>
    condition.hasDegenerate || whenTrue.hasDegenerate || whenFalse.hasDegenerate
  | degenerate => true

/-! ## 3. Values -/

/-- The greatest finite float. -/
def greatest : Float := Float.ofBits 0x7fefffffffffffff

/-- The value at a travelled cost `g` and an estimate `h`. Every condition but a zero holds. -/
def evaluate (g h : Nat) : Expr → Float
  | constant value => value
  | travelled => g.toFloat
  | estimate => h.toFloat
  | binary op left right => op.apply (left.evaluate g h) (right.evaluate g h)
  | conditional condition whenTrue whenFalse =>
    if condition.evaluate g h != 0 then whenTrue.evaluate g h else whenFalse.evaluate g h
  | degenerate => greatest

/-! ## 4. Text -/

/-- The expression with all its parentheses. -/
def print : Expr → List Char
  | constant value => Layout.plain.write value
  | travelled => ['G']
  | estimate => ['H']
  | binary op left right => '(' :: left.print ++ op.symbol :: right.print ++ [')']
  | conditional condition whenTrue whenFalse =>
    'i' :: 'f' :: '(' :: condition.print ++ ',' :: whenTrue.print ++ ',' :: whenFalse.print ++ [')']
  | degenerate => ['?']

end Expr

end Wayfinding
