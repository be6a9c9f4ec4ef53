import Wayfinding.Formula.Expr
import Wayfinding.Formula.Fault
import Wayfinding.Text.Blank

/-!
# Reading an expression

* A `Cursor` stands in a text. It counts the bytes behind it and the operators read so far.
* A `Part` reads one part of an expression from a cursor on. Where nothing can be read, a strict
  policy ends the reading with the fault; a lenient one puts `Expr.degenerate` there and goes on.
* `expression` reads an operand and then every operator that binds more strongly than its bound.
  Its first argument counts the levels that are left below it; the recursion ends with them.
-/

namespace Wayfinding

/-- How many expressions may stand inside one another. -/
def maxNesting : Nat := 256

/-- How many operators and choices an expression may have. -/
def maxOperators : Nat := 1024

/-! ## 1. The cursor -/

/-- A place in the text that is being read: the text from there on, and how many bytes stand before
it and how many operators and choices. -/
structure Cursor where
  rest : List Char
  position : Nat
  operators : Nat
deriving DecidableEq

namespace Cursor

/-- The beginning of a text. -/
def start (cs : List Char) : Cursor :=
  ⟨cs, 0, 0⟩

/-- The place after the next character. -/
def skip (k : Cursor) : Cursor :=
  match k.rest with
  | [] => k
  | c :: rest => { k with rest, position := k.position + c.utf8Size }

/-- The digits that stand here. -/
def digits (k : Cursor) : List Char :=
  k.rest.takeWhile Char.isDigit

/-- The place after the digits that stand here, a byte each. -/
def skipDigits (k : Cursor) : Cursor :=
  { k with rest := k.rest.dropWhile Char.isDigit, position := k.position + k.digits.length }

/-- The end of the text. -/
def skipAll (k : Cursor) : Cursor :=
  { k with rest := [], position := k.rest.foldl (fun bytes c => bytes + c.utf8Size) k.position }

/-- One more operator is read. -/
def countOperator (k : Cursor) : Cursor :=
  { k with operators := k.operators + 1 }

/-- The fault of the given cause at this place. -/
def fault (k : Cursor) (cause : FaultCause) : Fault :=
  ⟨k.position, cause⟩

/-- The fault of a character that cannot stand at this place. -/
def unexpected (k : Cursor) (c : Char) : Fault :=
  k.fault (if Text.isBlank c then .blank else .unexpected c)

/-- Reads the character `wanted`, or says that it is missing. -/
def expect (policy : Policy) (wanted : Char) (k : Cursor) : Except Fault (Bool × Cursor) :=
  if k.rest.head? = some wanted then .ok (true, k.skip)
  else policy.recover (k.fault (.missing wanted k.rest.head?)) (false, k)

end Cursor

/-! ## 2. Parts of an expression -/

namespace Expr

/-- Reads one part of an expression. -/
abbrev Part := Cursor → Except Fault (Expr × Cursor)

/-- Nothing could be read here. -/
def failAt (policy : Policy) (cause : FaultCause) : Part := fun k =>
  policy.recover (k.fault cause) (degenerate, k)

/-- A limit is reached: the rest of the text is given up. -/
def giveUp (policy : Policy) (cause : FaultCause) : Part := fun k =>
  policy.recover (k.fault cause) (degenerate, k.skipAll)

/-- Digits, and after a point at least one more. -/
def readConstant (policy : Policy) : Part := fun k =>
  let whole := k.digits
  let k := k.skipDigits
  if k.rest.head? = some '.' then
    let k := k.skip
    if k.digits = [] then failAt policy .noFraction k
    else .ok (constant (Decimal.ofDigits whole k.digits).toFloat, k.skipDigits)
  else .ok (constant (Decimal.ofDigits whole []).toFloat, k)

/-- An expression and the character that ends it, without which the expression counts for
nothing. -/
def readUntil (policy : Policy) (closing : Char) (inside : Nat → Part) : Part := fun k => do
  let (tree, k) ← inside 0 k
  let (closed, k) ← k.expect policy closing
  return (if closed then tree else degenerate, k)

/-- An expression in parentheses. -/
def readGroup (policy : Policy) (inside : Nat → Part) : Part := fun k =>
  readUntil policy ')' inside k.skip

/-- The three expressions of a choice and what stands between and after them. -/
def readBranches (policy : Policy) (inside : Nat → Part) : Part := fun k => do
  let (condition, k) ← readUntil policy ',' inside k
  let (whenTrue, k) ← readUntil policy ',' inside k
  let (whenFalse, k) ← readUntil policy ')' inside k
  return (choose condition whenTrue whenFalse, k)

/-- A choice: three expressions in parentheses after the word `if`. -/
def readChoice (policy : Policy) (inside : Nat → Part) : Part := fun k =>
  if k.operators < maxOperators then do
    let (opened, k) ← k.skip.skip.countOperator.expect policy '('
    if opened then readBranches policy inside k else return (degenerate, k)
  else giveUp policy .tooManyOperators k

/-- Where an operator stands in place of an operand, a lenient reading passes over it and reads its
right operand. -/
def readBareOperator (policy : Policy) (inside : Nat → Part) (op : Operator) : Part := fun k =>
  match policy with
  | .strict => .error (k.fault (.operator op.symbol))
  | .lenient => inside op.power k.skip

/-- A part without an operator of its own. -/
def readOperand (policy : Policy) (inside : Nat → Part) : Part := fun k =>
  match k.rest with
  | [] => failAt policy .endOfFormula k
  | c :: rest =>
    if c.isDigit then readConstant policy k
    else if c = 'G' then .ok (travelled, k.skip)
    else if c = 'H' then .ok (estimate, k.skip)
    else if c = 'i' ∧ rest.head? = some 'f' then readChoice policy inside k
    else if c = '(' then readGroup policy inside k
    else match Operator.ofSymbol? c with
      | some op => readBareOperator policy inside op k
      | none => policy.recover (k.unexpected c) (degenerate, k.skip)

/-- The operator that stands here and its right operand, after the left one. -/
def readOperator (policy : Policy) (inside : Nat → Part) (op : Operator) (left : Expr) : Part :=
  fun k =>
    if k.operators < maxOperators then do
      let (right, k) ← inside op.power k.skip.countOperator
      return (join op left right, k)
    else giveUp policy .tooManyOperators k

/-- All operators that bind more strongly than `bound`, from left to right. Every round passes over
an operator, so as many rounds as there are characters are enough. -/
def readOperators (policy : Policy) (inside : Nat → Part) (bound : Nat) : Nat → Expr → Part
  | 0, left, k => .ok (left, k)
  | rounds + 1, left, k =>
    match k.rest.head?.bind Operator.ofSymbol? with
    | none => .ok (left, k)
    | some op =>
      if bound < op.power then do
        let (joined, k) ← readOperator policy inside op left k
        readOperators policy inside bound rounds joined k
      else .ok (left, k)

/-! ## 3. Expressions -/

/-- An expression whose operators all bind more strongly than `bound`, with as many levels inside
one another as the first argument says. -/
def expression (policy : Policy) : Nat → Nat → Part
  | 0, _, k => giveUp policy .tooDeep k
  | levels + 1, bound, k => do
    let (left, k) ← readOperand policy (expression policy levels) k
    readOperators policy (expression policy levels) bound k.rest.length left k

/-- The expression at the beginning of a text. Under a strict policy nothing may be left over after
it. -/
def read (policy : Policy) (cs : List Char) : Except Fault Expr := do
  let (tree, k) ← expression policy maxNesting 0 (Cursor.start cs)
  match k.rest with
  | [] => .ok tree
  | c :: _ => policy.recover (k.unexpected c) tree

end Expr

end Wayfinding
