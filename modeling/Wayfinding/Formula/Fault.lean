/-!
# What is wrong with a formula

* A `Fault` names the byte at which a formula stops being one, and why.
* A `Policy` says what becomes of a text with a fault. The strict one ends the reading with the
  fault, the lenient one goes on with something in place of what could not be read.
-/

namespace Wayfinding

/-- Why a text is no formula. There are too many parts inside one another, or too many operators and
choices. The text ends where an operand should stand, no digit follows a decimal point, an operator
stands where an operand should, there is a blank, which no formula contains, or another character
that cannot stand there. Or another character, or the end, stands where only `wanted` may. -/
inductive FaultCause where
  | tooDeep
  | tooManyOperators
  | endOfFormula
  | noFraction
  | operator (symbol : Char)
  | blank
  | unexpected (found : Char)
  | missing (wanted : Char) (found : Option Char)
deriving DecidableEq, Repr

/-- A cause and the number of bytes before the place where it was found. -/
structure Fault where
  position : Nat
  cause : FaultCause
deriving DecidableEq, Repr

/-- What becomes of a text with a fault. -/
inductive Policy where
  | strict
  | lenient
deriving DecidableEq, Repr

/-- A strict reading ends with the fault, a lenient one goes on with `instead`. -/
def Policy.recover {α : Type} : Policy → Fault → α → Except Fault α
  | strict, fault, _ => .error fault
  | lenient, _, instead => .ok instead

/-- The words for a cause. -/
def FaultCause.message : FaultCause → String
  | tooDeep => "formula nests too deeply"
  | tooManyOperators => "formula has too many operators"
  | endOfFormula => "unexpected end of formula"
  | noFraction => "expected digits after decimal point"
  | operator symbol => s!"expected an operand but found operator '{symbol}'"
  | blank => "whitespace is not allowed in formulas"
  | unexpected found => s!"unexpected character '{found}'"
  | missing wanted (some found) => s!"expected '{wanted}' but found '{found}'"
  | missing wanted none => s!"expected '{wanted}' but found end of formula"

/-- The words for a fault. -/
def Fault.message (fault : Fault) : String :=
  s!"formula parse error at position {fault.position}: {fault.cause.message}"

end Wayfinding
