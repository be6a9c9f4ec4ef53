import Wayfinding.Formula.Reader

/-!
# Formulas

A `Formula` is an expression together with the text it was read from. `Formula.read` reads one under
a policy: `strict` refuses a text with a fault, `lenient` uses what could be read and ignores what is
left over at the end.
-/

namespace Wayfinding

/-- A priority formula. -/
structure Formula where
  source : String
  tree : Expr
deriving DecidableEq

namespace Formula

/-- Reads a formula under a policy. -/
def read (policy : Policy) (source : String) : Except Fault Formula :=
  (Expr.read policy source.toList).map fun tree => ⟨source, tree⟩

/-- Reads a formula and refuses a text with a fault, naming the first one. -/
def readStrict (source : String) : Except Fault Formula :=
  read .strict source

/-- Reads what can be read as a formula. -/
def readLenient (source : String) : Formula :=
  match read .lenient source with
  | .ok formula => formula
  | .error _ => ⟨source, .degenerate⟩

/-- The formula with all its parentheses. -/
def compiled (formula : Formula) : String :=
  String.ofList formula.tree.print

/-- Whether some part of the text could not be read. -/
def isDegenerate (formula : Formula) : Bool :=
  formula.tree.hasDegenerate

/-- The priority of a cell at a travelled cost and an estimate. -/
def priority (formula : Formula) (cost estimate : Nat) : Float :=
  formula.tree.evaluate cost estimate

end Formula

end Wayfinding
