/-!
# Decimals and the floats they denote

* `Decimal` is a natural coefficient with a power of ten; `Decimal.toFloat` is the float nearest
  to it.
* `Decimal.exact` is the finite decimal expansion of a float's magnitude.
* `Decimal.shortest` has the fewest digits that read back as that magnitude: for one digit, two
  digits and so on, the two neighbours of the float on that grid are tried, the nearer one first.
  What is found reads back by its choice (`toFloat_of_shortest?`).
-/

namespace Wayfinding

/-- The number `coefficient · 10 ^ exponent`. -/
structure Decimal where
  coefficient : Nat
  exponent : Int
deriving DecidableEq, Repr

namespace Decimal

/-! ## 1. From a decimal to a float -/

/-- The float nearest to a decimal; half-way between two floats, the one with the even significand. -/
def toFloat (d : Decimal) : Float :=
  Float.ofScientific d.coefficient (decide (d.exponent < 0)) d.exponent.natAbs

/-- The same number with no power of ten above the units. -/
def unscaled (d : Decimal) : Decimal :=
  match d.exponent with
  | .ofNat zeros => ⟨d.coefficient * Nat.pow 10 zeros, 0⟩
  | .negSucc _ => d

/-- The digits of the coefficient, the most significant one first. -/
def digits (d : Decimal) : List Char :=
  Nat.toDigits 10 d.coefficient

/-- The decimal written `whole.fraction`. -/
def ofDigits (whole fraction : List Char) : Decimal :=
  ⟨Nat.ofDigitChars 10 (whole ++ fraction) 0, -fraction.length⟩

/-- The same number with no trailing zero in its coefficient. -/
def normal (d : Decimal) : Decimal :=
  let zeros := (d.digits.reverse.takeWhile (· == '0')).length
  if d.coefficient = 0 then ⟨0, 0⟩ else ⟨d.coefficient / Nat.pow 10 zeros, d.exponent + zeros⟩

/-! ## 2. The expansion of a float -/

/-- The bit of the sign. -/
def signBit : Nat := 0x8000000000000000

/-- The leading bit of a significand, which is not stored. -/
def hiddenBit : Nat := 0x10000000000000

/-- The significand and the power of two whose product is the magnitude of a finite float. -/
def binaryParts (x : Float) : Nat × Int :=
  let magnitude := x.toBits.toNat % signBit
  let fraction := magnitude % hiddenBit
  let field : Nat := magnitude / hiddenBit
  if field = 0 then (fraction, -1074) else (hiddenBit + fraction, (field : Int) - 1075)

/-- The magnitude of a finite float, digit for digit: a half is five tenths, so it ends. -/
def exact (x : Float) : Decimal :=
  match binaryParts x with
  | (m, .ofNat q) => ⟨m * Nat.pow 2 q, 0⟩
  | (m, .negSucc q) => ⟨m * Nat.pow 5 (q + 1), .negSucc q⟩

/-! ## 3. The fewest digits -/

/-- Which neighbour is taken half-way between two. -/
inductive Tie where
  | up
  | toEven
deriving DecidableEq, Repr

/-- The two decimals next to `d` when its last `cut` digits are dropped, the one to prefer first. -/
def neighbours (tie : Tie) (d : Decimal) (cut : Nat) : List Decimal :=
  let unit := Nat.pow 10 cut
  let below : Decimal := ⟨d.coefficient / unit, d.exponent + cut⟩
  let above : Decimal := ⟨d.coefficient / unit + 1, d.exponent + cut⟩
  let fromBelow := match compare (2 * (d.coefficient % unit)) unit, tie with
    | .lt, _ => true
    | .gt, _ => false
    | .eq, .up => false
    | .eq, .toEven => below.coefficient % 2 == 0
  if fromBelow then [below, above] else [above, below]

/-- More digits than these are never needed to tell a float from its neighbours. -/
def enoughDigits : Nat := 17

/-- Whether a decimal, written without an exponent, reads back as the magnitude of `x`. -/
def readsBack (x : Float) (d : Decimal) : Bool :=
  decide (d.unscaled.toFloat = x.abs)

/-- The first decimal that reads back as the magnitude of `x`, with one digit, two digits and so
on. -/
def shortest? (tie : Tie) (x : Float) : Option Decimal :=
  let d := exact x
  let size := d.digits.length
  (List.range enoughDigits).findSome? fun n =>
    ((neighbours tie d (size - (n + 1))).map normal).find? (readsBack x)

/-- The decimal of fewest digits that reads back as the magnitude of `x`, the nearest one if
several do. -/
def shortest (tie : Tie) (x : Float) : Decimal :=
  (shortest? tie x).getD (exact x).normal

theorem toFloat_of_shortest? {tie : Tie} {x : Float} {d : Decimal} (h : shortest? tie x = some d) :
    d.unscaled.toFloat = x.abs := by
  obtain ⟨n, _, hn⟩ := List.exists_of_findSome?_eq_some h
  simpa [readsBack] using List.find?_some hn

end Decimal

end Wayfinding
