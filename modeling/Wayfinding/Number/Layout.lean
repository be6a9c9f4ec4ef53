import Wayfinding.Number.Decimal

/-!
# How a float is written

A `Layout` holds every decision that the digits of `Decimal.shortest` leave open; `Layout.write`
applies them. `Layout.plain` is the layout of the program's texts.
-/

namespace Wayfinding

/-- The decisions of a way to write floats.

* `tie`: which of two equally near decimals is written.
* `positional`: the powers of ten of the leading digit for which no exponent is written, all if
  `none`.
* `afterWhole`: what follows a number without a fraction.
* `notANumber`, `infinity`, `negativeInfinity`: what stands for a value that is no number, for a
  number that is too large, and for a negative one. -/
structure Layout where
  tie : Decimal.Tie
  positional : Option (Int × Int)
  afterWhole : List Char
  notANumber : List Char
  infinity : List Char
  negativeInfinity : List Char

namespace Layout

/-- The layout of texts: the fewest digits, never an exponent, and no point after a whole number. -/
def plain : Layout where
  tie := .up
  positional := none
  afterWhole := []
  notANumber := "NaN".toList
  infinity := "inf".toList
  negativeInfinity := "-inf".toList

/-- The power of ten of the leading digit. -/
def leadingPower (d : Decimal) : Int :=
  d.digits.length - 1 + d.exponent

/-- The decimal in digits alone, with a point before the fraction if it has one. -/
def writePositional (layout : Layout) (d : Decimal) : List Char :=
  match d.exponent with
  | .ofNat zeros => d.digits ++ List.replicate zeros '0' ++ layout.afterWhole
  | .negSucc n =>
    if n + 1 < d.digits.length then
      d.digits.take (d.digits.length - (n + 1)) ++ '.' :: d.digits.drop (d.digits.length - (n + 1))
    else
      '0' :: '.' :: List.replicate (n + 1 - d.digits.length) '0' ++ d.digits

/-- The decimal with one digit before the point and an exponent, its sign always written. -/
def writeExponent (d : Decimal) : List Char :=
  let fraction := match d.digits.drop 1 with
    | [] => []
    | rest => '.' :: rest
  let power := leadingPower d
  let sign := if power < 0 then '-' else '+'
  d.digits.take 1 ++ fraction ++ 'e' :: sign :: Nat.toDigits 10 power.natAbs

/-- Whether a leading digit at this power of ten is written without an exponent. -/
def isPositional (layout : Layout) (power : Int) : Bool :=
  match layout.positional with
  | none => true
  | some (least, greatest) => decide (least ≤ power) && decide (power ≤ greatest)

/-- The magnitude of a finite float. -/
def writeMagnitude (layout : Layout) (x : Float) : List Char :=
  let d := Decimal.shortest layout.tie x
  if layout.isPositional (leadingPower d) then layout.writePositional d else writeExponent d

/-- Whether the sign of a float is minus, which a zero has too. -/
def isNegative (x : Float) : Bool :=
  decide (Decimal.signBit ≤ x.toBits.toNat)

/-- The text of a float. -/
def write (layout : Layout) (x : Float) : List Char :=
  if x.isNaN then layout.notANumber
  else if x.isInf then (if isNegative x then layout.negativeInfinity else layout.infinity)
  else if isNegative x then '-' :: layout.writeMagnitude x
  else layout.writeMagnitude x

end Layout

end Wayfinding
