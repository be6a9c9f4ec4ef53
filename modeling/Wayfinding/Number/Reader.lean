import Wayfinding.Number.Decimal

/-!
# Reading numbers

* `readNatural?` reads digits with an optional plus sign, up to the greatest 64-bit number.
* `readFloat?` reads a signed decimal with an optional fraction and exponent, or one of the words
  for an infinity or for no number.

Only the digits `0` to `9` count, and nothing may stand before or after the number.
-/

namespace Wayfinding

/-- The greatest natural number that is read. -/
def maxNatural : Nat := 0xffffffffffffffff

/-- The number that a non-empty run of digits denotes. -/
def digitsValue? (cs : List Char) : Option Nat :=
  if cs ≠ [] ∧ cs.all Char.isDigit then some (Nat.ofDigitChars 10 cs 0) else none

/-- A natural number of at most 64 bits, with or without a plus sign. -/
def readNatural? (cs : List Char) : Option Nat :=
  let digits := match cs with
    | '+' :: rest => rest
    | _ => cs
  (digitsValue? digits).filter (· ≤ maxNatural)

/-- What follows the digits of a decimal: nothing, or the mark and the digits of an exponent. -/
def readExponent? : List Char → Option Int
  | [] => some 0
  | mark :: rest =>
    if mark = 'e' ∨ mark = 'E' then
      match rest with
      | '-' :: digits => (digitsValue? digits).map fun n => -(n : Int)
      | '+' :: digits => (digitsValue? digits).map fun n => (n : Int)
      | digits => (digitsValue? digits).map fun n => (n : Int)
    else none

/-- A decimal without a sign. It has a digit before or after its point. -/
def readDecimal? (cs : List Char) : Option Decimal :=
  let whole := cs.takeWhile Char.isDigit
  let (fraction, rest) := match cs.dropWhile Char.isDigit with
    | '.' :: more => (more.takeWhile Char.isDigit, more.dropWhile Char.isDigit)
    | more => ([], more)
  if whole = [] ∧ fraction = [] then none
  else
    let d := Decimal.ofDigits whole fraction
    (readExponent? rest).map fun e => ⟨d.coefficient, d.exponent + e⟩

/-- A float without a sign; the words are read in capitals too. -/
def readMagnitude? (cs : List Char) : Option Float :=
  let word := String.ofList (cs.map Char.toLower)
  if word = "inf" ∨ word = "infinity" then some (1 / 0)
  else if word = "nan" then some (0 / 0)
  else (readDecimal? cs).map Decimal.toFloat

/-- A float with or without a sign. -/
def readFloat? : List Char → Option Float
  | '-' :: rest => (readMagnitude? rest).map Float.neg
  | '+' :: rest => readMagnitude? rest
  | cs => readMagnitude? cs

end Wayfinding
