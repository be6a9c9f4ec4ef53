/-!
# Blank characters

* `isBlank` holds of the 25 Unicode characters with the property `White_Space`, which take in the
  four that `Char.isWhitespace` knows (`isBlank_of_isWhitespace`).
* `trim` drops the blanks at both ends of a text, `words` cuts a text at its blanks.
-/

namespace Wayfinding.Text

/-- Whether a character has the Unicode property `White_Space`. -/
def isBlank (c : Char) : Bool :=
  let n := c.toNat
  (9 ≤ n && n ≤ 13) || n == 0x20 || n == 0x85 || n == 0xa0 || n == 0x1680 ||
    (0x2000 ≤ n && n ≤ 0x200a) || n == 0x2028 || n == 0x2029 || n == 0x202f || n == 0x205f ||
    n == 0x3000

theorem isBlank_of_isWhitespace {c : Char} (h : c.isWhitespace) : isBlank c := by
  simp only [Char.isWhitespace, Bool.or_eq_true, decide_eq_true_eq] at h
  rcases h with ((rfl | rfl) | rfl) | rfl <;> decide

/-- The text without the blanks it begins and ends with. -/
def trim (cs : List Char) : List Char :=
  ((cs.dropWhile isBlank).reverse.dropWhile isBlank).reverse

/-- Puts a character in front of the words that follow it, given whether the next character belongs
to the first of them. -/
def addToWords (c : Char) : Bool × List (List Char) → Bool × List (List Char)
  | (inside, found) =>
    if isBlank c then (false, found)
    else match inside, found with
      | true, word :: others => (true, (c :: word) :: others)
      | _, others => (true, [c] :: others)

/-- The longest runs of characters that are not blank, in order. -/
def words (cs : List Char) : List (List Char) :=
  (cs.foldr addToWords (false, [])).2

end Wayfinding.Text
