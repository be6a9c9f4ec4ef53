/-!
# Lines

A line ends at a line feed or at the end of the text. The line feed, and one carriage return right
before it, do not belong to it. Nothing after the last line feed is no line.
-/

namespace Wayfinding.Text

/-- Puts a character in front of the lines that follow it, a line feed being the end of its line. -/
def addToLines (c : Char) : List (List Char) → List (List Char)
  | [] => [[c]]
  | line :: others => if c = '\n' then [c] :: line :: others else (c :: line) :: others

/-- A line without the mark at its end. -/
def dropLineEnd (line : List Char) : List Char :=
  match line.reverse with
  | '\n' :: '\r' :: rest => rest.reverse
  | '\n' :: rest => rest.reverse
  | _ => line

/-- The lines of a text, in order. -/
def lines (cs : List Char) : List (List Char) :=
  (cs.foldr addToLines []).map dropLineEnd

end Wayfinding.Text
