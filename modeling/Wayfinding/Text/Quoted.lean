import Wayfinding.Text.Unmarked

/-!
# Quoted texts

A quoted text shows every character: double quotes stand around it, a double quote or a backslash
in it has a backslash before it, four controls have a letter, and any other character without a
mark of its own is given by its number in hexadecimal.
-/

namespace Wayfinding.Text

/-- How one character is written inside quotes. -/
def quoteChar (c : Char) : List Char :=
  match c with
  | '\x00' => ['\\', '0']
  | '\t' => ['\\', 't']
  | '\r' => ['\\', 'r']
  | '\n' => ['\\', 'n']
  | '"' => ['\\', '"']
  | '\\' => ['\\', '\\']
  | c =>
    if isUnmarked c then ['\\', 'u', '\x7b'] ++ Nat.toDigits 16 c.toNat ++ ['\x7d'] else [c]

/-- The text in quotes. -/
def quoted (cs : List Char) : List Char :=
  '"' :: cs.flatMap quoteChar ++ ['"']

end Wayfinding.Text
