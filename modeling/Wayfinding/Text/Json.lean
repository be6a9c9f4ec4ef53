import Wayfinding.Number.Layout

/-!
# JSON texts

`Json` holds the values that are written, with the fields of an object in the order given.
`Json.compact` writes a value on one line, `Json.pretty` a field or item on each line, two spaces
deeper than what it stands in.
-/

namespace Wayfinding

/-- A value of a JSON text. -/
inductive Json where
  | bool (value : Bool)
  | integer (value : Int)
  | float (value : Float)
  | string (value : String)
  | array (items : List Json)
  | object (fields : List (String × Json))

namespace Json

/-! ## 1. Scalars -/

/-- Floats have the fewest digits, a point in every number without an exponent, and an exponent
below `10 ^ -5` and from `10 ^ 16` on. What is not finite is `null`. -/
def layout : Layout where
  tie := .toEven
  positional := some (-5, 15)
  afterWhole := ".0".toList
  notANumber := "null".toList
  infinity := "null".toList
  negativeInfinity := "null".toList

/-- How one character is written in a string. -/
def escape (c : Char) : List Char :=
  match c with
  | '"' => ['\\', '"']
  | '\\' => ['\\', '\\']
  | '\x08' => ['\\', 'b']
  | '\x0c' => ['\\', 'f']
  | '\n' => ['\\', 'n']
  | '\r' => ['\\', 'r']
  | '\t' => ['\\', 't']
  | c =>
    if c.toNat < 0x20 then
      ['\\', 'u', '0', '0', Nat.digitChar (c.toNat / 16), Nat.digitChar (c.toNat % 16)]
    else [c]

/-- A string in its quotes. -/
def writeString (s : String) : List Char :=
  '"' :: s.toList.flatMap escape ++ ['"']

/-! ## 2. Values -/

/-- Where a text is broken into lines. -/
inductive Style where
  | compact
  | pretty
deriving DecidableEq, Repr

/-- What stands before an item at a depth. -/
def Style.lineBreak : Style → Nat → List Char
  | compact, _ => []
  | pretty, depth => '\n' :: List.replicate (2 * depth) ' '

/-- What stands between the name of a field and its value. -/
def Style.colon : Style → List Char
  | compact => [':']
  | pretty => [':', ' ']

mutual

/-- The text of a value at a depth. -/
def write (style : Style) (depth : Nat) : Json → List Char
  | bool value => (toString value).toList
  | integer value => (toString value).toList
  | float value => layout.write value
  | string value => writeString value
  | array [] => ['[', ']']
  | array (item :: items) =>
    '[' :: style.lineBreak (depth + 1) ++ write style (depth + 1) item ++
      writeItems style (depth + 1) items ++ style.lineBreak depth ++ [']']
  | object [] => ['\x7b', '\x7d']
  | object ((name, value) :: fields) =>
    '\x7b' :: style.lineBreak (depth + 1) ++ writeString name ++ style.colon ++
      write style (depth + 1) value ++ writeFields style (depth + 1) fields ++
      style.lineBreak depth ++ ['\x7d']

/-- The items after the first one. -/
def writeItems (style : Style) (depth : Nat) : List Json → List Char
  | [] => []
  | item :: items =>
    ',' :: style.lineBreak depth ++ write style depth item ++ writeItems style depth items

/-- The fields after the first one. -/
def writeFields (style : Style) (depth : Nat) : List (String × Json) → List Char
  | [] => []
  | (name, value) :: fields =>
    ',' :: style.lineBreak depth ++ writeString name ++ style.colon ++ write style depth value ++
      writeFields style depth fields

end

/-- The value on one line. -/
def compact (value : Json) : String :=
  String.ofList (value.write .compact 0)

/-- The value over many lines. -/
def pretty (value : Json) : String :=
  String.ofList (value.write .pretty 0)

end Json

end Wayfinding
