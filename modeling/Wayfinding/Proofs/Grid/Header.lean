import Wayfinding.Grid.Map
import Wayfinding.Proofs.Sequence
import Wayfinding.Proofs.Text.Lines
import Wayfinding.Proofs.Text.Words

/-!
# The header of a map

* `IsNumeral` says which texts stand for a number, `Grid.IsHeader` what the four lines of a header
  say, `Grid.HasHeader` that a text begins with such lines.
* `ofMap_of_header`: behind a header only the rows decide; `exists_header_of_ofMap`: and no text
  without one is a map.
-/

namespace Wayfinding

/-! ## 1. Numbers -/

/-- The text stands for a number of at most 64 bits: it has digits only, but for a plus sign that
may come first. -/
def IsNumeral (cs : List Char) (n : Nat) : Prop :=
  ∃ digits, (cs = digits ∨ cs = '+' :: digits) ∧ digits ≠ [] ∧ (∀ c ∈ digits, c.isDigit = true) ∧
    Nat.ofDigitChars 10 digits 0 = n ∧ n ≤ maxNatural

theorem digitsValue?_eq_some_iff {digits : List Char} {n : Nat} :
    digitsValue? digits = some n ↔
      digits ≠ [] ∧ (∀ c ∈ digits, c.isDigit = true) ∧ Nat.ofDigitChars 10 digits 0 = n := by
  unfold digitsValue?
  rw [← List.all_eq_true, ← and_assoc]
  by_cases h : digits ≠ [] ∧ digits.all Char.isDigit = true
  · rw [if_pos h, Option.some.injEq]
    exact ⟨fun hn => ⟨h, hn⟩, fun hn => hn.2⟩
  · rw [if_neg h]
    exact ⟨fun hn => (Option.some_ne_none n hn.symm).elim, fun hn => absurd hn.1 h⟩

/-- **The numbers that are read** are those that a text stands for. -/
theorem readNatural?_eq_some_iff {cs : List Char} {n : Nat} :
    readNatural? cs = some n ↔ IsNumeral cs n := by
  unfold readNatural?
  rw [Option.filter_eq_some_iff, digitsValue?_eq_some_iff, decide_eq_true_eq]
  split
  · rename_i rest
    constructor
    · intro ⟨⟨hne, hdigits, hvalue⟩, hle⟩
      exact ⟨rest, .inr rfl, hne, hdigits, hvalue, hle⟩
    · rintro ⟨digits, hsame | hsame, hne, hdigits, hvalue, hle⟩
      · have hplus := hdigits '+' (hsame ▸ List.mem_cons_self)
        exact absurd hplus (by decide)
      · cases hsame
        exact ⟨⟨hne, hdigits, hvalue⟩, hle⟩
  · rename_i hno
    constructor
    · intro ⟨⟨hne, hdigits, hvalue⟩, hle⟩
      exact ⟨cs, .inl rfl, hne, hdigits, hvalue, hle⟩
    · rintro ⟨digits, rfl | hsame, hne, hdigits, hvalue, hle⟩
      · exact ⟨⟨hne, hdigits, hvalue⟩, hle⟩
      · exact absurd hsame (hno digits)

theorem isDigit_of_mem_toDigits {c : Char} {n : Nat} (h : c ∈ Nat.toDigits 10 n) :
    c.isDigit = true :=
  Nat.isDigit_of_mem_toDigits (by decide) (by decide) h

/-- The digits of a number stand for it, if it has at most 64 bits. -/
theorem isNumeral_toDigits_iff {n m : Nat} :
    IsNumeral (Nat.toDigits 10 n) m ↔ n = m ∧ n ≤ maxNatural := by
  have hdigits : ∀ c ∈ Nat.toDigits 10 n, c.isDigit = true := fun _ hc =>
    isDigit_of_mem_toDigits hc
  constructor
  · rintro ⟨digits, rfl | hsame, _, _, rfl, hle⟩
    · rw [Nat.ofDigitChars_ten_toDigits] at hle ⊢
      exact ⟨rfl, hle⟩
    · have hplus := hdigits '+' (hsame ▸ List.mem_cons_self)
      exact absurd hplus (by decide)
  · rintro ⟨rfl, hle⟩
    exact ⟨_, .inl rfl, Nat.toDigits_ne_nil, hdigits, Nat.ofDigitChars_ten_toDigits, hle⟩

namespace Grid

variable {line value : List Char} {name : String} {n number : Nat}

/-! ## 2. Lines of a header -/

/-- The line has two words, the name of a field and a number. -/
def IsField (name : String) (line : List Char) (n : Nat) : Prop :=
  ∃ value, Text.HasWords line [name.toList, value] ∧ IsNumeral value n

theorem headerField_eq_ok_iff :
    headerField number name line = .ok value ↔ Text.HasWords line [name.toList, value] := by
  rw [Text.hasWords_iff]
  unfold headerField
  split
  · rename_i key found hwords
    rw [hwords]
    by_cases hkey : key = name.toList
    · rw [if_pos hkey, hkey]
      simp only [Except.ok.injEq, List.cons.injEq, true_and, and_true]
    · rw [if_neg hkey]
      simp only [reduceCtorEq, List.cons.injEq, hkey, false_and]
  · rename_i hno
    constructor
    · intro h
      cases h
    · intro h
      exact absurd h (hno _ _)

theorem headerNumber_eq_ok_iff : headerNumber number name line = .ok n ↔ IsField name line n := by
  unfold headerNumber IsField
  rw [bind_eq_ok_iff]
  refine exists_congr fun value => and_congr headerField_eq_ok_iff ?_
  rw [← readNatural?_eq_some_iff]
  cases readNatural? value with
  | none => simp only [reduceCtorEq]
  | some read => simp only [Except.ok.injEq, Option.some.injEq]

/-! ## 3. The header -/

/-- What the four lines before the rows say. -/
structure IsHeader (kind height width mark : List Char) (rows columns : Nat) : Prop where
  kind : Text.HasWords kind ["type".toList, "octile".toList]
  height : IsField "height" height rows
  width : IsField "width" width columns
  mark : Text.Embeds mark "map".toList

/-- The text begins with a header, and `body` are the lines after it. -/
def HasHeader (cs : List Char) (rows columns : Nat) (body : List (List Char)) : Prop :=
  ∃ kind height width mark, Text.HasLines cs (kind :: height :: width :: mark :: body) ∧
    IsHeader kind height width mark rows columns

theorem trim_eq_map_iff {mark : List Char} :
    Text.trim mark = "map".toList ↔ Text.Embeds mark "map".toList :=
  Text.trim_eq_iff (by simp [Text.IsTrimmed, Text.isBlank])

variable {rows columns : Nat} {body : List (List Char)} {grid : Grid} {text : String}

/-- **Behind a header only the rows decide.** -/
theorem ofMap_of_header (h : HasHeader text.toList rows columns body) :
    ofMap text = ofMapRows rows columns (rowsOfLines body) := by
  obtain ⟨kind, height, width, mark, hlines, hheader⟩ := h
  have hkind : headerField 1 "type" kind = .ok "octile".toList :=
    headerField_eq_ok_iff.mpr hheader.kind
  have hheight : headerNumber 2 "height" height = .ok rows :=
    headerNumber_eq_ok_iff.mpr hheader.height
  have hwidth : headerNumber 3 "width" width = .ok columns :=
    headerNumber_eq_ok_iff.mpr hheader.width
  have hmark := trim_eq_map_iff.mpr hheader.mark
  rw [ofMap, hlines.lines_eq]
  simp only [ofMapLines, headerLine, ok_bind, hkind, hheight, hwidth, hmark, ne_eq,
    not_true_eq_false, if_false]

theorem headerLine_eq_ok_iff {lines others : List (List Char)} :
    headerLine lines = .ok (line, others) ↔ lines = line :: others := by
  cases lines with
  | nil => simp only [headerLine, reduceCtorEq]
  | cons first rest => simp only [headerLine, Except.ok.injEq, Prod.mk.injEq, List.cons.injEq]

/-- **A map has a header.** -/
theorem exists_header_of_ofMap (h : ofMap text = .ok grid) :
    ∃ rows columns body, HasHeader text.toList rows columns body := by
  simp only [ofMap, ofMapLines, bind_eq_ok_iff, Prod.exists, headerLine_eq_ok_iff,
    headerField_eq_ok_iff] at h
  obtain ⟨kind, _, hlines, found, hkind, h⟩ := h
  split at h
  · obtain ⟨_, h, _⟩ := bind_eq_ok_iff.mp h
    cases h
  simp only [bind_eq_ok_iff, Prod.exists, headerLine_eq_ok_iff, headerNumber_eq_ok_iff] at h
  obtain ⟨height, _, rfl, rows, hheight, width, _, rfl, columns, hwidth, mark, body, rfl, h⟩ := h
  split at h
  · obtain ⟨_, h, _⟩ := bind_eq_ok_iff.mp h
    cases h
  rename_i hfound hmark
  rw [ne_eq, not_not] at hfound hmark
  exact ⟨rows, columns, body, kind, height, width, mark, Text.hasLines_iff.mpr hlines,
    hfound ▸ hkind, hheight, hwidth, trim_eq_map_iff.mp hmark⟩

end Grid

end Wayfinding
