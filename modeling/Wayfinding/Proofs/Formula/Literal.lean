import Wayfinding.Formula.Basic
import Wayfinding.Proofs.Number.Shortest

/-!
# Literals

* `IsLiteral`: a text of digits, with a point or without, and the number it denotes. It is read as
  that number, whatever follows it (`IsLiteral.readConstant`).
* What is written without an exponent is a literal of the same decimal
  (`isLiteral_writePositional`). A finite float without a minus sign is written as a literal of
  itself (`isLiteral_write`).
-/

namespace Wayfinding

open Nat (toDigits)

/-! ## 1. Reading digits -/

section Digits

variable {digits rest : List Char}

theorem takeWhile_digits (hd : ∀ c ∈ digits, c.isDigit = true)
    (hr : ∀ c, rest.head? = some c → c.isDigit = false) :
    (digits ++ rest).takeWhile Char.isDigit = digits := by
  rw [List.takeWhile_append_of_pos hd]
  cases rest with
  | nil => rw [List.takeWhile_nil, List.append_nil]
  | cons c rest => rw [List.takeWhile_cons_of_neg (by simp [hr c rfl]), List.append_nil]

theorem dropWhile_digits (hd : ∀ c ∈ digits, c.isDigit = true)
    (hr : ∀ c, rest.head? = some c → c.isDigit = false) :
    (digits ++ rest).dropWhile Char.isDigit = rest := by
  rw [List.dropWhile_append_of_pos hd]
  cases rest with
  | nil => rfl
  | cons c rest => rw [List.dropWhile_cons_of_neg (by simp [hr c rfl])]

theorem utf8Len_digits (hd : ∀ c ∈ digits, c.isDigit = true) :
    String.utf8Len digits = digits.length := by
  induction digits with
  | nil => rfl
  | cons c digits ih =>
      have hc : c.utf8Size = 1 := by
        have hdigit := hd c List.mem_cons_self
        simp only [Char.isDigit, Bool.and_eq_true, decide_eq_true_eq] at hdigit
        exact Char.utf8Size_eq_one_iff.mpr (UInt32.le_trans hdigit.2 (by decide))
      rw [String.utf8Len_cons, List.length_cons, ih fun c h => hd c (List.mem_cons_of_mem _ h), hc]

/-- Digits that no point follows are a whole number. -/
theorem readConstant_whole (hd : ∀ c ∈ digits, c.isDigit = true)
    (hr : ∀ c, rest.head? = some c → c.isDigit = false) (hp : rest.head? ≠ some '.')
    (policy : Policy) (position operators : Nat) :
    Expr.readConstant policy ⟨digits ++ rest, position, operators⟩ =
      .ok (.constant (Decimal.ofDigits digits []).toFloat,
        ⟨rest, position + digits.length, operators⟩) := by
  simp only [Expr.readConstant, Cursor.digits, Cursor.skipDigits, takeWhile_digits hd hr,
    dropWhile_digits hd hr, if_neg hp]

/-- Digits around a point are a number with a fraction. -/
theorem readConstant_fraction {fraction : List Char} (hd : ∀ c ∈ digits, c.isDigit = true)
    (hne : fraction ≠ []) (hf : ∀ c ∈ fraction, c.isDigit = true)
    (hr : ∀ c, rest.head? = some c → c.isDigit = false) (policy : Policy)
    (position operators : Nat) :
    Expr.readConstant policy ⟨digits ++ '.' :: fraction ++ rest, position, operators⟩ =
      .ok (.constant (Decimal.ofDigits digits fraction).toFloat,
        ⟨rest, position + (digits ++ '.' :: fraction).length, operators⟩) := by
  have hpoint : ∀ c, ('.' :: (fraction ++ rest)).head? = some c → c.isDigit = false := by
    intro c hc
    cases hc
    rfl
  have hsize : '.'.utf8Size = 1 := rfl
  rw [List.append_assoc, List.cons_append]
  simp only [Expr.readConstant, Cursor.digits, Cursor.skipDigits, Cursor.skip,
    takeWhile_digits hd hpoint, dropWhile_digits hd hpoint, takeWhile_digits hf hr,
    dropWhile_digits hf hr, List.head?_cons, if_true, if_neg hne, hsize, List.length_append,
    List.length_cons]
  congr 3
  omega

/-- Digits and a point that no digit follows are no number. -/
theorem readConstant_point (hd : ∀ c ∈ digits, c.isDigit = true)
    (hr : ∀ c, rest.head? = some c → c.isDigit = false) (policy : Policy)
    (position operators : Nat) :
    Expr.readConstant policy ⟨digits ++ '.' :: rest, position, operators⟩ =
      Expr.failAt policy .noFraction ⟨rest, position + digits.length + 1, operators⟩ := by
  have hpoint : ∀ c, ('.' :: rest).head? = some c → c.isDigit = false := by
    intro c hc
    cases hc
    rfl
  have hsize : '.'.utf8Size = 1 := rfl
  have hnone : ([] ++ rest).takeWhile Char.isDigit = [] := takeWhile_digits (by simp) hr
  rw [List.nil_append] at hnone
  simp only [Expr.readConstant, Cursor.digits, Cursor.skipDigits, Cursor.skip,
    takeWhile_digits hd hpoint, dropWhile_digits hd hpoint, hnone, List.head?_cons, if_true, hsize]

/-- Every text begins with digits, none at all perhaps, that no digit follows. -/
theorem exists_digits (cs : List Char) :
    ∃ digits rest, cs = digits ++ rest ∧ (∀ c ∈ digits, c.isDigit = true) ∧
      ∀ c, rest.head? = some c → c.isDigit = false := by
  refine ⟨cs.takeWhile Char.isDigit, cs.dropWhile Char.isDigit,
    (List.takeWhile_append_dropWhile).symm, fun c hc => List.mem_takeWhile_imp hc, fun c hc => ?_⟩
  have hnot := List.head?_dropWhile_not Char.isDigit cs
  rw [hc] at hnot
  simpa using hnot

end Digits

/-! ## 2. Literals -/

/-- The text is a run of digits, or two of them around a point, and denotes the number. -/
inductive IsLiteral : List Char → Float → Prop where
  | whole {digits : List Char} (hne : digits ≠ []) (hd : ∀ c ∈ digits, c.isDigit = true) :
      IsLiteral digits (Decimal.ofDigits digits []).toFloat
  | fractional {digits fraction : List Char} (hne : digits ≠ [])
      (hd : ∀ c ∈ digits, c.isDigit = true) (hne' : fraction ≠ [])
      (hf : ∀ c ∈ fraction, c.isDigit = true) :
      IsLiteral (digits ++ '.' :: fraction) (Decimal.ofDigits digits fraction).toFloat

namespace IsLiteral

variable {text : List Char} {value : Float}

theorem head (h : IsLiteral text value) : ∃ c others, text = c :: others ∧ c.isDigit = true := by
  cases h with
  | whole hne hd =>
      obtain ⟨c, others, rfl⟩ := List.exists_cons_of_ne_nil hne
      exact ⟨c, others, rfl, hd c List.mem_cons_self⟩
  | fractional hne hd hne' hf =>
      obtain ⟨c, others, rfl⟩ := List.exists_cons_of_ne_nil hne
      exact ⟨c, _, rfl, hd c List.mem_cons_self⟩

/-- The characters of a literal are one byte each. -/
theorem utf8Len_eq (h : IsLiteral text value) : String.utf8Len text = text.length := by
  cases h with
  | whole _ hd => exact utf8Len_digits hd
  | @fractional digits fraction _ hd _ hf =>
      have hpoint : '.'.utf8Size = 1 := rfl
      rw [String.utf8Len_append, String.utf8Len_cons, utf8Len_digits hd, utf8Len_digits hf, hpoint,
        List.length_append, List.length_cons]

/-- **A literal is read as its number**, whatever follows that is neither a digit nor a point. -/
theorem readConstant (h : IsLiteral text value) (policy : Policy) {rest : List Char}
    (hr : ∀ c, rest.head? = some c → c.isDigit = false ∧ c ≠ '.') (position operators : Nat) :
    Expr.readConstant policy ⟨text ++ rest, position, operators⟩ =
      .ok (.constant value, ⟨rest, position + text.length, operators⟩) := by
  have hdigit : ∀ c, rest.head? = some c → c.isDigit = false := fun c hc => (hr c hc).1
  cases h with
  | whole hne hd =>
      exact readConstant_whole hd hdigit (fun hp => (hr '.' hp).2 rfl) policy position operators
  | fractional hne hd hne' hf =>
      exact readConstant_fraction hd hne' hf hdigit policy position operators

end IsLiteral

/-- **Where a digit stands, either a literal is read**, and what follows does not go on with it, **or
a digit is missing after a point**. -/
theorem readConstant_cases {c : Char} (others : List Char) (hc : c.isDigit = true)
    (position operators : Nat) :
    (∃ text value rest, c :: others = text ++ rest ∧ IsLiteral text value ∧ ∀ policy,
      Expr.readConstant policy ⟨c :: others, position, operators⟩ =
        .ok (.constant value, ⟨rest, position + text.length, operators⟩)) ∨
    ∃ digits rest, c :: others = digits ++ '.' :: rest ∧ ∀ policy,
      Expr.readConstant policy ⟨c :: others, position, operators⟩ =
        Expr.failAt policy .noFraction ⟨rest, position + digits.length + 1, operators⟩ := by
  obtain ⟨digits, rest, hcs, hd, hr⟩ := exists_digits (c :: others)
  have hne : digits ≠ [] := by
    rintro rfl
    have := hr c (by rw [← List.nil_append rest, ← hcs]; rfl)
    rw [hc] at this
    cases this
  rw [hcs]
  by_cases hp : rest.head? = some '.'
  · obtain ⟨more, rfl⟩ := List.head?_eq_some_iff.mp hp
    obtain ⟨fraction, rest, rfl, hf, hr'⟩ := exists_digits more
    by_cases hne' : fraction = []
    · subst hne'
      exact Or.inr ⟨digits, rest, rfl, fun policy =>
        readConstant_point hd hr' policy position operators⟩
    · refine Or.inl ⟨digits ++ '.' :: fraction, _, rest, ?_, .fractional hne hd hne' hf,
        fun policy => ?_⟩
      · rw [List.append_assoc, List.cons_append]
      · rw [← readConstant_fraction hd hne' hf hr' policy position operators, List.append_assoc,
          List.cons_append]
  · exact Or.inl ⟨digits, _, rest, rfl, .whole hne hd, fun policy =>
      readConstant_whole hd hr hp policy position operators⟩

/-! ## 3. What is written -/

/-- The digits of a decimal, with zeros before and behind them, denote its coefficient. -/
theorem ofDigitChars_zeros (d : Decimal) (before behind : Nat) :
    Nat.ofDigitChars 10 (List.replicate before '0' ++ d.digits ++ List.replicate behind '0') 0 =
      d.coefficient * 10 ^ behind := by
  unfold Decimal.digits
  rw [Nat.ofDigitChars_append, Nat.ofDigitChars_append, Nat.ofDigitChars_replicate_zero,
    Nat.ofDigitChars_replicate_zero, Nat.mul_zero, Nat.ofDigitChars_ten_toDigits, Nat.mul_comm]

theorem isDigit_digits {d : Decimal} : ∀ c ∈ d.digits, c.isDigit = true :=
  fun _ hc => Nat.isDigit_of_mem_toDigits (by decide) (by decide) hc

theorem isDigit_zeros {zeros : Nat} : ∀ c ∈ List.replicate zeros '0', c.isDigit = true := by
  intro c hc
  rw [List.eq_of_mem_replicate hc]
  rfl

theorem isDigit_append {cs ds : List Char} (hc : ∀ c ∈ cs, c.isDigit = true)
    (hd : ∀ c ∈ ds, c.isDigit = true) : ∀ c ∈ cs ++ ds, c.isDigit = true := by
  intro c hmem
  rcases List.mem_append.mp hmem with h | h
  · exact hc c h
  · exact hd c h

theorem isLiteral_whole (d : Decimal) (zeros : Nat) :
    IsLiteral (d.digits ++ List.replicate zeros '0')
      (⟨d.coefficient * 10 ^ zeros, 0⟩ : Decimal).toFloat := by
  have hvalue : Decimal.ofDigits (d.digits ++ List.replicate zeros '0') [] =
      ⟨d.coefficient * 10 ^ zeros, 0⟩ := by
    unfold Decimal.ofDigits
    rw [List.append_nil]
    exact congrArg₂ Decimal.mk (ofDigitChars_zeros d 0 zeros) rfl
  have hne : d.digits ++ List.replicate zeros '0' ≠ [] :=
    List.append_ne_nil_of_left_ne_nil Nat.toDigits_ne_nil _
  rw [← hvalue]
  exact .whole hne (isDigit_append isDigit_digits isDigit_zeros)

theorem isLiteral_fraction {whole fraction : List Char} {coefficient n : Nat} (hne : whole ≠ [])
    (hd : ∀ c ∈ whole, c.isDigit = true) (hf : ∀ c ∈ fraction, c.isDigit = true)
    (hlength : fraction.length = n + 1)
    (hvalue : Nat.ofDigitChars 10 (whole ++ fraction) 0 = coefficient) :
    IsLiteral (whole ++ '.' :: fraction) (⟨coefficient, .negSucc n⟩ : Decimal).toFloat := by
  have hne' : fraction ≠ [] := List.ne_nil_of_length_eq_add_one hlength
  have hdecimal : Decimal.ofDigits whole fraction = ⟨coefficient, .negSucc n⟩ := by
    unfold Decimal.ofDigits
    rw [hvalue, hlength]
    rfl
  rw [← hdecimal]
  exact .fractional hne hd hne' hf

/-- The digits of a decimal around a point. -/
theorem isLiteral_inside {d : Decimal} {n : Nat} (h : n + 1 < d.digits.length) :
    IsLiteral (d.digits.take (d.digits.length - (n + 1)) ++
        '.' :: d.digits.drop (d.digits.length - (n + 1)))
      (⟨d.coefficient, .negSucc n⟩ : Decimal).toFloat := by
  refine isLiteral_fraction ?_ ?_ ?_ ?_ ?_
  · intro hnil
    have hlength := congrArg List.length hnil
    rw [List.length_take, List.length_nil] at hlength
    omega
  · intro c hc
    exact isDigit_digits c (List.mem_of_mem_take hc)
  · intro c hc
    exact isDigit_digits c (List.mem_of_mem_drop hc)
  · rw [List.length_drop]
    omega
  · rw [List.take_append_drop]
    exact Nat.ofDigitChars_ten_toDigits

/-- The digits of a decimal after a point and zeros. -/
theorem isLiteral_behind {d : Decimal} {n : Nat} (h : d.digits.length ≤ n + 1) :
    IsLiteral ('0' :: '.' :: List.replicate (n + 1 - d.digits.length) '0' ++ d.digits)
      (⟨d.coefficient, .negSucc n⟩ : Decimal).toFloat := by
  have hzero : ∀ c ∈ ['0'], c.isDigit = true := by
    intro c hc
    rw [List.mem_singleton.mp hc]
    rfl
  have hvalue := ofDigitChars_zeros d (n + 1 - d.digits.length + 1) 0
  rw [List.replicate_zero, List.append_nil, pow_zero, Nat.mul_one] at hvalue
  have hlength : (List.replicate (n + 1 - d.digits.length) '0' ++ d.digits).length = n + 1 := by
    rw [List.length_append, List.length_replicate]
    omega
  exact isLiteral_fraction (List.cons_ne_nil '0' []) hzero
    (isDigit_append isDigit_zeros isDigit_digits) hlength hvalue

/-- **What is written without an exponent is a literal of the same decimal.** -/
theorem isLiteral_writePositional (d : Decimal) :
    IsLiteral (Layout.plain.writePositional d) d.unscaled.toFloat := by
  obtain ⟨coefficient, zeros | n⟩ := d
  · have htext : Layout.plain.writePositional ⟨coefficient, .ofNat zeros⟩ =
        (⟨coefficient, 0⟩ : Decimal).digits ++ List.replicate zeros '0' := List.append_nil _
    rw [htext]
    exact isLiteral_whole ⟨coefficient, 0⟩ zeros
  · have hunscaled : (⟨coefficient, .negSucc n⟩ : Decimal).unscaled =
        ⟨coefficient, .negSucc n⟩ := rfl
    rw [hunscaled]
    unfold Layout.writePositional
    dsimp only
    by_cases hlt : n + 1 < (⟨coefficient, .negSucc n⟩ : Decimal).digits.length
    · rw [if_pos hlt]
      exact isLiteral_inside hlt
    · rw [if_neg hlt]
      exact isLiteral_behind (Nat.not_lt.mp hlt)

theorem isLiteral_toDigits (k : Nat) : IsLiteral (toDigits 10 k) k.toFloat := by
  have h := isLiteral_whole ⟨k, 0⟩ 0
  rw [List.replicate_zero, List.append_nil, pow_zero, Nat.mul_one] at h
  exact h

/-- **A finite float without a minus sign is written as a literal of it.** -/
theorem isLiteral_write {x : Float} (hx : x.isFinite = true)
    (hsign : Layout.isNegative x = false) : IsLiteral (Layout.plain.write x) x := by
  have h := isLiteral_writePositional (Decimal.shortest .up x)
  rw [Decimal.toFloat_shortest .up hx hsign] at h
  rw [write_eq hx hsign]
  exact h

end Wayfinding
