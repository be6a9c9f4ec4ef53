import Wayfinding.Number.Decimal
import Wayfinding.Proofs.Number.Natural

/-!
# Decimals that are floats

* `Decimal.value` is the number that a decimal denotes. Taking off or writing out the zeros at its
  end does not change it.
* `div_eq`: a quotient that is a float is computed exactly.
* `Decimal.toFloat_of_value`: so a decimal without a positive power of ten that denotes a float is
  converted to it, on the quick path as on the general one.
-/

namespace Wayfinding

open Float.Model Float.Model.UnpackedFloat
open Nat (toDigits)

/-! ## 1. The number of a decimal -/

namespace Decimal

/-- The number that a decimal denotes. -/
def value (d : Decimal) : ℚ :=
  d.coefficient * 10 ^ d.exponent

theorem value_unscaled (d : Decimal) : d.unscaled.value = d.value := by
  obtain ⟨coefficient, zeros | n⟩ := d
  · have hunscaled : (⟨coefficient, .ofNat zeros⟩ : Decimal).unscaled =
        ⟨coefficient * 10 ^ zeros, 0⟩ := rfl
    rw [hunscaled]
    simp only [value, Int.ofNat_eq_natCast, zpow_natCast, zpow_zero, mul_one]
    push_cast
    rfl
  · rfl

theorem exponent_unscaled_le (d : Decimal) : d.unscaled.exponent ≤ 0 := by
  obtain ⟨coefficient, zeros | n⟩ := d
  · exact le_refl (0 : Int)
  · exact Int.negSucc_le_zero n

/-- Taking zeros off the digits divides by a power of ten. -/
theorem ofDigitChars_takeWhile (ds : List Char) :
    Nat.ofDigitChars 10 ds 0 =
      10 ^ (ds.reverse.takeWhile (· == '0')).length *
        Nat.ofDigitChars 10 (ds.reverse.dropWhile (· == '0')).reverse 0 := by
  have hzeros : (ds.reverse.takeWhile (· == '0')).reverse =
      List.replicate (ds.reverse.takeWhile (· == '0')).length '0' := by
    refine List.eq_replicate_iff.mpr ⟨List.length_reverse, fun c hc => ?_⟩
    have hzero := List.mem_takeWhile_imp (List.mem_reverse.mp hc)
    exact eq_of_beq hzero
  have hsplit : ds = (ds.reverse.dropWhile (· == '0')).reverse ++
      List.replicate (ds.reverse.takeWhile (· == '0')).length '0' := by
    rw [← hzeros, ← List.reverse_append, List.takeWhile_append_dropWhile, List.reverse_reverse]
  conv => lhs; rw [hsplit]
  rw [Nat.ofDigitChars_append, Nat.ofDigitChars_replicate_zero]

/-- The zeros that are taken off the digits go into the power of ten. -/
theorem value_normal (d : Decimal) : d.normal.value = d.value := by
  obtain ⟨coefficient, exponent⟩ := d
  unfold normal digits
  dsimp only
  by_cases h0 : coefficient = 0
  · rw [if_pos h0]
    subst h0
    simp only [value, Nat.cast_zero, zero_mul]
  · rw [if_neg h0]
    have hdvd := ofDigitChars_takeWhile (toDigits 10 coefficient)
    rw [Nat.ofDigitChars_ten_toDigits] at hdvd
    generalize ((toDigits 10 coefficient).reverse.takeWhile (· == '0')).length = zeros at hdvd ⊢
    have hcut : coefficient / Nat.pow 10 zeros * 10 ^ zeros = coefficient :=
      Nat.div_mul_cancel (Dvd.intro _ hdvd.symm)
    have hcast : ((coefficient / Nat.pow 10 zeros : Nat) : ℚ) * 10 ^ zeros = coefficient := by
      exact_mod_cast hcut
    simp only [value]
    rw [zpow_add₀ (by norm_num), zpow_natCast, ← hcast]
    ring

end Decimal

/-! ## 2. Exact quotients -/

variable {c m m₁ m₂ : Nat} {q e e₁ e₂ : Int}

theorem two_zpow_le_mul (hm : m ≠ 0) : (2 : ℚ) ^ (m.log2 + e) ≤ m * 2 ^ e := by
  have hlog : (2 : ℚ) ^ m.log2 ≤ m := by exact_mod_cast Nat.log2_self_le hm
  rw [zpow_add₀ (by norm_num), zpow_natCast]
  exact mul_le_mul_of_nonneg_right hlog (by positivity)

theorem mul_lt_two_zpow : (m : ℚ) * 2 ^ e < 2 ^ (m.log2 + 1 + e) := by
  have hlog : (m : ℚ) < 2 ^ (m.log2 + 1) := by exact_mod_cast Nat.lt_log2_self
  have hsplit : (m.log2 + 1 + e : Int) = ((m.log2 + 1 : Nat) : Int) + e := by push_cast; ring
  rw [hsplit, zpow_add₀ (by norm_num), zpow_natCast]
  exact mul_lt_mul_of_pos_right hlog (by positivity)

theorem Canonical.mul_lt (h : Canonical c q) : (c : ℚ) * 2 ^ q < 2 ^ (53 + q) := by
  have hlt : (c : ℚ) < 2 ^ (53 : Int) := by exact_mod_cast h.lt
  rw [zpow_add₀ (by norm_num)]
  exact mul_lt_mul_of_pos_right hlt (by positivity)

theorem Canonical.value_pos (h : Canonical c q) : (0 : ℚ) < c * 2 ^ q :=
  mul_pos (by exact_mod_cast h.pos) (by positivity)

theorem Canonical.two_zpow_le (h : Canonical c q) : (2 : ℚ) ^ (-1074 : Int) ≤ c * 2 ^ q := by
  have hpos : (1 : ℚ) ≤ c := by exact_mod_cast h.pos
  calc (2 : ℚ) ^ (-1074 : Int) ≤ 2 ^ q := zpow_le_zpow_right₀ (by norm_num) h.low
    _ = 1 * 2 ^ q := (one_mul _).symm
    _ ≤ c * 2 ^ q := mul_le_mul_of_nonneg_right hpos (by positivity)

/-- Two significands at the exponents of equal numbers differ by zeros. -/
theorem eq_mul_of_value (hle : e ≤ q) (hv : (m : ℚ) * 2 ^ e = c * 2 ^ q) :
    m = c * 2 ^ (q - e).toNat := by
  have hsplit : q = ((q - e).toNat : Int) + e := by omega
  have hcast : (m : ℚ) = c * 2 ^ (q - e).toNat := by
    refine mul_right_cancel₀ (b := (2 : ℚ) ^ e) (by positivity) ?_
    rw [hv, mul_assoc, ← zpow_natCast, ← zpow_add₀ (by norm_num), ← hsplit]
  exact_mod_cast hcast

/-- A number has one significand and exponent. -/
theorem Canonical.unique {c' : Nat} {q' : Int} (h : Canonical c q) (h' : Canonical c' q')
    (hv : (c : ℚ) * 2 ^ q = c' * 2 ^ q') : c = c' ∧ q = q' := by
  have key : ∀ {a b : Nat} {p r : Int}, Canonical a p → Canonical b r →
      (a : ℚ) * 2 ^ p = b * 2 ^ r → ¬ p < r := by
    intro a b p r ha hb hab hlt
    have heq := eq_mul_of_value hlt.le hab
    have hfull : 2 ^ 52 ≤ b := hb.full.resolve_right (by have := ha.low; omega)
    have hpow : 2 ^ 1 ≤ 2 ^ (r - p).toNat := Nat.pow_le_pow_right (by decide) (by omega)
    have hmul := Nat.mul_le_mul hfull hpow
    have := ha.lt
    omega
  have hq : q = q' := le_antisymm (not_lt.mp (key h' h hv.symm)) (not_lt.mp (key h h' hv))
  subst hq
  have heq := eq_mul_of_value le_rfl hv
  rw [sub_self, Int.toNat_zero, pow_zero, Nat.mul_one] at heq
  exact ⟨heq, rfl⟩

section Quotient

variable (hv : (m₁ : ℚ) * 2 ^ e₁ = m₂ * 2 ^ e₂ * (c * 2 ^ q))
include hv

/-- The leading bit of a quotient is no higher than that of the float that it is. -/
theorem lead_lt_of_quotient (h : Canonical c q) (h₁ : 0 < m₁) :
    (m₁.log2 + e₁ : Int) < m₂.log2 + 1 + e₂ + (53 + q) := by
  refine (zpow_lt_zpow_iff_right₀ (a := (2 : ℚ)) (by norm_num)).mp ?_
  calc (2 : ℚ) ^ (m₁.log2 + e₁) ≤ m₁ * 2 ^ e₁ := two_zpow_le_mul h₁.ne'
    _ = m₂ * 2 ^ e₂ * (c * 2 ^ q) := hv
    _ < 2 ^ (m₂.log2 + 1 + e₂) * 2 ^ (53 + q) :=
        mul_lt_mul'' mul_lt_two_zpow h.mul_lt (by positivity) (by positivity)
    _ = 2 ^ (m₂.log2 + 1 + e₂ + (53 + q)) := (zpow_add₀ (by norm_num) _ _).symm

/-- Shifted to an exponent below that of the quotient, the dividend is a multiple of the divisor. -/
theorem shifted_of_quotient {t : Int} (hte : t ≤ e₁ - e₂) (htq : t ≤ q) :
    m₁ * 2 ^ (e₁ - e₂ - t).toNat = m₂ * (c * 2 ^ (q - t).toNat) := by
  have hleft : e₁ = ((e₁ - e₂ - t).toNat : Int) + (e₂ + t) := by omega
  have hright : q = ((q - t).toNat : Int) + t := by omega
  have hcast : (m₁ : ℚ) * 2 ^ (e₁ - e₂ - t).toNat = m₂ * (c * 2 ^ (q - t).toNat) := by
    refine mul_right_cancel₀ (b := (2 : ℚ) ^ (e₂ + t)) (by positivity) ?_
    calc (m₁ : ℚ) * 2 ^ (e₁ - e₂ - t).toNat * 2 ^ (e₂ + t) = m₁ * 2 ^ e₁ := by
          rw [mul_assoc, ← zpow_natCast, ← zpow_add₀ (by norm_num), ← hleft]
      _ = m₂ * 2 ^ e₂ * (c * 2 ^ q) := hv
      _ = m₂ * 2 ^ e₂ * (c * (2 ^ (q - t).toNat * 2 ^ t)) := by
          rw [← zpow_natCast, ← zpow_add₀ (by norm_num), ← hright]
      _ = m₂ * (c * 2 ^ (q - t).toNat) * 2 ^ (e₂ + t) := by
          rw [zpow_add₀ (by norm_num)]
          ring
  exact_mod_cast hcast

/-- **A quotient that is a float is computed exactly.** -/
theorem div_eq (h : Canonical c q) (h₁ : 0 < m₁) (h₂ : 0 < m₂) :
    UnpackedFloat.div Format.binary64 (.finite .positive m₁ e₁ h₁) (.finite .positive m₂ e₂ h₂) =
      .finite .positive c q h.pos := by
  have hlead := lead_lt_of_quotient hv h h₁
  obtain ⟨t, ht⟩ : ∃ t, t = min (e₁ - e₂) (Format.binary64.targetExponent
      (totalExponent m₁ e₁ - totalExponent m₂ e₂)) := ⟨_, rfl⟩
  have hte : t ≤ e₁ - e₂ := ht ▸ min_le_left _ _
  have htq : t ≤ q := by
    have hlow := h.low
    rw [ht]
    simp only [Format.targetExponent, totalExponent, Format.mantissaBits, Format.minExponent]
    push_cast
    omega
  have hshifted := shifted_of_quotient hv hte htq
  have hdiv : m₁ * 2 ^ (e₁ - e₂ - t).toNat / m₂ = c * 2 ^ (q - t).toNat := by
    rw [hshifted, Nat.mul_div_cancel_left _ h₂]
  have hmod : m₁ * 2 ^ (e₁ - e₂ - t).toNat % m₂ = 0 := by
    rw [hshifted, Nat.mul_mod_right]
  simp only [UnpackedFloat.div, divCore, ← ht, Nat.shiftLeft_eq, hdiv, hmod, accuracyOfFraction,
    if_true]
  exact roundWithAccuracy_eq h (by omega)

end Quotient

/-! ## 3. Whole numbers as floats -/

theorem Normal.value {n l : Nat} (h : Normal n c l) : (c : ℚ) * 2 ^ ((l : Int) - 52) = n := by
  have hcast : (c : ℚ) * 2 ^ l = n * 2 ^ 52 := by exact_mod_cast h.eq
  have hscale : (2 : ℚ) ^ ((l : Int) - 52) = 2 ^ l / 2 ^ 52 := by
    rw [zpow_sub₀ (by norm_num), zpow_natCast]
    rfl
  rw [hscale, ← mul_div_assoc, hcast]
  exact mul_div_cancel_right₀ _ (by positivity)

namespace Denotes

variable {u v : UnpackedFloat} {n : Nat}

/-- A whole number that is the number of a float. -/
theorem eq_finite (hu : Denotes u n) (h : Canonical c q) (hvalue : (n : ℚ) = c * 2 ^ q) :
    u = .finite .positive c q h.pos := by
  cases hu with
  | zero => exact absurd hvalue.symm h.value_pos.ne'
  | finite hn h0 =>
      obtain ⟨rfl, rfl⟩ := hn.canonical.unique h (hn.value.trans hvalue)
      rfl

/-- A quotient of whole numbers that is a float is computed exactly. -/
theorem div_eq (hu : Denotes u m) (hv : Denotes v n) (hn : n ≠ 0) (h : Canonical c q)
    (hvalue : (m : ℚ) = n * (c * 2 ^ q)) :
    UnpackedFloat.div Format.binary64 u v = .finite .positive c q h.pos := by
  have hne : (n : ℚ) * (c * 2 ^ q) ≠ 0 := mul_ne_zero (by exact_mod_cast hn) h.value_pos.ne'
  cases hv with
  | zero => exact absurd rfl hn
  | finite hn' h0' =>
      cases hu with
      | zero => exact absurd hvalue.symm hne
      | finite hm h0 =>
          refine Wayfinding.div_eq ?_ h h0 h0'
          rw [hm.value, hn'.value, hvalue]

end Denotes

/-- The significand of 53 bits of a number that has one. -/
def significand (n : Nat) : Nat :=
  n * 2 ^ 52 / 2 ^ n.log2

theorem toBits_powerOfTen : ∀ (e : Nat) (he : e < Float.exactlyRepresentablePowersOfTen.size),
    Float.exactlyRepresentablePowersOfTen[e].toBits.toNat =
      ((10 ^ e).log2 + 1022) * 2 ^ 52 + significand (10 ^ e) ∧
    significand (10 ^ e) * 2 ^ (10 ^ e).log2 = 10 ^ e * 2 ^ 52 ∧
    2 ^ 52 ≤ significand (10 ^ e) ∧ significand (10 ^ e) < 2 ^ 53 ∧ (10 ^ e).log2 ≤ 1023 := by
  decide +kernel

/-- The powers of ten of the table are exact, the greatest of them above `2 ^ 53` too. -/
theorem denotes_powerOfTen {e : Nat} (he : e < Float.exactlyRepresentablePowersOfTen.size) :
    Denotes Float.exactlyRepresentablePowersOfTen[e].toModel.unpack (10 ^ e) := by
  obtain ⟨hbits, heq, hlo, hhi, hlog⟩ := toBits_powerOfTen e he
  have h : Normal (10 ^ e) (significand (10 ^ e)) (10 ^ e).log2 := ⟨heq, hlo, hhi⟩
  have hc := h.canonical
  rw [hc.eq_of_toBits (by omega) (hbits.trans (by omega))]
  show Denotes (Float.Model.pack _).unpack _
  rw [hc.unpack_pack (by omega)]
  exact .finite h hc.pos

/-! ## 4. From a decimal to a float -/

section Scientific

variable {e : Nat}

/-- The power of ten of a decimal that denotes a float is not too low for the general path. -/
theorem le_log2_of_value (h : Canonical c q) (hv : (m : ℚ) = 10 ^ e * (c * 2 ^ q)) :
    e ≤ 2048 + m.log2 := by
  have hlog : (m : ℚ) < 2 ^ (m.log2 + 1) := by exact_mod_cast Nat.lt_log2_self
  have hten : (2 : ℚ) ^ (3 * e) ≤ 10 ^ e := by
    rw [pow_mul]
    exact pow_le_pow_left₀ (by norm_num) (by norm_num) e
  have hbits : (2 : ℚ) ^ ((3 * e : Nat) + (-1074) : Int) < 2 ^ ((m.log2 + 1 : Nat) : Int) := by
    rw [zpow_add₀ (by norm_num), zpow_natCast, zpow_natCast]
    calc (2 : ℚ) ^ (3 * e) * 2 ^ (-1074 : Int) ≤ 10 ^ e * (c * 2 ^ q) :=
          mul_le_mul hten h.two_zpow_le (by positivity) (by positivity)
      _ = m := hv.symm
      _ < 2 ^ (m.log2 + 1) := hlog
  have hlt := (zpow_lt_zpow_iff_right₀ (by norm_num)).mp hbits
  omega

theorem mul_finite {a b : Nat} {p r : Int} (ha : 0 < a) (hb : 0 < b) :
    UnpackedFloat.mul Format.binary64 (.finite .positive a p ha) (.finite .positive b r hb) =
      roundWithAccuracy Format.binary64 .positive (a * b) (p + r) .exact := rfl

/-- A whole number that is a float has no bit of it below its units, so 53 places behind them are
enough. -/
theorem roundWithAccuracy_whole (h : Canonical c q) (hm : m ≠ 0) (hv : (m : ℚ) = c * 2 ^ q) :
    roundWithAccuracy Format.binary64 .positive (m * 2 ^ 53) (-53) .exact =
      .finite .positive c q h.pos := by
  have hlow : -53 ≤ q := by
    have hone : (1 : ℚ) ≤ m := by exact_mod_cast Nat.one_le_iff_ne_zero.mpr hm
    have hbits : (2 : ℚ) ^ (0 : Int) < 2 ^ (53 + q) := by
      rw [zpow_zero]
      exact hone.trans_lt (hv ▸ h.mul_lt)
    have := (zpow_lt_zpow_iff_right₀ (by norm_num)).mp hbits
    omega
  have hscaled : m * 2 ^ 53 = c * 2 ^ (q - -53).toNat := by
    refine eq_mul_of_value hlow ?_
    rw [← hv]
    push_cast
    rw [mul_assoc]
    norm_num
  rw [hscaled]
  exact roundWithAccuracy_eq h (by omega)

/-- The general path converts a decimal that denotes a float to it. -/
theorem ofScientific_eq (h : Canonical c q) (hv : (m : ℚ) = 10 ^ e * (c * 2 ^ q)) :
    UnpackedFloat.ofScientific Format.binary64 m (-(e : Int)) = .finite .positive c q h.pos := by
  have hm : m ≠ 0 := by
    rintro rfl
    exact absurd hv.symm (mul_pos (by positivity) h.value_pos).ne'
  have hpower : (2 : Int) ^ Format.binary64.exponentBits = 2048 := rfl
  have hle := le_log2_of_value h hv
  rw [UnpackedFloat.ofScientific, dif_neg hm, if_neg (by omega), if_neg (by omega)]
  by_cases he : e = 0
  · subst he
    rw [pow_zero, one_mul] at hv
    have hround := roundWithAccuracy_whole h hm hv
    rw [if_pos (by omega), mul_finite]
    simp only [Nat.cast_zero, neg_zero, Int.toNat_zero, pow_zero, Nat.mul_one, add_zero,
      Nat.shiftLeft_eq]
    exact hround
  · rw [if_neg (by omega)]
    refine div_eq ?_ h _ _
    rw [zpow_zero, mul_one, mul_one, hv, neg_neg, Int.toNat_natCast]
    push_cast
    rfl

/-- The quick path, a table of powers of ten, converts a decimal that denotes a float to it. -/
theorem ofScientific_quick (h : Canonical c q) (hv : (m : ℚ) = 10 ^ e * (c * 2 ^ q))
    (hm : m < 2 ^ 53) (he : e ≤ 22) :
    Float.ofScientific m (decide (-(e : Int) < 0)) e =
      Float.ofModel (Float.Model.pack (.finite .positive c q h.pos)) := by
  obtain ⟨u, hu⟩ := exists_denotes hm.le
  have hpower := denotes_powerOfTen (Nat.lt_succ_of_le he)
  rw [Float.ofScientific, dif_pos ⟨hm, he⟩]
  by_cases he0 : e = 0
  · subst he0
    have hmul := hu.mul hpower (by omega)
    rw [pow_zero, Nat.mul_one] at hmul
    rw [pow_zero, one_mul] at hv
    show Float.ofModel (Float.Model.pack (UnpackedFloat.mul Format.binary64 _ _)) = _
    rw [unpack_toUInt64 hu hm]
    exact congrArg (fun u => Float.ofModel (Float.Model.pack u)) (hmul.eq_finite h hv)
  · have hdiv := hu.div_eq hpower (by positivity) h (by exact_mod_cast hv)
    rw [if_pos (decide_eq_true (by omega))]
    show Float.ofModel (Float.Model.pack (UnpackedFloat.div Format.binary64 _ _)) = _
    rw [unpack_toUInt64 hu hm]
    exact congrArg (fun u => Float.ofModel (Float.Model.pack u)) hdiv

/-- **A decimal without a positive power of ten that denotes a float is converted to it.** -/
theorem Decimal.toFloat_of_value {d : Decimal} (he : d.exponent ≤ 0) (h : Canonical c q)
    (hv : d.value = c * 2 ^ q) :
    d.toFloat = Float.ofModel (Float.Model.pack (.finite .positive c q h.pos)) := by
  obtain ⟨m, exponent⟩ := d
  obtain ⟨e, rfl⟩ : ∃ e : Nat, exponent = -(e : Int) :=
    ⟨exponent.natAbs, by simp only at he; omega⟩
  have hvalue : (m : ℚ) = 10 ^ e * (c * 2 ^ q) := by
    rw [← hv, value, zpow_neg, zpow_natCast]
    field_simp
  unfold toFloat
  dsimp only
  rw [Int.natAbs_neg, Int.natAbs_natCast]
  by_cases hquick : m < 2 ^ 53 ∧ e ≤ 22
  · exact ofScientific_quick h hvalue hquick.1 hquick.2
  · have hsigned : (if decide (-(e : Int) < 0) = true then Int.negOfNat e else Int.ofNat e) =
        -(e : Int) := by
      rcases Nat.eq_zero_or_pos e with rfl | hpos
      · rfl
      · rw [if_pos (decide_eq_true (by omega))]
        exact Int.negOfNat_eq
    rw [Float.ofScientific, dif_neg hquick]
    show Float.ofModel (Float.Model.pack (UnpackedFloat.ofScientific Format.binary64 m _)) = _
    rw [hsigned, ofScientific_eq h hvalue]

end Scientific

end Wayfinding
