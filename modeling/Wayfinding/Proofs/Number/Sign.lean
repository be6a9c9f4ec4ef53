import Wayfinding.Proofs.Number.Shortest

/-!
# Signs of floats

* `Unsigned u`: the unpacked float is a number or an infinity, and has no minus sign. Neither has a
  float that is packed from it (`isNegative_pack`, `isNaN_pack`).
* `Decimal.isNegative_toFloat`, `Decimal.isNaN_toFloat`: so is every float that a decimal is
  converted to, the infinity among them. The infinity is written `inf` (`write_infinity`).
* `eq_neg_zero`: a finite float with a minus sign that is not less than zero is the negative zero.
-/

namespace Wayfinding

open Float.Model Float.Model.UnpackedFloat

/-! ## 1. Operations on numbers without a minus sign -/

/-- The unpacked float is a number or an infinity, and has no minus sign. -/
inductive Unsigned : UnpackedFloat → Prop where
  | infinity : Unsigned (.infinity .positive)
  | zero : Unsigned (.zero .positive)
  | finite {m : Nat} {e : Int} (h : 0 < m) : Unsigned (.finite .positive m e h)

theorem unsigned_roundWithAccuracy (m : Nat) (e : Int) (accuracy : Accuracy) :
    Unsigned (roundWithAccuracy Format.binary64 .positive m e accuracy) := by
  unfold roundWithAccuracy
  dsimp only
  split
  · exact .zero
  · exact .finite _

namespace Denotes

variable {u v : UnpackedFloat} {m n : Nat}

theorem unsigned_mul (hu : Denotes u m) (hv : Denotes v n) :
    Unsigned (UnpackedFloat.mul Format.binary64 u v) := by
  cases hu with
  | zero =>
      cases hv with
      | zero => exact .zero
      | finite _ _ => exact .zero
  | finite _ _ =>
      cases hv with
      | zero => exact .zero
      | finite _ _ => exact unsigned_roundWithAccuracy _ _ _

theorem unsigned_div (hu : Denotes u m) (hv : Denotes v n) (hn : n ≠ 0) :
    Unsigned (UnpackedFloat.div Format.binary64 u v) := by
  cases hv with
  | zero => exact absurd rfl hn
  | finite _ _ =>
      cases hu with
      | zero => exact .zero
      | finite _ _ => exact unsigned_roundWithAccuracy _ _ _

end Denotes

theorem unsigned_ofScientific (m : Nat) (e : Int) :
    Unsigned (UnpackedFloat.ofScientific Format.binary64 m e) := by
  unfold UnpackedFloat.ofScientific
  split
  · exact .zero
  split
  · exact .infinity
  split
  · exact .zero
  split
  · exact unsigned_roundWithAccuracy _ _ _
  · exact unsigned_roundWithAccuracy _ _ _

/-- **A decimal is converted to a number without a minus sign**, on the quick path as on the general
one. -/
theorem Decimal.exists_unsigned (d : Decimal) :
    ∃ u, Unsigned u ∧ d.toFloat = Float.ofModel (Float.Model.pack u) := by
  unfold toFloat Float.ofScientific
  by_cases hquick : d.coefficient < 2 ^ 53 ∧ d.exponent.natAbs ≤ 22
  · rw [dif_pos hquick]
    obtain ⟨u, hu⟩ := exists_denotes hquick.1.le
    have hpower := denotes_powerOfTen (Nat.lt_succ_of_le hquick.2)
    split
    · refine ⟨_, hu.unsigned_div hpower (by positivity), ?_⟩
      show Float.ofModel (Float.Model.pack (UnpackedFloat.div Format.binary64 _ _)) = _
      rw [unpack_toUInt64 hu hquick.1]
      rfl
    · refine ⟨_, hu.unsigned_mul hpower, ?_⟩
      show Float.ofModel (Float.Model.pack (UnpackedFloat.mul Format.binary64 _ _)) = _
      rw [unpack_toUInt64 hu hquick.1]
      rfl
  · rw [dif_neg hquick]
    exact ⟨_, unsigned_ofScientific _ _, rfl⟩

/-! ## 2. Packed numbers without a minus sign -/

/-- The bits of what is packed: no sign, and not the pattern of what is no number. -/
theorem exists_components {u : UnpackedFloat} (h : Unsigned u) :
    ∃ exponent significand, UnpackedFloat.pack Format.binary64 u =
        packComponents Format.binary64 .positive exponent significand ∧
      (exponent ≠ -1#11 ∨ significand = 0#52) := by
  cases h with
  | infinity => exact ⟨_, _, rfl, Or.inr rfl⟩
  | zero => exact ⟨_, _, rfl, Or.inr rfl⟩
  | @finite m e h0 =>
      simp only [UnpackedFloat.pack]
      split
      · -- what is too large is packed as the infinity
        exact ⟨_, _, rfl, Or.inr rfl⟩
      · rename_i hexponent
        have hlimit : (2 : Nat) ^ Format.binary64.exponentBits = 2048 := rfl
        split
        · exact ⟨_, _, rfl, Or.inl (biased_eq (by omega)).2⟩
        · exact ⟨_, _, rfl, Or.inl (by decide)⟩

theorem isNegative_pack {u : UnpackedFloat} (h : Unsigned u) :
    Layout.isNegative (Float.ofModel (Float.Model.pack u)) = false := by
  obtain ⟨exponent, significand, hpack, -⟩ := exists_components h
  have hhigh : (Sign.positive.toBitVec ++ exponent).toNat = exponent.toNat := by
    have hsign : Sign.positive.toBitVec.toNat = 0 := rfl
    rw [BitVec.toNat_append, hsign, Nat.zero_shiftLeft, Nat.zero_or]
  have hexponent : exponent.toNat < 2 ^ 11 := exponent.isLt
  have hsignificand : significand.toNat < 2 ^ 52 := significand.isLt
  have hbit : Decimal.signBit = 2 ^ 63 := rfl
  refine decide_eq_false (not_le.mpr ?_)
  show (UnpackedFloat.pack Format.binary64 u).toNat < Decimal.signBit
  rw [hpack, hbit]
  show (Sign.positive.toBitVec ++ exponent ++ significand).toNat < _
  rw [BitVec.toNat_append, ← Nat.shiftLeft_add_eq_or_of_lt significand.isLt, hhigh,
    Nat.shiftLeft_eq]
  show exponent.toNat * 2 ^ 52 + significand.toNat < 2 ^ 63
  omega

/-- The pattern of what is no number. -/
theorem components_of_notANumber {b : BitVec 64}
    (h : UnpackedFloat.unpack Format.binary64 b = .notANumber) :
    @unpackExponent Format.binary64 b = -1#11 ∧ @unpackMantissa Format.binary64 b ≠ 0#52 := by
  unfold UnpackedFloat.unpack at h
  dsimp only at h
  split at h
  · rename_i hexponent
    split at h
    · cases h
    · rename_i hsignificand
      exact ⟨hexponent, hsignificand⟩
  · split at h
    · split at h <;> cases h
    · cases h

theorem isNaN_pack {u : UnpackedFloat} (h : Unsigned u) :
    (Float.ofModel (Float.Model.pack u)).isNaN = false := by
  obtain ⟨exponent, significand, hpack, hnumber⟩ := exists_components h
  rw [← Bool.not_eq_true, isNaN_iff]
  intro hnan
  have hcomponents := components_of_notANumber (b := UnpackedFloat.pack Format.binary64 u) hnan
  rw [hpack, unpackExponent_packComponents, unpackMantissa_packComponents] at hcomponents
  exact hnumber.elim (· hcomponents.1) hcomponents.2

namespace Decimal

theorem isNegative_toFloat (d : Decimal) : Layout.isNegative d.toFloat = false := by
  obtain ⟨u, hu, hfloat⟩ := d.exists_unsigned
  rw [hfloat]
  exact isNegative_pack hu

theorem isNaN_toFloat (d : Decimal) : d.toFloat.isNaN = false := by
  obtain ⟨u, hu, hfloat⟩ := d.exists_unsigned
  rw [hfloat]
  exact isNaN_pack hu

end Decimal

/-- The infinity is written as a word. -/
theorem write_infinity {x : Float} (hx : x.isFinite = false) (hn : x.isNaN = false)
    (hsign : Layout.isNegative x = false) : Layout.plain.write x = ['i', 'n', 'f'] := by
  have hinf : x.isInf = true := by
    change x.toModel.unpack.isFinite = false at hx
    change x.toModel.unpack.isNaN = false at hn
    change x.toModel.unpack.isInf = true
    generalize x.toModel.unpack = u at hx hn ⊢
    cases u with
    | notANumber => cases hn
    | infinity => rfl
    | zero => cases hx
    | finite => cases hx
  unfold Layout.write
  rw [hn, hinf, hsign]
  rfl

/-! ## 3. The negative zero -/

/-- The last bit is that of the minus sign. -/
theorem sign_of_le {b : BitVec 64} (h : 2 ^ 63 ≤ b.toNat) :
    Sign.ofBitVec (@unpackSign Format.binary64 b) = .negative := by
  have hlt := b.isLt
  have hone : @unpackSign Format.binary64 b = 1#1 := by
    refine BitVec.eq_of_toNat_eq ?_
    show (BitVec.extractLsb' 63 1 b).toNat = 1
    rw [BitVec.extractLsb'_toNat, Nat.shiftRight_eq_div_pow]
    omega
  rw [hone]
  rfl

/-- A finite float with a minus sign is a zero or less than zero. -/
theorem lt_zero_of_le {b : BitVec 64} (h : 2 ^ 63 ≤ b.toNat)
    (hfinite : (UnpackedFloat.unpack Format.binary64 b).isFinite = true) :
    b.toNat = 2 ^ 63 ∨
      (UnpackedFloat.unpack Format.binary64 b).lt (.zero .positive) = true := by
  unfold UnpackedFloat.unpack at hfinite ⊢
  dsimp only at hfinite ⊢
  rw [sign_of_le h] at hfinite ⊢
  by_cases hfull : @unpackExponent Format.binary64 b = -1#11
  · rw [if_pos hfull] at hfinite
    split at hfinite <;> cases hfinite
  rw [if_neg hfull]
  by_cases hexponent : @unpackExponent Format.binary64 b = 0#11
  · rw [if_pos hexponent]
    by_cases hsignificand : @unpackMantissa Format.binary64 b = 0#52
    · refine Or.inl ?_
      have hhigh : (BitVec.extractLsb' 52 11 b).toNat = 0 := congrArg BitVec.toNat hexponent
      have hlow : (BitVec.extractLsb' 0 52 b).toNat = 0 := congrArg BitVec.toNat hsignificand
      have hlt := b.isLt
      rw [BitVec.extractLsb'_toNat, Nat.shiftRight_eq_div_pow] at hhigh hlow
      omega
    · rw [dif_neg hsignificand]
      exact Or.inr rfl
  · rw [if_neg hexponent]
    exact Or.inr rfl

/-- **A finite float with a minus sign that is not less than zero is the negative zero.** -/
theorem eq_neg_zero {x : Float} (hx : x.isFinite = true) (hlt : ¬ x < 0)
    (hsign : Layout.isNegative x = true) : x = -0 := by
  have hle : 2 ^ 63 ≤ x.toBits.toBitVec.toNat := of_decide_eq_true hsign
  rcases lt_zero_of_le hle hx with hbits | hless
  · obtain ⟨bits, hvalid⟩ := x
    have hsame : bits = (-0 : Float).toBits := UInt64.toNat_inj.mp hbits
    subst hsame
    rfl
  · have hunpack : x.toModel.unpack.lt (0 : Float).toModel.unpack = true := hless
    exact absurd (lt_iff_unpack_lt.mpr hunpack) hlt

end Wayfinding
