import Wayfinding.Number.Layout
import Wayfinding.Proofs.Number.Scientific

/-!
# Writing floats

* `Magnitude x c q`: the float `x` is positive and finite, and `c · 2 ^ q` is its number. A finite
  float without a minus sign is zero or has such a form (`eq_zero_or_magnitude`).
* `Magnitude.value_exact`: its expansion denotes that number.
* `Decimal.toFloat_shortest`: the fewest digits of a finite float without a minus sign, or all of
  them if none are few enough, read back as it.
* `write_eq`: so such a float is written as those digits.
-/

namespace Wayfinding

open Float.Model Float.Model.UnpackedFloat

/-! ## 1. Positive floats -/

/-- The float `x` is the number `c · 2 ^ q`. -/
structure Magnitude (x : Float) (c : Nat) (q : Int) : Prop where
  canonical : Canonical c q
  le : q ≤ 971
  toBits : x.toBits.toNat = (q + 1074).toNat * 2 ^ 52 + c

/-- Every pattern of bits up to the infinity is a number. -/
theorem exists_magnitude {x : Float} (h0 : x.toBits.toNat ≠ 0)
    (hx : x.toBits.toNat < 2047 * 2 ^ 52) : ∃ c q, Magnitude x c q := by
  by_cases hfield : x.toBits.toNat < 2 ^ 52
  · exact ⟨x.toBits.toNat, -1074, ⟨by omega, by omega, le_rfl, Or.inr rfl⟩, by omega, by omega⟩
  · exact ⟨2 ^ 52 + x.toBits.toNat % 2 ^ 52, (x.toBits.toNat / 2 ^ 52 : Nat) - 1075,
      ⟨by omega, by omega, by omega, Or.inl (by omega)⟩, by omega, by omega⟩

/-- A float of full exponent bits is an infinity or no number. -/
theorem toBits_lt_of_isFinite {x : Float} (hx : x.isFinite = true)
    (hsign : Layout.isNegative x = false) : x.toBits.toNat < 2047 * 2 ^ 52 := by
  have hlt : x.toBits.toNat < 2 ^ 63 := not_le.mp (of_decide_eq_false hsign)
  by_contra hge
  have hfull : @unpackExponent Format.binary64 x.toBits.toBitVec = -1#11 := by
    refine BitVec.eq_of_toNat_eq ?_
    have hword : x.toBits.toBitVec.toNat = x.toBits.toNat := rfl
    show (BitVec.extractLsb' 52 11 x.toBits.toBitVec).toNat = 2047
    rw [BitVec.extractLsb'_toNat, Nat.shiftRight_eq_div_pow, hword]
    omega
  have hunpack : (UnpackedFloat.unpack Format.binary64 x.toBits.toBitVec).isFinite = true := hx
  simp only [UnpackedFloat.unpack, hfull, if_true] at hunpack
  split at hunpack <;> cases hunpack

theorem eq_zero_of_toBits {x : Float} (h0 : x.toBits.toNat = 0) : x = Nat.toFloat 0 := by
  obtain ⟨bits, hvalid⟩ := x
  have hbits : bits = (Nat.toFloat 0).toBits := UInt64.toNat_inj.mp h0
  subst hbits
  rfl

/-- **A finite float without a minus sign is zero or a positive number.** -/
theorem eq_zero_or_magnitude {x : Float} (hx : x.isFinite = true)
    (hsign : Layout.isNegative x = false) : x = Nat.toFloat 0 ∨ ∃ c q, Magnitude x c q := by
  by_cases h0 : x.toBits.toNat = 0
  · exact Or.inl (eq_zero_of_toBits h0)
  · exact Or.inr (exists_magnitude h0 (toBits_lt_of_isFinite hx hsign))

namespace Magnitude

variable {x : Float} {c : Nat} {q : Int}

theorem eq_pack (h : Magnitude x c q) :
    x = Float.ofModel (Float.Model.pack (.finite .positive c q h.canonical.pos)) :=
  h.canonical.eq_of_toBits h.le h.toBits

theorem abs_eq (h : Magnitude x c q) : x.abs = x := by
  rw [h.eq_pack]
  show Float.ofModel (Float.Model.pack (Float.Model.pack _).unpack.abs) = _
  rw [h.canonical.unpack_pack h.le]
  rfl

/-- The significand and the exponent are taken from the bits. -/
theorem binaryParts_eq (h : Magnitude x c q) : Decimal.binaryParts x = (c, q) := by
  have hlow := h.canonical.low
  have hlt := h.canonical.lt
  have hle := h.le
  have hsign : Decimal.signBit = 2 ^ 63 := rfl
  have hhidden : Decimal.hiddenBit = 2 ^ 52 := rfl
  unfold Decimal.binaryParts
  rw [h.toBits, hsign, hhidden]
  dsimp only
  rcases h.canonical.full with hfull | rfl
  · rw [if_neg (by omega)]
    refine Prod.ext ?_ ?_ <;> dsimp only <;> omega
  · by_cases hc : 2 ^ 52 ≤ c
    · rw [if_neg (by omega)]
      refine Prod.ext ?_ ?_ <;> dsimp only <;> omega
    · rw [if_pos (by omega)]
      refine Prod.ext ?_ rfl
      dsimp only
      omega

/-- **The expansion of a positive float denotes its number.** -/
theorem value_exact (h : Magnitude x c q) : (Decimal.exact x).value = c * 2 ^ q := by
  unfold Decimal.exact
  rw [h.binaryParts_eq]
  obtain n | n := q
  · simp only [Decimal.value, Int.ofNat_eq_natCast, zpow_natCast, zpow_zero, mul_one, Nat.pow_eq]
    push_cast
    rfl
  · simp only [Decimal.value, zpow_negSucc, Nat.pow_eq]
    have hten : (10 : ℚ) ^ (n + 1) = 2 ^ (n + 1) * 5 ^ (n + 1) := by
      rw [← mul_pow]
      norm_num
    rw [hten]
    push_cast
    field_simp

end Magnitude

/-! ## 2. The fewest digits -/

namespace Decimal

/-- The expansion of a zero has a single digit left. -/
theorem normal_exact {x : Float} (hx : (binaryParts x).1 = 0) : (exact x).normal = ⟨0, 0⟩ := by
  have hzero : (exact x).coefficient = 0 := by
    unfold exact
    generalize binaryParts x = parts at hx ⊢
    obtain ⟨m, q⟩ := parts
    change m = 0 at hx
    subst hx
    cases q <;> exact Nat.zero_mul _
  exact if_pos hzero

/-- **The fewest digits of a finite float read back as it**, if it has no minus sign. -/
theorem toFloat_shortest (tie : Tie) {x : Float} (hx : x.isFinite = true)
    (hsign : Layout.isNegative x = false) : (shortest tie x).unscaled.toFloat = x := by
  unfold shortest
  rcases eq_zero_or_magnitude hx hsign with rfl | ⟨c, q, h⟩
  · cases hshort : shortest? tie (Nat.toFloat 0) with
    | none =>
        rw [Option.getD_none, normal_exact rfl]
        rfl
    | some d => exact toFloat_of_shortest? hshort
  · cases hshort : shortest? tie x with
    | none =>
        have hvalue : (exact x).normal.unscaled.value = c * 2 ^ q := by
          rw [value_unscaled, value_normal, h.value_exact]
        exact (toFloat_of_value (exponent_unscaled_le _) h.canonical hvalue).trans h.eq_pack.symm
    | some d => exact (toFloat_of_shortest? hshort).trans h.abs_eq

end Decimal

/-! ## 3. What is written -/

/-- **A finite float without a minus sign is written in the fewest digits.** -/
theorem write_eq {x : Float} (hx : x.isFinite = true) (hsign : Layout.isNegative x = false) :
    Layout.plain.write x = Layout.plain.writePositional (Decimal.shortest .up x) := by
  have hnumber : x.isNaN = false ∧ x.isInf = false := by
    change x.toModel.unpack.isFinite = true at hx
    change x.toModel.unpack.isNaN = false ∧ x.toModel.unpack.isInf = false
    generalize x.toModel.unpack = u at hx ⊢
    cases u with
    | notANumber => cases hx
    | infinity => cases hx
    | zero => exact ⟨rfl, rfl⟩
    | finite => exact ⟨rfl, rfl⟩
  unfold Layout.write
  rw [hnumber.1, hnumber.2, hsign]
  rfl

/-- A whole number is finite and has no minus sign. -/
theorem isNegative_toFloat {n : Nat} (hn : n ≤ 2 ^ 53) : Layout.isNegative n.toFloat = false := by
  have hsign : Decimal.signBit = 2 ^ 63 := rfl
  refine decide_eq_false (not_le.mpr ?_)
  obtain ⟨u, hu⟩ := exists_denotes hn
  rw [toFloat_eq hu hn, hsign]
  cases hu with
  | zero => decide
  | finite h h0 =>
      have hl := h.le_of_le hn
      have hhi := h.hi
      have hbits := h.canonical.toBits_pack (by omega)
      show (Float.Model.pack _).toBits.toNat < _
      rw [hbits]
      omega

end Wayfinding
