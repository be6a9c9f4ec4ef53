import Wayfinding.Proofs.Number.Sign

/-!
# The total order of floats

* `totalPlace`: where a pattern of 64 bits stands in the total order of all patterns. That order
  tells the two zeros apart, and has what is no number at both of its ends.
* `normalBits`: the pattern of a priority. Both zeros have one pattern, and so has all that is no
  number.
* `canonicalPlace u`: the place of the pattern that an unpacked float is packed to, by its exponent
  and its significand (`totalPlace_normalBits`).
* `totalPlace_lt_iff`: so the patterns of two priorities are in the total order as their numbers
  are.
-/

namespace Wayfinding

open Float.Model Float.Model.UnpackedFloat

/-! ## 1. Patterns -/

/-- The place of a pattern in the total order: those without a minus sign stand from zero on
upwards, those with one below them and downwards. -/
def totalPlace (bits : UInt64) : Int :=
  if bits.toNat < 2 ^ 63 then bits.toNat else 2 ^ 63 - 1 - (bits.toNat : Int)

/-- The pattern that stands for all that is no number. -/
def quietBits : UInt64 := 0x7ff8000000000000

/-- The pattern of a priority. A zero is added to every number, so the negative zero becomes the
positive one. -/
def normalBits (bits : UInt64) : UInt64 :=
  if (Float.ofBits bits).isNaN then quietBits else (Float.ofBits bits + 0).toBits

/-- The patterns of a float are one for each, but for what is no number. -/
theorem totalPlace_injective : Function.Injective totalPlace := by
  intro a b h
  unfold totalPlace at h
  refine UInt64.toNat_inj.mp ?_
  have ha := a.toNat_lt
  have hb := b.toNat_lt
  split at h <;> split at h <;> omega

/-! ## 2. What a pattern unpacks to -/

/-- The sign of a pattern. -/
def signOf (b : BitVec 64) : Sign :=
  if b.toNat < 2 ^ 63 then .positive else .negative

/-- What a pattern unpacks to, by its sign and its other bits. -/
inductive Pattern (b : BitVec 64) : UnpackedFloat → Prop where
  | notANumber : Pattern b .notANumber
  | infinity (h : b.toNat % 2 ^ 63 = 2047 * 2 ^ 52) : Pattern b (.infinity (signOf b))
  | zero : Pattern b (.zero (signOf b))
  | finite {m : Nat} {e : Int} (hc : Canonical m e) (hle : e ≤ 971)
      (h : b.toNat % 2 ^ 63 = (e + 1074).toNat * 2 ^ 52 + m) :
      Pattern b (.finite (signOf b) m e hc.pos)

section Unpack

variable (b : BitVec 64)

theorem toNat_mantissa : (@unpackMantissa Format.binary64 b).toNat = b.toNat % 2 ^ 52 := by
  show (BitVec.extractLsb' 0 52 b).toNat = _
  rw [BitVec.extractLsb'_toNat, Nat.shiftRight_zero]

theorem toNat_exponent : (@unpackExponent Format.binary64 b).toNat = b.toNat / 2 ^ 52 % 2 ^ 11 := by
  show (BitVec.extractLsb' 52 11 b).toNat = _
  rw [BitVec.extractLsb'_toNat, Nat.shiftRight_eq_div_pow]

theorem ofBitVec_unpackSign : Sign.ofBitVec (@unpackSign Format.binary64 b) = signOf b := by
  unfold signOf
  by_cases hlt : b.toNat < 2 ^ 63
  · have hzero : @unpackSign Format.binary64 b = 0#1 := by
      refine BitVec.eq_of_toNat_eq ?_
      show (BitVec.extractLsb' 63 1 b).toNat = 0
      rw [BitVec.extractLsb'_toNat, Nat.shiftRight_eq_div_pow]
      omega
    rw [if_pos hlt, hzero]
    rfl
  · rw [if_neg hlt]
    exact sign_of_le (Nat.not_lt.mp hlt)

/-- **The bits of a pattern are an exponent and a significand.** -/
theorem pattern_unpack : Pattern b (UnpackedFloat.unpack Format.binary64 b) := by
  have hmantissa := toNat_mantissa b
  have hexponent := toNat_exponent b
  have hfull : @unpackExponent Format.binary64 b = -1#11 ↔ b.toNat / 2 ^ 52 % 2 ^ 11 = 2047 := by
    rw [← BitVec.toNat_inj, hexponent]
    rfl
  have hnone : @unpackExponent Format.binary64 b = 0#11 ↔ b.toNat / 2 ^ 52 % 2 ^ 11 = 0 := by
    rw [← BitVec.toNat_inj, hexponent]
    rfl
  have hempty : @unpackMantissa Format.binary64 b = 0#52 ↔ b.toNat % 2 ^ 52 = 0 := by
    rw [← BitVec.toNat_inj, hmantissa]
    rfl
  have hbias : (Format.binary64.exponentBias +
      Format.binary64.mantissaBitsWithoutImplicit : Int) = 1075 := rfl
  have hlt := b.isLt
  unfold UnpackedFloat.unpack
  dsimp only
  rw [ofBitVec_unpackSign]
  split
  next h =>
    split
    next h' =>
      have h := hfull.mp h
      have h' := hempty.mp h'
      exact .infinity (by omega)
    next => exact .notANumber
  next hfinite =>
    have hfinite := mt hfull.mpr hfinite
    split
    next h =>
      have h := hnone.mp h
      split
      next => exact .zero
      next h' =>
        -- The leading bit is missing.
        have h' := mt hempty.mpr h'
        have he : ((@unpackExponent Format.binary64 b).toNat : Int) -
            (Format.binary64.exponentBias + Format.binary64.mantissaBitsWithoutImplicit) + 1 =
              -1074 := by
          rw [hexponent, h, hbias]
          rfl
        have hc : Canonical (@unpackMantissa Format.binary64 b).toNat (-1074) :=
          ⟨by omega, by omega, le_rfl, Or.inr rfl⟩
        simp only [he]
        exact .finite hc (by decide) (by omega)
    next h =>
      have h := mt hnone.mpr h
      have hbits :
          (1#1 ++ @unpackMantissa Format.binary64 b).toNat = 2 ^ 52 + b.toNat % 2 ^ 52 := by
        rw [BitVec.toNat_append, ← Nat.shiftLeft_add_eq_or_of_lt (BitVec.isLt _), hmantissa]
        rfl
      have he : ((@unpackExponent Format.binary64 b).toNat : Int) -
          (Format.binary64.exponentBias + Format.binary64.mantissaBitsWithoutImplicit) =
            (b.toNat / 2 ^ 52 % 2 ^ 11 : Nat) - 1075 := by
        rw [hexponent, hbias]
      have hc : Canonical (1#1 ++ @unpackMantissa Format.binary64 b).toNat
          ((b.toNat / 2 ^ 52 % 2 ^ 11 : Nat) - 1075) := by
        rw [hbits]
        exact ⟨by omega, by omega, by omega, Or.inl (by omega)⟩
      simp only [he]
      exact .finite hc (by omega) (by rw [hbits]; omega)

end Unpack

/-! ## 3. Places of numbers -/

/-- The place of a magnitude with a sign. -/
def signedPlace (magnitude : Int) : Sign → Int
  | .positive => magnitude
  | .negative => -magnitude - 1

/-- The place of the pattern of a priority, by the float it unpacks to. -/
def canonicalPlace : UnpackedFloat → Int
  | .infinity s => signedPlace (2047 * 2 ^ 52) s
  | .finite s m e _ => signedPlace ((e + 1074) * 2 ^ 52 + m) s
  | .zero _ => 0
  | .notANumber => 2047 * 2 ^ 52 + 2 ^ 51

theorem totalPlace_eq_signedPlace (bits : UInt64) :
    totalPlace bits =
      signedPlace ((bits.toNat % 2 ^ 63 : Nat) : Int) (signOf bits.toBitVec) := by
  have hlt := bits.toNat_lt
  have hbits : bits.toBitVec.toNat = bits.toNat := rfl
  unfold totalPlace signOf
  rw [hbits]
  split
  next h => rw [Nat.mod_eq_of_lt h]; rfl
  next h =>
    show (2 ^ 63 - 1 - (bits.toNat : Int)) = -((bits.toNat % 2 ^ 63 : Nat) : Int) - 1
    omega

/-- A pattern that is no number unpacks as such. -/
theorem unpack_of_isNaNBits {b : BitVec 64} (h : @isNaNBits Format.binary64 b = true) :
    UnpackedFloat.unpack Format.binary64 b = .notANumber := by
  obtain ⟨hexponent, hmantissa⟩ := of_decide_eq_true h
  unfold UnpackedFloat.unpack
  dsimp only
  rw [if_pos hexponent, if_neg hmantissa]

theorem unpack_ofBits (bits : UInt64) : (Float.ofBits bits).toModel.unpack =
    UnpackedFloat.unpack Format.binary64 bits.toBitVec := by
  show UnpackedFloat.unpack Format.binary64 (UnpackedFloat.pack Format.binary64
    (UnpackedFloat.unpack Format.binary64 bits.toBitVec)) = _
  rw [@pack_unpack Format.binary64 bits.toBitVec (by decide)]
  split
  next h => rw [unpack_packedNaN, unpack_of_isNaNBits h]
  next => rfl

/-- The pattern of a number is that of its float. -/
theorem toBits_ofBits {bits : UInt64} (hn : (Float.ofBits bits).toModel.unpack ≠ .notANumber) :
    (Float.ofBits bits).toBits = bits := by
  have hpack := @pack_unpack Format.binary64 bits.toBitVec (by decide)
  rw [if_neg fun h => hn ((unpack_ofBits bits).trans (unpack_of_isNaNBits h))] at hpack
  exact congrArg UInt64.ofBitVec hpack

theorem toBits_add_zero (x : Float) : (x + 0).toBits =
    UInt64.ofBitVec (UnpackedFloat.pack Format.binary64
      (UnpackedFloat.add Format.binary64 x.toModel.unpack (.zero .positive))) :=
  rfl

/-- A number that is not zero stays what it is when a zero is added to it. -/
theorem add_zero_of_ne {u : UnpackedFloat} (hn : u ≠ .notANumber) (hz : ∀ s, u ≠ .zero s) :
    UnpackedFloat.add Format.binary64 u (.zero .positive) = u := by
  cases u with
  | notANumber => exact absurd rfl hn
  | infinity s => rfl
  | zero s => exact absurd rfl (hz s)
  | finite s m e h => rfl

/-- The pattern of a priority that is neither zero nor no number is its own. -/
theorem normalBits_of_ne {bits : UInt64}
    (hn : (Float.ofBits bits).toModel.unpack ≠ .notANumber)
    (hz : ∀ s, (Float.ofBits bits).toModel.unpack ≠ .zero s) : normalBits bits = bits := by
  have hnumber : ¬ (Float.ofBits bits).isNaN = true := fun h => hn (isNaN_iff.mp h)
  unfold normalBits
  rw [if_neg hnumber, toBits_add_zero, add_zero_of_ne hn hz]
  refine Eq.trans ?_ (toBits_ofBits hn)
  exact congrArg UInt64.ofBitVec (pack_unpack_of_valid (Float.ofBits bits).toModel.valid)

theorem normalBits_of_zero {bits : UInt64} {s : Sign}
    (hz : (Float.ofBits bits).toModel.unpack = .zero s) : normalBits bits = 0 := by
  have hnumber : ¬ (Float.ofBits bits).isNaN = true := fun h => by
    cases hz.symm.trans (isNaN_iff.mp h)
  unfold normalBits
  rw [if_neg hnumber, toBits_add_zero, hz]
  cases s <;> rfl

/-- **The place of the pattern of a priority.** -/
theorem totalPlace_normalBits (bits : UInt64) : totalPlace (normalBits bits) =
    canonicalPlace (Float.ofBits bits).toModel.unpack := by
  have hpattern := pattern_unpack bits.toBitVec
  rw [← unpack_ofBits] at hpattern
  have hbits : bits.toBitVec.toNat = bits.toNat := rfl
  generalize hu : (Float.ofBits bits).toModel.unpack = u at hpattern
  cases hpattern with
  | notANumber =>
      unfold normalBits
      rw [if_pos (isNaN_iff.mpr hu)]
      rfl
  | infinity h =>
      rw [normalBits_of_ne (by rw [hu]; nofun) (by rw [hu]; nofun), totalPlace_eq_signedPlace,
        ← hbits, h]
      rfl
  | zero =>
      rw [normalBits_of_zero hu]
      rfl
  | @finite m e hc hle h =>
      rw [normalBits_of_ne (by rw [hu]; nofun) (by rw [hu]; nofun), totalPlace_eq_signedPlace,
        ← hbits, h]
      have hlow := hc.low
      have hmagnitude :
          (((e + 1074).toNat * 2 ^ 52 + m : Nat) : Int) = (e + 1074) * 2 ^ 52 + m := by
        push_cast
        rw [Int.toNat_of_nonneg (by omega)]
      rw [hmagnitude]
      rfl

/-! ## 4. The order -/

/-- A larger exponent makes a larger place, and with the same exponent a larger significand does. -/
theorem Canonical.place_lt_iff {m m' : Nat} {e e' : Int} (h : Canonical m e)
    (h' : Canonical m' e') :
    (e + 1074) * 2 ^ 52 + m < (e' + 1074) * 2 ^ 52 + m' ↔ e < e' ∨ e = e' ∧ m < m' := by
  have hlt := h.lt
  have hlt' := h'.lt
  have hlow := h.low
  have hlow' := h'.low
  rcases h.full with hfull | hfull <;> rcases h'.full with hfull' | hfull' <;> omega

theorem Canonical.place_bounds {m : Nat} {e : Int} (h : Canonical m e) (hle : e ≤ 971) :
    0 < (e + 1074) * 2 ^ 52 + m ∧ (e + 1074) * 2 ^ 52 + m < 2047 * 2 ^ 52 := by
  have hpos := h.pos
  have hlt := h.lt
  have hlow := h.low
  omega

/-- A finite number has the significand and the exponent of a float. -/
def IsCanonical : UnpackedFloat → Prop
  | .finite _ m e _ => Canonical m e ∧ e ≤ 971
  | _ => True

theorem isCanonical_unpack (x : Float) : IsCanonical x.toModel.unpack := by
  have hpattern := pattern_unpack x.toModel.toBits.toBitVec
  change Pattern _ x.toModel.unpack at hpattern
  generalize x.toModel.unpack = u at hpattern
  cases hpattern with
  | finite hc hle _ => exact ⟨hc, hle⟩
  | _ => exact trivial

/-- The places of patterns are in the order of the line of floats. -/
theorem canonicalPlace_lt_iff {u v : UnpackedFloat} (hu : IsCanonical u) (hv : IsCanonical v) :
    canonicalPlace u < canonicalPlace v ↔ unpackedRank u < unpackedRank v := by
  -- Two finite numbers go by their exponents and significands, all others by the bounds of places.
  rcases u with (_ | _) | _ | _ | ⟨su, m, e, _⟩
  case finite =>
    obtain ⟨hc, hle⟩ := hu
    have hbounds := hc.place_bounds hle
    rcases v with (_ | _) | _ | _ | ⟨sv, m', e', _⟩
    case finite =>
      obtain ⟨hc', hle'⟩ := hv
      have hbounds' := hc'.place_bounds hle'
      have hlt := hc.place_lt_iff hc'
      have hgt := hc'.place_lt_iff hc
      cases su <;> cases sv <;>
        simp only [canonicalPlace, signedPlace, unpackedRank, rank_lt_iff, true_and] <;> omega
    all_goals
      cases su <;> simp only [canonicalPlace, signedPlace, unpackedRank, rank_lt_iff] <;> omega
  all_goals
    rcases v with (_ | _) | _ | _ | ⟨sv, m', e', _⟩
    case finite =>
      obtain ⟨hc', hle'⟩ := hv
      have hbounds' := hc'.place_bounds hle'
      cases sv <;> simp only [canonicalPlace, signedPlace, unpackedRank, rank_lt_iff] <;> omega
    all_goals
      simp only [canonicalPlace, signedPlace, unpackedRank, rank_lt_iff]
      omega

/-- **The patterns of two priorities are in the total order as their numbers are.** -/
theorem totalPlace_lt_iff (a b : UInt64) : totalPlace (normalBits a) < totalPlace (normalBits b) ↔
    rank (Float.ofBits a) < rank (Float.ofBits b) := by
  rw [totalPlace_normalBits, totalPlace_normalBits]
  exact canonicalPlace_lt_iff (isCanonical_unpack _) (isCanonical_unpack _)

theorem totalPlace_eq_iff (a b : UInt64) : totalPlace (normalBits a) = totalPlace (normalBits b) ↔
    rank (Float.ofBits a) = rank (Float.ofBits b) := by
  have hab := totalPlace_lt_iff a b
  have hba := totalPlace_lt_iff b a
  constructor
  · intro h
    exact le_antisymm (not_lt.mp (mt hba.mpr h.not_gt)) (not_lt.mp (mt hab.mpr h.not_lt))
  · intro h
    exact le_antisymm (not_lt.mp (mt hba.mp h.not_gt)) (not_lt.mp (mt hab.mp h.not_lt))

end Wayfinding
