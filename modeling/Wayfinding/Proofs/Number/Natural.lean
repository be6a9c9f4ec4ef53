import Wayfinding.Proofs.Search.Order

/-!
# Natural numbers as floats

* `Normal n c l` writes a natural number with a significand `c` of 53 bits and the power of two `l`
  of its leading bit. Every positive number up to `2 ^ 53` has such a form, and only one.
* `Denotes u n`: the unpacked float `u` is the number `n`.
* Up to `2 ^ 53` the conversion of natural numbers is exact (`denotes_toFloat`), and so are their
  sums and products (`denotes_add`, `denotes_mul`). Their order is that of the floats
  (`rank_lt_iff_of_denotes`).
-/

namespace Wayfinding

open Float.Model Float.Model.UnpackedFloat

/-! ## 1. Significands -/

/-- The number `n` has the significand `c` of 53 bits and its leading bit at `2 ^ l`. -/
structure Normal (n c l : Nat) : Prop where
  eq : c * 2 ^ l = n * 2 ^ 52
  lo : 2 ^ 52 ≤ c
  hi : c < 2 ^ 53

namespace Normal

variable {n m c d l k : Nat}

theorem two_pow_le (h : Normal n c l) : 2 ^ l ≤ n := by
  have h1 : 2 ^ 52 * 2 ^ l ≤ c * 2 ^ l := Nat.mul_le_mul_right _ h.lo
  rw [h.eq, Nat.mul_comm n] at h1
  exact Nat.le_of_mul_le_mul_left h1 (by decide)

theorem lt_two_pow (h : Normal n c l) : n < 2 ^ (l + 1) := by
  have h1 : c * 2 ^ l < 2 ^ 53 * 2 ^ l := Nat.mul_lt_mul_of_pos_right h.hi (Nat.two_pow_pos l)
  rw [h.eq, show 2 ^ 53 * 2 ^ l = 2 ^ (l + 1) * 2 ^ 52 by rw [pow_succ]; ring] at h1
  exact Nat.lt_of_mul_lt_mul_right h1

/-- Larger numbers have their leading bit no lower. -/
theorem mono (h : Normal n c l) (h' : Normal m d k) (hle : n ≤ m) : l ≤ k := by
  have h1 : 2 ^ l < 2 ^ (k + 1) := (h.two_pow_le.trans hle).trans_lt h'.lt_two_pow
  exact Nat.le_of_lt_succ ((Nat.pow_lt_pow_iff_right (by decide)).mp h1)

theorem unique (h : Normal n c l) (h' : Normal n d k) : c = d ∧ l = k := by
  have hl : l = k := Nat.le_antisymm (h.mono h' le_rfl) (h'.mono h le_rfl)
  subst hl
  exact ⟨Nat.eq_of_mul_eq_mul_right (Nat.two_pow_pos l) (h.eq.trans h'.eq.symm), rfl⟩

theorem lt_iff (h : Normal n c l) (h' : Normal m d k) : n < m ↔ l < k ∨ l = k ∧ c < d := by
  have hpos : 0 < 2 ^ l := Nat.two_pow_pos l
  rcases lt_trichotomy l k with hlk | rfl | hlk
  · have hpow : 2 ^ (l + 1) ≤ 2 ^ k := Nat.pow_le_pow_right (by decide) hlk
    exact iff_of_true (h.lt_two_pow.trans_le (hpow.trans h'.two_pow_le)) (Or.inl hlk)
  · have hmul : c < d ↔ c * 2 ^ l < d * 2 ^ l := (Nat.mul_lt_mul_right hpos).symm
    rw [hmul, h.eq, h'.eq, Nat.mul_lt_mul_right (by decide)]
    simp
  · have hpow : 2 ^ (k + 1) ≤ 2 ^ l := Nat.pow_le_pow_right (by decide) hlk
    have hmn : m < n := h'.lt_two_pow.trans_le (hpow.trans h.two_pow_le)
    exact iff_of_false hmn.not_gt (by omega)

theorem le_of_le (h : Normal n c l) (hn : n ≤ 2 ^ 53) : l ≤ 53 :=
  (Nat.pow_le_pow_iff_right (by decide)).mp (h.two_pow_le.trans hn)

end Normal

/-- Every positive number up to `2 ^ 53` has a significand of 53 bits. -/
theorem exists_normal {n : Nat} (h0 : 0 < n) (hn : n ≤ 2 ^ 53) : ∃ c l, Normal n c l := by
  have hlo := Nat.log2_self_le h0.ne'
  have hhi := Nat.lt_log2_self (n := n)
  rcases hn.lt_or_eq with hlt | rfl
  · have hl : n.log2 ≤ 52 := Nat.le_of_lt_succ ((Nat.log2_lt h0.ne').mpr hlt)
    have hsplit : 2 ^ 52 = 2 ^ (52 - n.log2) * 2 ^ n.log2 := by
      rw [← pow_add]
      congr 1
      omega
    refine ⟨n * 2 ^ (52 - n.log2), n.log2, ?_, ?_, ?_⟩
    · rw [Nat.mul_assoc, ← hsplit]
    · rw [hsplit, Nat.mul_comm]
      exact Nat.mul_le_mul_right _ hlo
    · rw [show (2 : Nat) ^ 53 = 2 ^ (n.log2 + 1) * 2 ^ (52 - n.log2) by
        rw [← pow_add]; congr 1; omega]
      exact Nat.mul_lt_mul_of_pos_right hhi (Nat.two_pow_pos _)
  · exact ⟨2 ^ 52, 53, by decide, le_rfl, by decide⟩

theorem log2_mul_two_pow {c k : Nat} (hc : c ≠ 0) : (c * 2 ^ k).log2 = c.log2 + k := by
  have hlo := Nat.log2_self_le hc
  have hhi := Nat.lt_log2_self (n := c)
  refine (Nat.log2_eq_iff (Nat.mul_ne_zero hc (Nat.two_pow_pos k).ne')).mpr ⟨?_, ?_⟩
  · rw [pow_add]
    exact Nat.mul_le_mul_right _ hlo
  · rw [show c.log2 + k + 1 = c.log2 + 1 + k by omega, pow_add]
    exact Nat.mul_lt_mul_of_pos_right hhi (Nat.two_pow_pos k)

/-- The significand `c` and the exponent `q` are those of a finite float: all 53 bits are used, unless
the exponent is the least one. -/
structure Canonical (c : Nat) (q : Int) : Prop where
  pos : 0 < c
  lt : c < 2 ^ 53
  low : -1074 ≤ q
  full : 2 ^ 52 ≤ c ∨ q = -1074

theorem Normal.canonical {n c l : Nat} (h : Normal n c l) : Canonical c ((l : Int) - 52) where
  pos := lt_of_lt_of_le (by decide) h.lo
  lt := h.hi
  low := by omega
  full := Or.inl h.lo

/-- A significand times a power of two is known from a multiple of it. -/
theorem eq_mul_two_pow {a c i j : Nat} (hij : i ≤ j) (h : a * 2 ^ i = c * 2 ^ j) :
    a = c * 2 ^ (j - i) := by
  refine Nat.eq_of_mul_eq_mul_right (Nat.two_pow_pos i) ?_
  rw [h, Nat.mul_assoc, ← pow_add, Nat.sub_add_cancel hij]

/-! ## 2. Rounding a number that needs none -/

theorem shiftRight_eq (c k : Nat) :
    (⟨c * 2 ^ k, false, false⟩ : ExtendedMantissa) >>> k = ⟨c, false, false⟩ := by
  show k.repeat ExtendedMantissa.shiftRightOne ⟨c * 2 ^ k, false, false⟩ = _
  induction k generalizing c with
  | zero => simp [Nat.repeat]
  | succ k ih =>
      rw [Nat.repeat, show c * 2 ^ (k + 1) = (c * 2) * 2 ^ k by rw [pow_succ]; ring, ih]
      simp [ExtendedMantissa.shiftRightOne]

theorem shiftRight_mantissa (em : ExtendedMantissa) (k : Nat) :
    (em >>> k).mantissa = em.mantissa / 2 ^ k := by
  show (k.repeat ExtendedMantissa.shiftRightOne em).mantissa = _
  induction k with
  | zero => simp [Nat.repeat]
  | succ k ih =>
      rw [Nat.repeat, ExtendedMantissa.shiftRightOne, ih, Nat.div_div_eq_div_mul, pow_succ]

/-- The zeros behind a significand do not count for the exponent that is aimed at. -/
theorem Canonical.targetExponent {c k : Nat} {q e : Int} (h : Canonical c q) (hq : e + k = q) :
    Format.binary64.targetExponent (totalExponent (c * 2 ^ k) e) = q := by
  have hlog : c.log2 ≤ 52 := Nat.le_of_lt_succ ((Nat.log2_lt h.pos.ne').mpr h.lt)
  have hfull : c.log2 = 52 ∨ q = -1074 :=
    h.full.imp_left fun hlo => (Nat.log2_eq_iff h.pos.ne').mpr ⟨hlo, h.lt⟩
  have hlow := h.low
  simp only [Format.targetExponent, totalExponent, log2_mul_two_pow h.pos.ne', Format.mantissaBits,
    Format.minExponent]
  push_cast
  omega

/-- The zeros behind a significand are shifted out. -/
theorem shiftToTargetExponent_eq {c k : Nat} {q e : Int} (h : Canonical c q) (hq : e + k = q) :
    shiftToTargetExponent Format.binary64 (c * 2 ^ k) e .exact = (⟨c, false, false⟩, q) := by
  have hshift : (q - e).toNat = k := by omega
  rw [shiftToTargetExponent, h.targetExponent hq, shiftToExponent, hshift, hq]
  simp only [ExtendedMantissa.ofMantissaAndAccuracy]
  rw [shiftRight_eq]

theorem roundWithAccuracy_eq {c k : Nat} {q e : Int} (h : Canonical c q) (hq : e + k = q) :
    roundWithAccuracy Format.binary64 .positive (c * 2 ^ k) e .exact =
      .finite .positive c q h.pos := by
  have hsecond := shiftToTargetExponent_eq (k := 0) h (Int.add_zero q)
  rw [pow_zero, Nat.mul_one] at hsecond
  rw [roundWithAccuracy, shiftToTargetExponent_eq h hq]
  simp only [ExtendedMantissa.roundedMantissa, ExtendedMantissa.accuracy,
    Accuracy.roundToNearestEven, hsecond, dif_neg h.pos.ne']

theorem round_eq {c k : Nat} {q e : Int} (h : Canonical c q) (hq : e + k = q) :
    UnpackedFloat.round Format.binary64 .positive (c * 2 ^ k) e = .finite .positive c q h.pos := by
  have hshift : (e - q).toNat = 0 := by omega
  rw [UnpackedFloat.round, h.targetExponent hq, decreaseExponent, hshift]
  simp only [Nat.shiftLeft_zero, Nat.cast_zero, sub_zero]
  exact roundWithAccuracy_eq h hq

theorem roundedMantissa_bounds (em : ExtendedMantissa) :
    em.mantissa ≤ em.roundedMantissa ∧ em.roundedMantissa ≤ em.mantissa + 1 := by
  have hmod : em.mantissa % 2 < 2 := Nat.mod_lt _ (by decide)
  unfold ExtendedMantissa.roundedMantissa
  cases em.accuracy with
  | exact => exact ⟨le_rfl, Nat.le_succ _⟩
  | inexact relative =>
      cases relative <;> simp only [Accuracy.roundToNearestEven] <;> omega

theorem targetExponent_eq {a k : Nat} {e : Int} (ha : a.log2 = 52 + k) (he : -1074 ≤ e + k) :
    Format.binary64.targetExponent (totalExponent a e) = e + k := by
  simp only [Format.targetExponent, totalExponent, ha, Format.mantissaBits, Format.minExponent]
  push_cast
  omega

/-- A longer number is rounded to 53 significant bits, and its leading bit rises by no more than
one. -/
theorem exists_roundWithAccuracy {a k : Nat} {e : Int} (ha : a.log2 = 52 + k)
    (he : -1074 ≤ e + k) :
    ∃ (c j : Nat) (h0 : 0 < c), roundWithAccuracy Format.binary64 .positive a e .exact =
      .finite .positive c (e + k + j) h0 ∧ 2 ^ 52 ≤ c ∧ c < 2 ^ 53 ∧ j ≤ 1 := by
  have hne : a ≠ 0 := by
    rintro rfl
    rw [Nat.log2_zero] at ha
    omega
  obtain ⟨hlo, hhi⟩ := (Nat.log2_eq_iff hne).mp ha
  obtain ⟨em, hem, hcut⟩ : ∃ em : ExtendedMantissa,
      shiftToTargetExponent Format.binary64 a e .exact = (em, e + k) ∧
        em.mantissa = a / 2 ^ k := by
    refine ⟨(⟨a, false, false⟩ : ExtendedMantissa) >>> k, ?_, shiftRight_mantissa _ k⟩
    rw [shiftToTargetExponent, targetExponent_eq ha he, shiftToExponent]
    simp only [add_sub_cancel_left, Int.toNat_natCast, ExtendedMantissa.ofMantissaAndAccuracy]
  have hclo : 2 ^ 52 ≤ em.mantissa := by
    rw [hcut, Nat.le_div_iff_mul_le (Nat.two_pow_pos k), ← pow_add]
    exact hlo
  have hchi : em.mantissa < 2 ^ 53 := by
    rw [hcut, Nat.div_lt_iff_lt_mul (Nat.two_pow_pos k), ← pow_add]
    exact hhi.trans_eq (by congr 1; omega)
  obtain ⟨hrlo, hrhi⟩ := roundedMantissa_bounds em
  -- rounding up may carry into a bit above the leading one
  obtain ⟨c, j, hr, hc, hj⟩ : ∃ c j, em.roundedMantissa = c * 2 ^ j ∧
      (2 ^ 52 ≤ c ∧ c < 2 ^ 53) ∧ j ≤ 1 := by
    rcases (hrhi.trans hchi).lt_or_eq with hlt | hcarry
    · exact ⟨em.roundedMantissa, 0, by rw [pow_zero, Nat.mul_one], ⟨hclo.trans hrlo, hlt⟩,
        Nat.zero_le 1⟩
    · exact ⟨2 ^ 52, 1, hcarry, ⟨le_rfl, by decide⟩, le_rfl⟩
  have h0 : 0 < c := lt_of_lt_of_le (by decide) hc.1
  have hcanonical : Canonical c (e + k + j) := ⟨h0, hc.2, by omega, Or.inl hc.1⟩
  have hsecond := shiftToTargetExponent_eq (k := j) hcanonical rfl
  refine ⟨c, j, h0, ?_, hc.1, hc.2, hj⟩
  rw [roundWithAccuracy, hem]
  simp only [hr, hsecond, dif_neg h0.ne']

theorem normalize_eq {a : Nat} (ha : 0 < a) (e : Int) :
    UnpackedFloat.normalize Format.binary64 (a : Int) e .positive =
      UnpackedFloat.round Format.binary64 .positive a e := by
  have hgt : compare (a : Int) 0 = .gt := compare_gt_iff_gt.mpr (Int.natCast_pos.mpr ha)
  rw [UnpackedFloat.normalize, hgt]
  rfl

/-- A number below `2 ^ 53` is scaled up to 53 bits. -/
theorem round_natural {n c l : Nat} (h : Normal n c l) (hl : l ≤ 52) (h0 : 0 < c) :
    UnpackedFloat.round Format.binary64 .positive n 0 =
      .finite .positive c ((l : Int) - 52) h0 := by
  have hn : n ≠ 0 := ((Nat.two_pow_pos l).trans_le h.two_pow_le).ne'
  have hlog : n.log2 = l := (Nat.log2_eq_iff hn).mpr ⟨h.two_pow_le, h.lt_two_pow⟩
  have htarget : Format.binary64.targetExponent (totalExponent n 0) = (l : Int) - 52 := by
    simp only [Format.targetExponent, totalExponent, hlog, Format.mantissaBits, Format.minExponent]
    push_cast
    omega
  have hscaled : n * 2 ^ (52 - l) = c * 2 ^ 0 := by
    rw [pow_zero, Nat.mul_one]
    exact (eq_mul_two_pow hl h.eq).symm
  have hshift : (0 - ((l : Int) - 52)).toNat = 52 - l := by omega
  rw [UnpackedFloat.round, htarget, decreaseExponent, hshift]
  simp only [Nat.shiftLeft_eq, hscaled]
  exact roundWithAccuracy_eq h.canonical (by omega)

/-- The sum of two positive numbers is rounded over the lower one of their exponents. -/
theorem add_eq {c d l k : Nat} (h0 : 0 < c) (h0' : 0 < d) :
    UnpackedFloat.add Format.binary64 (.finite .positive c ((l : Int) - 52) h0)
        (.finite .positive d ((k : Int) - 52) h0') =
      UnpackedFloat.round Format.binary64 .positive (c * 2 ^ (l - min l k) + d * 2 ^ (k - min l k))
        ((min l k : Nat) - 52) := by
  have hmin : min ((l : Int) - 52) ((k : Int) - 52) = (min l k : Nat) - 52 := by omega
  have hl : ((l : Int) - 52 - ((min l k : Nat) - 52)).toNat = l - min l k := by omega
  have hk : ((k : Int) - 52 - ((min l k : Nat) - 52)).toNat = k - min l k := by omega
  have hpos : 0 < c * 2 ^ (l - min l k) + d * 2 ^ (k - min l k) :=
    Nat.add_pos_left (Nat.mul_pos h0 (Nat.two_pow_pos _)) _
  simp only [UnpackedFloat.add, decreaseExponent, hmin, hl, hk, Nat.shiftLeft_eq, Sign.apply]
  exact normalize_eq hpos _

/-! ## 3. Packing -/

/-- A significand of 53 bits gets its leading bit back when it is unpacked. -/
theorem toNat_leading_append {c : Nat} (lo : 2 ^ 52 ≤ c) (hi : c < 2 ^ 53) :
    (1#1 ++ BitVec.ofNat 52 c).toNat = c := by
  rw [BitVec.toNat_append, ← Nat.shiftLeft_add_eq_or_of_lt (BitVec.isLt _), BitVec.toNat_ofNat,
    BitVec.toNat_ofNat, Nat.shiftLeft_eq]
  omega

/-- The bits of the exponent of a finite number. -/
theorem biased_eq {b : Nat} (hb : b ≤ 2046) :
    (BitVec.ofNat 11 b).toNat = b ∧ BitVec.ofNat 11 b ≠ -1#11 := by
  have hbits : (BitVec.ofNat 11 b).toNat = b := by
    rw [BitVec.toNat_ofNat]
    omega
  refine ⟨hbits, fun e => ?_⟩
  rw [e] at hbits
  have : (-1#11).toNat = 2047 := rfl
  omega

namespace Canonical

variable {c : Nat} {q : Int}

/-- The stored exponent, zero if the leading bit is missing. -/
def biased (c : Nat) (q : Int) : Nat :=
  if 2 ^ 52 ≤ c then (q + 1075).toNat else 0

theorem biased_le (c : Nat) (hq : q ≤ 971) : biased c q ≤ 2046 := by
  unfold biased
  split <;> omega

theorem pack_eq (h : Canonical c q) (hq : q ≤ 971) :
    UnpackedFloat.pack Format.binary64 (.finite .positive c q h.pos) =
      packComponents Format.binary64 .positive (BitVec.ofNat 11 (biased c q))
        (BitVec.ofNat 52 c) := by
  have hlow := h.low
  have hbiased : (q + Format.binary64.exponentBias +
      Format.binary64.mantissaBitsWithoutImplicit).toNat = (q + 1075).toNat := by
    simp only [Format.exponentBias]
    omega
  have hbits : Format.binary64.mantissaBits = 52 + 1 := rfl
  simp only [UnpackedFloat.pack, hbiased, hbits, biased]
  rw [if_neg (by norm_num; omega)]
  by_cases hlo : 2 ^ 52 ≤ c
  · have hlog : c.log2 = 52 := (Nat.log2_eq_iff h.pos.ne').mpr ⟨hlo, h.lt⟩
    rw [if_pos hlo, if_pos (by rw [hlog])]
  · have hlog : c.log2 < 52 := (Nat.log2_lt h.pos.ne').mpr (Nat.not_le.mp hlo)
    rw [if_neg hlo, if_neg (by omega)]

/-- **The bits of a positive float**, as one number. -/
theorem toBits_pack (h : Canonical c q) (hq : q ≤ 971) :
    (Float.Model.pack (.finite .positive c q h.pos)).toBits.toNat =
      (q + 1074).toNat * 2 ^ 52 + c := by
  have hlow := h.low
  have hlt := h.lt
  have hsign : Sign.positive.toBitVec.toNat = 0 := rfl
  have hhigh : (Sign.positive.toBitVec ++ BitVec.ofNat 11 (biased c q)).toNat = biased c q := by
    rw [BitVec.toNat_append, hsign, Nat.zero_shiftLeft, Nat.zero_or, (biased_eq (biased_le c hq)).1]
  show (UnpackedFloat.pack Format.binary64 (.finite .positive c q h.pos)).toNat = _
  rw [h.pack_eq hq]
  show (Sign.positive.toBitVec ++ BitVec.ofNat 11 (biased c q) ++ BitVec.ofNat 52 c).toNat = _
  rw [BitVec.toNat_append, ← Nat.shiftLeft_add_eq_or_of_lt (BitVec.isLt _), hhigh,
    Nat.shiftLeft_eq, BitVec.toNat_ofNat]
  unfold biased
  rcases h.full with hlo | rfl
  · rw [if_pos hlo]
    omega
  · split <;> omega

/-- **A positive float is not changed by packing.** -/
theorem unpack_pack (h : Canonical c q) (hq : q ≤ 971) :
    (Float.Model.pack (.finite .positive c q h.pos)).unpack = .finite .positive c q h.pos := by
  obtain ⟨hbits, hfinite⟩ := biased_eq (biased_le c hq)
  have hlow := h.low
  have hlt := h.lt
  have hexponent : (Format.binary64.exponentBias +
      Format.binary64.mantissaBitsWithoutImplicit : Int) = 1075 := rfl
  show UnpackedFloat.unpack Format.binary64 (UInt64.ofBitVec (UnpackedFloat.pack Format.binary64
    (.finite .positive c q h.pos))).toBitVec = _
  rw [h.pack_eq hq]
  simp only [UnpackedFloat.unpack, unpackMantissa_packComponents, unpackExponent_packComponents,
    unpackSign_packComponents, if_neg hfinite, hbits, hexponent]
  by_cases hlo : 2 ^ 52 ≤ c
  · have hb : biased c q = (q + 1075).toNat := if_pos hlo
    have hnormal : BitVec.ofNat 11 (biased c q) ≠ 0#11 := by
      intro e
      rw [e] at hbits
      have : (0#11).toNat = 0 := rfl
      omega
    have hq' : (((q + 1075).toNat : Nat) : Int) - 1075 = q := by omega
    rw [if_neg hnormal]
    simp only [toNat_leading_append hlo h.lt, hb, hq']
    rfl
  · have hb : biased c q = 0 := if_neg hlo
    have hq' : q = -1074 := h.full.resolve_left hlo
    have hc : (BitVec.ofNat 52 c).toNat = c := by
      rw [BitVec.toNat_ofNat]
      omega
    have hne : BitVec.ofNat 52 c ≠ 0#52 := by
      intro e
      rw [e] at hc
      exact absurd hc.symm h.pos.ne'
    subst hq'
    simp only [hb, if_true, dif_neg hne, hc]
    rfl

/-- A positive float is known from its bits. -/
theorem eq_of_toBits {x : Float} (h : Canonical c q) (hq : q ≤ 971)
    (hx : x.toBits.toNat = (q + 1074).toNat * 2 ^ 52 + c) :
    x = Float.ofModel (Float.Model.pack (.finite .positive c q h.pos)) := by
  obtain ⟨bits, hvalid⟩ := x
  have hbits : bits = (Float.Model.pack (.finite .positive c q h.pos)).toBits :=
    UInt64.toNat_inj.mp (hx.trans (h.toBits_pack hq).symm)
  subst hbits
  rfl

end Canonical

/-! ## 4. Floats that are natural numbers -/

/-- The unpacked float is the natural number. -/
inductive Denotes : UnpackedFloat → Nat → Prop where
  | zero : Denotes (.zero .positive) 0
  | finite {n c l : Nat} (h : Normal n c l) (h0 : 0 < c) :
      Denotes (.finite .positive c ((l : Int) - 52) h0) n

theorem exists_denotes {n : Nat} (hn : n ≤ 2 ^ 53) : ∃ u, Denotes u n := by
  rcases Nat.eq_zero_or_pos n with rfl | hpos
  · exact ⟨_, .zero⟩
  · obtain ⟨c, l, h⟩ := exists_normal hpos hn
    exact ⟨_, .finite h (lt_of_lt_of_le (by decide) h.lo)⟩

namespace Denotes

variable {u v : UnpackedFloat} {m n : Nat}

theorem unique (h : Denotes u n) (h' : Denotes v n) : u = v := by
  cases h with
  | zero =>
      cases h' with
      | zero => rfl
      | finite h' _ => exact absurd h'.two_pow_le (Nat.not_le.mpr (Nat.two_pow_pos _))
  | finite h h0 =>
      cases h' with
      | zero => exact absurd h.two_pow_le (Nat.not_le.mpr (Nat.two_pow_pos _))
      | finite h' _ =>
          obtain ⟨rfl, rfl⟩ := h.unique h'
          rfl

/-- A number up to `2 ^ 53` is not changed by packing. -/
theorem unpack_pack (h : Denotes u n) (hn : n ≤ 2 ^ 53) : (Float.Model.pack u).unpack = u := by
  cases h with
  | zero => rfl
  | finite h h0 =>
      have hl := h.le_of_le hn
      exact h.canonical.unpack_pack (by omega)

/-- A number is neither an infinity nor no number. -/
theorem isFinite (h : Denotes u n) : u.isFinite = true ∧ u.isInf = false ∧ u.isNaN = false := by
  cases h with
  | zero => exact ⟨rfl, rfl, rfl⟩
  | finite h h0 => exact ⟨rfl, rfl, rfl⟩

theorem ne_notANumber (h : Denotes u n) : u ≠ .notANumber := by
  rintro rfl
  cases h

/-- Numbers have their places on the line of floats in their order. -/
theorem unpackedRank_lt_iff (h : Denotes u m) (h' : Denotes v n) :
    unpackedRank u < unpackedRank v ↔ m < n := by
  cases h with
  | zero =>
      cases h' with
      | zero => simp
      | finite h' _ =>
          have hpos : 0 < n := (Nat.two_pow_pos _).trans_le h'.two_pow_le
          refine iff_of_true (rank_lt_iff.mpr (Or.inl ?_)) hpos
          decide
  | finite h h0 =>
      cases h' with
      | zero =>
          refine iff_of_false (fun e => ?_) (Nat.not_lt_zero _)
          rcases rank_lt_iff.mp e with e | e
          · exact absurd e (by decide)
          · exact absurd e.1 (by decide)
      | finite h' _ =>
          rw [h.lt_iff h', unpackedRank, unpackedRank, rank_lt_iff]
          omega

theorem add (h : Denotes u m) (h' : Denotes v n) (hle : m + n ≤ 2 ^ 53) :
    Denotes (UnpackedFloat.add Format.binary64 u v) (m + n) := by
  cases h with
  | zero =>
      rw [Nat.zero_add]
      cases h' with
      | zero => exact .zero
      | finite h' h0' => exact .finite h' h0'
  | @finite _ c l h h0 =>
      cases h' with
      | zero => exact .finite h h0
      | @finite _ d k h' h0' =>
          have hm : 0 < m := (Nat.two_pow_pos _).trans_le h.two_pow_le
          obtain ⟨f, j, hsum⟩ := exists_normal (Nat.add_pos_left hm n) hle
          have hlj := h.mono hsum (Nat.le_add_right m n)
          have hkj := h'.mono hsum (Nat.le_add_left n m)
          have hf0 : 0 < f := lt_of_lt_of_le (by decide) hsum.lo
          -- over the lower of the two exponents the significands are added
          have hadd : c * 2 ^ (l - min l k) + d * 2 ^ (k - min l k) = f * 2 ^ (j - min l k) := by
            refine eq_mul_two_pow ((Nat.min_le_left l k).trans hlj) ?_
            rw [Nat.add_mul, Nat.mul_assoc, Nat.mul_assoc, ← pow_add, ← pow_add,
              Nat.sub_add_cancel (Nat.min_le_left l k), Nat.sub_add_cancel (Nat.min_le_right l k),
              h.eq, h'.eq, hsum.eq, Nat.add_mul]
          rw [add_eq, hadd, round_eq hsum.canonical (by omega)]
          exact .finite hsum hf0

theorem mul (h : Denotes u m) (h' : Denotes v n) (hle : m * n ≤ 2 ^ 53) :
    Denotes (UnpackedFloat.mul Format.binary64 u v) (m * n) := by
  cases h with
  | zero =>
      rw [Nat.zero_mul]
      cases h' with
      | zero => exact .zero
      | finite h' _ => exact .zero
  | @finite _ c l h h0 =>
      cases h' with
      | zero => exact .zero
      | @finite _ d k h' h0' =>
          have hpow : 2 ^ (l + k) ≤ m * n := by
            rw [pow_add]
            exact Nat.mul_le_mul h.two_pow_le h'.two_pow_le
          obtain ⟨f, j, hprod⟩ := exists_normal ((Nat.two_pow_pos _).trans_le hpow) hle
          have hf0 : 0 < f := lt_of_lt_of_le (by decide) hprod.lo
          have hj : l + k < j + 1 :=
            (Nat.pow_lt_pow_iff_right (by decide)).mp (hpow.trans_lt hprod.lt_two_pow)
          have hmul : c * d = f * 2 ^ (j + 52 - (l + k)) := by
            refine eq_mul_two_pow (by omega) ?_
            calc c * d * 2 ^ (l + k) = (c * 2 ^ l) * (d * 2 ^ k) := by rw [pow_add]; ring
              _ = (m * n * 2 ^ 52) * 2 ^ 52 := by rw [h.eq, h'.eq]; ring
              _ = f * 2 ^ (j + 52) := by rw [← hprod.eq, Nat.mul_assoc, ← pow_add]
          show Denotes (roundWithAccuracy Format.binary64 .positive (c * d)
            (((l : Int) - 52) + ((k : Int) - 52)) .exact) (m * n)
          rw [hmul, roundWithAccuracy_eq hprod.canonical (by omega)]
          exact .finite hprod hf0

/-- The number itself, converted. -/
theorem ofNat {n : Nat} (hn : n < 2 ^ 53) : Denotes (UnpackedFloat.ofNat Format.binary64 n) n := by
  rcases Nat.eq_zero_or_pos n with rfl | hpos
  · exact .zero
  · obtain ⟨c, l, h⟩ := exists_normal hpos hn.le
    have h0 : 0 < c := lt_of_lt_of_le (by decide) h.lo
    have hl : l < 53 := (Nat.pow_lt_pow_iff_right (by decide)).mp (h.two_pow_le.trans_lt hn)
    rw [UnpackedFloat.ofNat, UnpackedFloat.ofInt, normalize_eq hpos,
      round_natural h (Nat.le_of_lt_succ hl) h0]
    exact .finite h h0

end Denotes

/-! ## 5. Floats -/

section Floats

variable {x y : Float} {m n : Nat}

theorem denotes_add (hx : Denotes x.toModel.unpack m) (hy : Denotes y.toModel.unpack n)
    (hle : m + n ≤ 2 ^ 53) : Denotes (x + y).toModel.unpack (m + n) := by
  have h := hx.add hy hle
  show Denotes (Float.Model.pack (UnpackedFloat.add Format.binary64 _ _)).unpack _
  rwa [h.unpack_pack hle]

theorem denotes_mul (hx : Denotes x.toModel.unpack m) (hy : Denotes y.toModel.unpack n)
    (hle : m * n ≤ 2 ^ 53) : Denotes (x * y).toModel.unpack (m * n) := by
  have h := hx.mul hy hle
  show Denotes (Float.Model.pack (UnpackedFloat.mul Format.binary64 _ _)).unpack _
  rwa [h.unpack_pack hle]

/-- A machine word below `2 ^ 53` is converted exactly. -/
theorem unpack_toUInt64 {u : UnpackedFloat} (h : Denotes u n) (hn : n < 2 ^ 53) :
    n.toUInt64.toFloat.toModel.unpack = u := by
  have hword : n.toUInt64.toNat = n := by
    rw [UInt64.toNat_ofNat']
    exact Nat.mod_eq_of_lt (hn.trans (by decide))
  have hu := (Denotes.ofNat hn).unique h
  show (Float.Model.pack (UnpackedFloat.ofNat Format.binary64 n.toUInt64.toNat)).unpack = u
  rw [hword, hu, h.unpack_pack hn.le]

/-- The float that a number is converted to, up to `2 ^ 53`. -/
theorem toFloat_eq {u : UnpackedFloat} (h : Denotes u n) (hn : n ≤ 2 ^ 53) :
    n.toFloat = Float.ofModel (Float.Model.pack u) := by
  rcases hn.lt_or_eq with hlt | rfl
  · have hone : Denotes (Float.ofBits 0x3FF0000000000000).toModel.unpack 1 :=
      .finite (l := 0) ⟨rfl, le_rfl, by decide⟩ (by decide)
    have hprod := (h.mul hone (by omega)).unique (Nat.mul_one n ▸ h)
    have hfast : n.toFloat = n.toUInt64.toFloat * Float.ofBits 0x3FF0000000000000 := by
      show Float.ofScientific n false 0 = _
      rw [Float.ofScientific, dif_pos ⟨hlt, Nat.zero_le _⟩]
      rfl
    rw [hfast]
    show Float.ofModel (Float.Model.pack (UnpackedFloat.mul Format.binary64 _ _)) = _
    rw [unpack_toUInt64 h hlt, hprod]
  · have hnormal : Normal (2 ^ 53) (2 ^ 52) 53 := ⟨by decide, le_rfl, by decide⟩
    rw [h.unique (.finite hnormal (by decide))]
    rfl

/-- **The conversion of natural numbers is exact up to `2 ^ 53`.** -/
theorem denotes_toFloat (hn : n ≤ 2 ^ 53) : Denotes n.toFloat.toModel.unpack n := by
  obtain ⟨u, hu⟩ := exists_denotes hn
  rw [toFloat_eq hu hn]
  show Denotes (Float.Model.pack u).unpack n
  rwa [hu.unpack_pack hn]

/-- A number of 64 bits becomes a positive finite float. -/
theorem exists_unpack_toFloat (hlo : 2 ^ 53 ≤ n) (hn : n < 2 ^ 64) :
    ∃ c e h0, n.toFloat.toModel.unpack = .finite .positive c e h0 := by
  have hn0 : n ≠ 0 := by omega
  have hnlog : n.log2 < 64 := (Nat.log2_lt hn0).mpr hn
  have hlog : ((n <<< 53) * 10 ^ 0).log2 = 52 + (n.log2 + 1) := by
    rw [pow_zero, Nat.mul_one, Nat.shiftLeft_eq, log2_mul_two_pow hn0]
    omega
  obtain ⟨c, j, h0, hround, hclo, hchi, hj⟩ :=
    exists_roundWithAccuracy hlog (show -1074 ≤ (-53 : Int) + (n.log2 + 1 : Nat) by omega)
  have he : (-53 : Int) + (n.log2 + 1 : Nat) + j = (n.log2 + j : Nat) - 52 := by omega
  have hslow : n.toFloat =
      Float.ofModel (Float.Model.pack (UnpackedFloat.ofScientific Format.binary64 n 0)) := by
    show Float.ofScientific n false 0 = _
    rw [Float.ofScientific, dif_neg (by omega)]
    rfl
  have hscientific : UnpackedFloat.ofScientific Format.binary64 n 0 =
      .finite .positive c ((n.log2 + j : Nat) - 52) h0 := by
    have hsmall : ¬ (0 : Int) < -((2 ^ Format.binary64.exponentBits : Int) + n.log2) := by
      have : (2 : Int) ^ Format.binary64.exponentBits = 2048 := rfl
      omega
    rw [UnpackedFloat.ofScientific, dif_neg hn0, if_neg (by decide), if_neg hsmall, if_pos le_rfl]
    simp only [← he]
    exact hround
  have hcanonical : Canonical c ((n.log2 + j : Nat) - 52) := ⟨h0, hchi, by omega, Or.inl hclo⟩
  refine ⟨c, (n.log2 + j : Nat) - 52, h0, ?_⟩
  rw [hslow, hscientific]
  exact hcanonical.unpack_pack (by omega)

/-- Zero times a number of 64 bits is zero. -/
theorem denotes_zero_mul (hn : n < 2 ^ 64) :
    Denotes (Nat.toFloat 0 * n.toFloat).toModel.unpack 0 := by
  have hzero : Denotes (Nat.toFloat 0).toModel.unpack 0 := denotes_toFloat (Nat.zero_le _)
  rcases Nat.lt_or_ge n (2 ^ 53) with hlt | hge
  · have hprod := denotes_mul hzero (denotes_toFloat hlt.le) (by omega)
    rwa [Nat.zero_mul] at hprod
  · obtain ⟨c, e, h0, hn⟩ := exists_unpack_toFloat hge hn
    have hprod : UnpackedFloat.mul Format.binary64 (.zero .positive) (.finite .positive c e h0) =
        .zero .positive := rfl
    show Denotes (Float.Model.pack (UnpackedFloat.mul Format.binary64 _ _)).unpack _
    rw [hn, hzero.unique .zero, hprod]
    exact Denotes.zero.unpack_pack (Nat.zero_le _) ▸ .zero

theorem toFloat_lt_iff (hm : m ≤ 2 ^ 53) (hn : n ≤ 2 ^ 53) : m.toFloat < n.toFloat ↔ m < n := by
  have hx := denotes_toFloat hm
  have hy := denotes_toFloat hn
  rw [lt_iff_unpack_lt, lt_iff_unpackedRank_lt hx.ne_notANumber hy.ne_notANumber,
    hx.unpackedRank_lt_iff hy]

/-- Places on the line of floats are in the order of the numbers. -/
theorem rank_lt_iff_of_denotes (hx : Denotes x.toModel.unpack m) (hy : Denotes y.toModel.unpack n) :
    rank x < rank y ↔ m < n :=
  hx.unpackedRank_lt_iff hy

end Floats

end Wayfinding
