/-
Doubles that are greater than zero.

A whole number from one on has a double from one on, and so a thousandth of it, worked out in
doubles, is greater than zero: far from the numbers that are too small for a double.  What is
rounded keeps its size as long as it has bits enough (`isAtLeast_roundWithAccuracy`), and a double
with all of its bits stays as it is when it is packed (`unpack_pack_finite`).

* `IsAtLeast` — a double from some power of two on;
* `isAtLeast_scaled` — the double of a whole number;
* `thousandth_pos` — a thousandth of it.
-/
import BuildDesk.Number.Quantity
import Mathlib

namespace BuildDesk.Number

open Float.Model Float.Model.UnpackedFloat

/-- A double from `2 ^ (52 + least)` on, with all of its bits, or the infinite one. -/
inductive IsAtLeast (least : Int) : UnpackedFloat → Prop
  | finite {m : Nat} {e : Int} (hpos : 0 < m) (hlow : 2 ^ 52 ≤ m) (hhigh : m < 2 ^ 53)
    (he : least ≤ e) : IsAtLeast least (.finite .positive m e hpos)
  | infinity : IsAtLeast least (.infinity .positive)

variable {m k : Nat} {e least : Int} {x : Float}

/-! ### Rounding -/

theorem target_eq (t : Int) : Format.binary64.targetExponent t = max (t - 53) (-1074) := rfl

theorem log2_of_normal (hlow : 2 ^ 52 ≤ m) (hhigh : m < 2 ^ 53) : m.log2 = 52 :=
  (Nat.log2_eq_iff (by omega)).mpr ⟨hlow, hhigh⟩

theorem mantissa_shiftRight (em : ExtendedMantissa) (n : Nat) :
    (em >>> n).mantissa = em.mantissa / 2 ^ n := by
  show (n.repeat ExtendedMantissa.shiftRightOne em).mantissa = _
  induction n with
  | zero => exact (Nat.div_one _).symm
  | succ n ih =>
    show (n.repeat ExtendedMantissa.shiftRightOne em).mantissa / 2 = _
    rw [ih, Nat.div_div_eq_div_mul, Nat.pow_succ]

theorem roundedMantissa_bounds (em : ExtendedMantissa) :
    em.mantissa ≤ em.roundedMantissa ∧ em.roundedMantissa ≤ em.mantissa + 1 := by
  obtain ⟨m, roundBit, stickyBit⟩ := em
  cases roundBit <;> cases stickyBit <;>
    simp [ExtendedMantissa.roundedMantissa, ExtendedMantissa.accuracy, Accuracy.roundToNearestEven]
  omega

theorem mantissa_ofMantissaAndAccuracy (m : Nat) (acc : Accuracy) :
    (ExtendedMantissa.ofMantissaAndAccuracy m acc).mantissa = m := by
  cases acc with
  | exact => rfl
  | inexact o => cases o <;> rfl

/-- A quotient with 53 bits. -/
theorem div_bounds (hlow : 2 ^ (52 + k) ≤ m) (hhigh : m < 2 ^ (53 + k)) :
    2 ^ 52 ≤ m / 2 ^ k ∧ m / 2 ^ k < 2 ^ 53 := by
  constructor
  · rw [Nat.le_div_iff_mul_le (Nat.two_pow_pos _), ← Nat.pow_add]
    exact hlow
  · rw [Nat.div_lt_iff_lt_mul (Nat.two_pow_pos _), ← Nat.pow_add]
    exact hhigh

/-- A mantissa with bits to spare is cut to 53 of them, when the number is not too small. -/
theorem shiftToTargetExponent_normal (acc : Accuracy) (hlow : 2 ^ (52 + k) ≤ m)
    (hhigh : m < 2 ^ (53 + k)) (he : -1074 ≤ e + k) :
    (shiftToTargetExponent Format.binary64 m e acc).1.mantissa = m / 2 ^ k ∧
      (shiftToTargetExponent Format.binary64 m e acc).2 = e + k := by
  have hne : m ≠ 0 := by
    rintro rfl
    exact absurd hlow (Nat.not_le.mpr (Nat.two_pow_pos _))
  have hlog : m.log2 = 52 + k :=
    (Nat.log2_eq_iff hne).mpr ⟨hlow, by rwa [Nat.add_right_comm]⟩
  have hshift : (Format.binary64.targetExponent (totalExponent m e) - e).toNat = k := by
    rw [target_eq, totalExponent, hlog]
    omega
  unfold shiftToTargetExponent shiftToExponent
  dsimp only
  rw [hshift, mantissa_shiftRight, mantissa_ofMantissaAndAccuracy]
  exact ⟨rfl, rfl⟩

/-- A number with bits enough is rounded to a double of its size. -/
theorem isAtLeast_roundWithAccuracy (acc : Accuracy) (hm : 2 ^ (52 + k) ≤ m)
    (hleast : -1074 ≤ least) (he : least ≤ e + k) :
    IsAtLeast least (roundWithAccuracy Format.binary64 .positive m e acc) := by
  obtain ⟨j, hlow, hhigh⟩ : ∃ j, 2 ^ (52 + (k + j)) ≤ m ∧ m < 2 ^ (53 + (k + j)) := by
    have hne : m ≠ 0 := by
      rintro rfl
      exact absurd hm (Nat.not_le.mpr (Nat.two_pow_pos _))
    obtain ⟨j, hj⟩ := Nat.exists_eq_add_of_le ((Nat.le_log2 hne).mpr hm)
    refine ⟨j, ?_, ?_⟩
    · rw [← Nat.add_assoc, ← hj]
      exact Nat.log2_self_le hne
    · have hnext : 53 + (k + j) = m.log2 + 1 := by omega
      rw [hnext]
      exact Nat.lt_log2_self
  obtain ⟨hfirst, hexponent⟩ := shiftToTargetExponent_normal (e := e) acc hlow hhigh
    (by push_cast; omega)
  have hround := roundedMantissa_bounds (shiftToTargetExponent Format.binary64 m e acc).1
  rw [hfirst] at hround
  have hcut := div_bounds hlow hhigh
  unfold roundWithAccuracy
  dsimp only
  rw [hexponent]
  generalize (shiftToTargetExponent Format.binary64 m e acc).1.roundedMantissa = r at hround
  -- rounding up may have made the mantissa one bit too long
  obtain ⟨i, hlow', hhigh'⟩ : ∃ i, 2 ^ (52 + i) ≤ r ∧ r < 2 ^ (53 + i) := by
    rcases Nat.lt_or_ge r (2 ^ 53) with hr | hr
    · exact ⟨0, by omega, hr⟩
    · exact ⟨1, hr, by omega⟩
  obtain ⟨hsecond, hexponent'⟩ := shiftToTargetExponent_normal (e := e + ↑(k + j)) .exact hlow'
    hhigh' (by push_cast; omega)
  have hcut' := div_bounds hlow' hhigh'
  rw [hexponent']
  generalize (shiftToTargetExponent Format.binary64 r (e + ↑(k + j)) .exact).1 = em at hsecond
  rw [← hsecond] at hcut'
  rw [dif_neg (by omega)]
  exact .finite _ hcut'.1 hcut'.2 (by push_cast; omega)

/-! ### Packing -/

theorem unpackSign_packComponents {spec : Format} {sign exponent mantissa} :
    unpackSign (packComponents spec sign exponent mantissa) = sign.toBitVec := by
  ext i hi
  obtain rfl : i = 0 := by omega
  simp [unpackSign, packComponents, BitVec.getLsbD_append, BitVec.getElem_append]

/-- A double with all of its bits stays as it is when it is packed, unless it is too large. -/
theorem unpack_pack_finite (hpos : 0 < m) (hlow : 2 ^ 52 ≤ m) (hhigh : m < 2 ^ 53)
    (he : -1074 ≤ e) (he' : e ≤ 971) :
    (Float.Model.pack (.finite .positive m e hpos)).unpack = .finite .positive m e hpos := by
  have hbias : (Format.binary64.exponentBias : Int) = 1023 := rfl
  have hbits : (Format.binary64.mantissaBitsWithoutImplicit : Int) = 52 := rfl
  obtain ⟨b, hb⟩ : ∃ b : Nat, e + 1023 + 52 = b := ⟨(e + 1075).toNat, by omega⟩
  have hpack : UnpackedFloat.pack Format.binary64 (.finite .positive m e hpos) =
      packComponents Format.binary64 .positive (BitVec.ofNat 11 b) (BitVec.ofNat 52 m) := by
    rw [UnpackedFloat.pack]
    dsimp only
    rw [hbias, hbits, hb, Int.toNat_natCast, if_neg (by simp; omega),
      if_pos (by rw [log2_of_normal hlow hhigh]; rfl)]
  have hexponent : (BitVec.ofNat 11 b).toNat = b := by
    rw [BitVec.toNat_ofNat, Nat.mod_eq_of_lt (by omega)]
  have hnormal (c : BitVec 11) (hc : c.toNat ≠ b) : BitVec.ofNat 11 b ≠ c := by
    rintro rfl
    exact hc hexponent
  have hlargest : (-1#11).toNat = 2047 := rfl
  have hmantissa : (1#1 ++ BitVec.ofNat 52 m).toNat = m := by
    rw [BitVec.toNat_append, BitVec.toNat_ofNat, BitVec.toNat_ofNat,
      ← Nat.shiftLeft_add_eq_or_of_lt (Nat.mod_lt _ (Nat.two_pow_pos _)), Nat.shiftLeft_eq]
    omega
  show UnpackedFloat.unpack Format.binary64 (UnpackedFloat.pack Format.binary64 _) = _
  rw [hpack]
  unfold UnpackedFloat.unpack
  simp only [unpackMantissa_packComponents, unpackExponent_packComponents,
    unpackSign_packComponents]
  rw [if_neg (hnormal (-1#11) (by omega)), if_neg (hnormal 0#11 (by simp; omega))]
  congr 1
  push_cast
  rw [hexponent]
  omega

theorem isAtLeast_pack {f : UnpackedFloat} (h : IsAtLeast least f) (hleast : -1074 ≤ least) :
    IsAtLeast least (Float.Model.pack f).unpack := by
  cases h with
  | infinity => exact .infinity
  | @finite m e hpos hlow hhigh he =>
    by_cases hfits : e ≤ 971
    · rw [unpack_pack_finite hpos hlow hhigh (by omega) hfits]
      exact .finite hpos hlow hhigh he
    · have hinfinity : UnpackedFloat.pack Format.binary64 (.finite .positive m e hpos) =
          packedInfinity Format.binary64 .positive := by
        have hbias : (Format.binary64.exponentBias : Int) = 1023 := rfl
        have hbits : (Format.binary64.mantissaBitsWithoutImplicit : Int) = 52 := rfl
        rw [UnpackedFloat.pack]
        dsimp only
        rw [hbias, hbits, if_pos (by simp; omega)]
      show IsAtLeast least (UnpackedFloat.unpack Format.binary64 (UnpackedFloat.pack _ _))
      rw [hinfinity]
      exact .infinity

/-! ### Arithmetic -/

theorem pos_of_isAtLeast (h : IsAtLeast least x.toModel.unpack) : 0 < x := by
  have hzero : (0 : Float).toModel.unpack = .zero .positive := rfl
  show decide ((0 : Float).toModel < x.toModel) = true
  refine decide_eq_true ?_
  show UnpackedFloat.lt (0 : Float).toModel.unpack x.toModel.unpack = true
  rw [hzero]
  generalize x.toModel.unpack = u at h ⊢
  cases h <;> rfl

theorem isAtLeast_round (hpos : 0 < m) (hm : m < 2 ^ 53) :
    IsAtLeast (-52) (UnpackedFloat.round Format.binary64 .positive m 0) := by
  have hlow := Nat.log2_self_le hpos.ne'
  have hlog : m.log2 < 53 := (Nat.log2_lt hpos.ne').mpr hm
  have hshift : (0 - Format.binary64.targetExponent (totalExponent m 0)).toNat = 52 - m.log2 := by
    rw [target_eq, totalExponent]
    omega
  unfold UnpackedFloat.round decreaseExponent
  dsimp only
  rw [hshift, Nat.shiftLeft_eq]
  refine isAtLeast_roundWithAccuracy (k := 0) .exact ?_ (by decide) (by omega)
  calc 2 ^ 52 = 2 ^ m.log2 * 2 ^ (52 - m.log2) := by rw [← Nat.pow_add]; congr 1; omega
    _ ≤ m * 2 ^ (52 - m.log2) := Nat.mul_le_mul_right _ hlow

theorem isAtLeast_toFloat (hpos : 0 < m) (hm : m < 2 ^ 53) :
    IsAtLeast (-52) m.toUInt64.toFloat.toModel.unpack := by
  refine isAtLeast_pack ?_ (by decide)
  show IsAtLeast (-52)
    (UnpackedFloat.normalize Format.binary64 (m.toUInt64.toNat : Int) 0 .positive)
  have hnat : m.toUInt64.toNat = m := by
    rw [Nat.toUInt64_eq, UInt64.toNat_ofNat', Nat.mod_eq_of_lt (by omega)]
  rw [hnat, UnpackedFloat.normalize, compare_gt_iff_gt.mpr (Int.natCast_pos.mpr hpos)]
  exact isAtLeast_round hpos hm

/-- A double divided by one is no less. -/
theorem isAtLeast_div_one (hleast : -1022 ≤ least) (h : IsAtLeast least x.toModel.unpack) :
    IsAtLeast least (x / Float.ofBits 0x3FF0000000000000).toModel.unpack := by
  have hone : (Float.ofBits 0x3FF0000000000000).toModel.unpack =
      .finite .positive (2 ^ 52) (-52) (by decide) := rfl
  refine isAtLeast_pack ?_ (by omega)
  show IsAtLeast least (UnpackedFloat.div Format.binary64 x.toModel.unpack
    (Float.ofBits 0x3FF0000000000000).toModel.unpack)
  rw [hone]
  generalize x.toModel.unpack = u at h ⊢
  cases h with
  | infinity => exact .infinity
  | @finite m e hpos hlow hhigh he =>
    have hlog : (2 ^ 52).log2 = 52 := Nat.log2_two_pow
    have htarget : min (e - -52) (Format.binary64.targetExponent
        (totalExponent m e - totalExponent (2 ^ 52) (-52))) = e - 1 := by
      rw [target_eq, totalExponent, totalExponent, log2_of_normal hlow hhigh, hlog]
      omega
    have hshift : (e - -52 - (e - 1)).toNat = 53 := by omega
    unfold UnpackedFloat.div divCore
    dsimp only
    rw [htarget, hshift, Nat.shiftLeft_eq]
    refine isAtLeast_roundWithAccuracy (k := 1) _ ?_ (by omega) (by omega)
    omega

theorem mul_finite (spec : Format) {s₁ s₂ : Sign} {m₁ m₂ : Nat} {e₁ e₂ : Int} (h₁ : 0 < m₁)
    (h₂ : 0 < m₂) : UnpackedFloat.mul spec (.finite s₁ m₁ e₁ h₁) (.finite s₂ m₂ e₂ h₂) =
      roundWithAccuracy spec (s₁ * s₂) (m₁ * m₂) (e₁ + e₂) .exact := rfl

/-- The double of a whole number from one on is from one on. -/
theorem isAtLeast_scaled {n : Nat} (hn : 0 < n) : IsAtLeast (-52) (scaled n 0).toModel.unpack := by
  have hscaled : scaled n 0 = Float.ofScientific n true 0 := by
    rw [scaled]
    exact if_neg (Int.not_lt.mpr (Int.natCast_nonneg n))
  rw [hscaled, Float.ofScientific]
  split
  · rename_i hsmall
    exact isAtLeast_div_one (by decide) (isAtLeast_toFloat hn hsmall.1)
  · rename_i hlarge
    have hn' : 2 ^ 53 ≤ n := by omega
    refine isAtLeast_pack ?_ (by decide)
    show IsAtLeast (-52) (UnpackedFloat.ofScientific Format.binary64 n 0)
    have hbits : (2 : Int) ^ Format.binary64.exponentBits = 2048 := rfl
    rw [UnpackedFloat.ofScientific, dif_neg hn.ne', if_neg (by decide),
      if_neg (by rw [hbits]; omega), if_pos (Int.le_refl 0), mul_finite]
    refine isAtLeast_roundWithAccuracy (k := 53) .exact ?_ (by decide) (by decide)
    have hshift : n <<< Format.binary64.mantissaBits * 10 ^ (0 : Int).toNat = n * 2 ^ 53 := by
      rw [Nat.shiftLeft_eq]
      exact Nat.mul_one _
    rw [hshift]
    omega

theorem isAtLeast_mul_thousandth (h : IsAtLeast (-52) x.toModel.unpack) :
    IsAtLeast (-62) (x * 0.001).toModel.unpack := by
  have hthousandth : (0.001 : Float).toModel.unpack =
      .finite .positive 4611686018427388 (-62) (by decide) := rfl
  refine isAtLeast_pack ?_ (by decide)
  show IsAtLeast (-62)
    (UnpackedFloat.mul Format.binary64 x.toModel.unpack (0.001 : Float).toModel.unpack)
  rw [hthousandth]
  generalize x.toModel.unpack = u at h ⊢
  cases h with
  | infinity => exact .infinity
  | @finite m e hpos hlow hhigh he =>
    have hproduct : 2 ^ (52 + 52) ≤ m * 4611686018427388 :=
      (Nat.pow_add 2 52 52).trans_le (Nat.mul_le_mul hlow (by decide))
    exact isAtLeast_roundWithAccuracy (k := 52) .exact hproduct (by decide) (by omega)

/-- **A thousandth of a whole number** from one on is greater than zero as a double. -/
theorem thousandth_pos {n : Nat} (hn : 0 < n) : 0 < scaled n 0 * 0.001 :=
  pos_of_isAtLeast (isAtLeast_mul_thousandth (isAtLeast_scaled hn))

end BuildDesk.Number
