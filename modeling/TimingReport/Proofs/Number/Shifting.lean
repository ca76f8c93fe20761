import TimingReport.Proofs.Number.Unpacked

/-!
# Rounding by shifting bits out

The logical model of `Float` rounds a mantissa by shifting bits out of it, of which it
remembers the last one and whether any other was set.  That is division by a power of two
with ties to even, so its result is the one of `rounded`.
-/

namespace TimingReport.Number

open Float.Model (Format UnpackedFloat totalExponent)
open Float.Model.UnpackedFloat

/-- What is left of a mantissa when bits are shifted out of it. -/
structure Shifted (num shift : Nat) (extended : ExtendedMantissa) : Prop where
  mantissa : extended.mantissa = num / 2 ^ shift
  roundBit : extended.roundBit = true ↔ 2 ^ shift ≤ 2 * (num % 2 ^ shift)
  stickyBit : extended.stickyBit = true ↔
    2 * (num % 2 ^ shift) ≠ 0 ∧ 2 * (num % 2 ^ shift) ≠ 2 ^ shift

namespace Shifted

variable {num shift : Nat} {extended : ExtendedMantissa}

theorem zero (num : Nat) : Shifted num 0 (.ofMantissaAndAccuracy num .exact) := by
  constructor
  · simp [ExtendedMantissa.ofMantissaAndAccuracy]
  · simp [ExtendedMantissa.ofMantissaAndAccuracy, Nat.mod_one]
  · simp [ExtendedMantissa.ofMantissaAndAccuracy, Nat.mod_one]

theorem shiftRightOne (hshifted : Shifted num shift extended) :
    Shifted num (shift + 1) extended.shiftRightOne := by
  have hsmall : num % 2 ^ shift < 2 ^ shift := Nat.mod_lt _ (Nat.two_pow_pos _)
  have hmod : num % 2 ^ (shift + 1) = num % 2 ^ shift + 2 ^ shift * (num / 2 ^ shift % 2) :=
    Nat.mod_pow_succ
  have hpower : 2 ^ (shift + 1) = 2 * 2 ^ shift := by rw [pow_succ, mul_comm]
  have hbit := Nat.mod_two_eq_zero_or_one (num / 2 ^ shift)
  constructor
  · rw [ExtendedMantissa.shiftRightOne, hshifted.mantissa, Nat.div_div_eq_div_mul, pow_succ]
  · rw [ExtendedMantissa.shiftRightOne, hshifted.mantissa, bne_iff_ne, hmod, hpower]
    rcases hbit with h | h <;> rw [h] <;> omega
  · rw [ExtendedMantissa.shiftRightOne, Bool.or_eq_true, hshifted.roundBit,
      hshifted.stickyBit, hmod, hpower]
    rcases hbit with h | h <;> rw [h] <;> omega

theorem shiftRight (num shift : Nat) :
    Shifted num shift (ExtendedMantissa.ofMantissaAndAccuracy num .exact >>> shift) := by
  change Shifted num shift (shift.repeat ExtendedMantissa.shiftRightOne _)
  induction shift with
  | zero => exact zero num
  | succ shift ih => exact ih.shiftRightOne

/-- The remembered bits are enough to round as division does. -/
theorem roundedMantissa (hshifted : Shifted num shift extended) :
    extended.roundedMantissa = roundDiv .toEven num (2 ^ shift) := by
  have hround := hshifted.roundBit
  have hsticky := hshifted.stickyBit
  rw [ExtendedMantissa.roundedMantissa, roundDiv, ← hshifted.mantissa]
  obtain ⟨mantissa, roundBit, stickyBit⟩ := extended
  dsimp only at hround hsticky ⊢
  have hpositive : 0 < 2 ^ shift := Nat.two_pow_pos _
  cases roundBit <;> cases stickyBit <;>
    simp only [ExtendedMantissa.accuracy, Accuracy.roundToNearestEven, Bool.false_eq_true,
      false_iff, true_iff] at hround hsticky ⊢ <;>
    split_ifs <;> omega

end Shifted

/-! ## Target exponents -/

theorem targetExponent_eq (mantissa : Nat) (exponent : Int) :
    Format.binary64.targetExponent (totalExponent mantissa exponent) =
      max (mantissa.log2 + exponent - 52) minExponent := by
  have hbits : ((Format.binary64.mantissaBits : Nat) : Int) = 53 := rfl
  have hleast : Format.binary64.minExponent = minExponent := by decide
  rw [Format.targetExponent, totalExponent, hbits, hleast]
  omega

theorem log2_shiftLeft {mantissa : Nat} (hpositive : 0 < mantissa) (shift : Nat) :
    (mantissa <<< shift).log2 = mantissa.log2 + shift := by
  rw [Nat.shiftLeft_eq]
  induction shift with
  | zero => rw [pow_zero, mul_one, Nat.add_zero]
  | succ shift ih =>
    rw [pow_succ, ← mul_assoc, mul_comm, Nat.log2_two_mul (by positivity), ih, Nat.add_assoc]

/-- A mantissa of at most 53 bits is not shifted; one that rounding has carried to the next
power of two is shifted once. -/
theorem shift_rounded {scale mantissa : Nat} (hmantissa : mantissa ≤ 2 ^ 53) :
    shiftToTargetExponent .binary64 mantissa (scale + minExponent) .exact =
      if mantissa = 2 ^ 53 then
        (⟨2 ^ 52, false, false⟩, ((scale + 1 : Nat) : Int) + minExponent)
      else (⟨mantissa, false, false⟩, scale + minExponent) := by
  rw [shiftToTargetExponent, targetExponent_eq]
  dsimp only [shiftToExponent]
  split
  · next hcarry =>
    have hshift : (max ((mantissa.log2 : Int) + (scale + minExponent) - 52) minExponent -
        (scale + minExponent)).toNat = 1 := by
      rw [hcarry, Nat.log2_two_pow]
      omega
    rw [hshift, hcarry]
    apply Prod.ext
    · rfl
    · simp only [Nat.cast_add, Nat.cast_one]
      ring
  · next hsmall =>
    have hlog : mantissa.log2 ≤ 52 := by
      rcases Nat.eq_zero_or_pos mantissa with rfl | hpositive
      · decide
      · have := (Nat.log2_lt hpositive.ne').2 (lt_of_le_of_ne hmantissa hsmall)
        omega
    have hshift : (max ((mantissa.log2 : Int) + (scale + minExponent) - 52) minExponent -
        (scale + minExponent)).toNat = 0 := by omega
    rw [hshift]
    apply Prod.ext
    · rfl
    · simp

theorem rank_pack_rounded (negative : Bool) {scale mantissa shift : Nat}
    (hlow : scale = 0 ∨ 2 ^ 52 ≤ roundDiv .toEven mantissa (2 ^ shift))
    (hhigh : roundDiv .toEven mantissa (2 ^ shift) ≤ 2 ^ 53) {exponent : Int}
    (htarget : Format.binary64.targetExponent (totalExponent mantissa exponent) =
      scale + minExponent)
    (hshift : exponent + shift = scale + minExponent) :
    rank (.ofModel (.pack
        (roundWithAccuracy .binary64 (signOf negative) mantissa exponent .exact))) =
      (signOf negative).apply
        (min infinityPattern
          (scale * fractionSize + roundDiv .toEven mantissa (2 ^ shift)) : Nat) := by
  have hamount : (scale + minExponent - exponent).toNat = shift := by omega
  rw [roundWithAccuracy, shiftToTargetExponent, htarget]
  dsimp only [shiftToExponent]
  rw [hamount, (Shifted.shiftRight mantissa shift).roundedMantissa, hshift, shift_rounded hhigh]
  generalize roundDiv .toEven mantissa (2 ^ shift) = result at *
  by_cases hcarry : result = 2 ^ 53
  · have hcarried : (scale + 1) * fractionSize + 2 ^ 52 = scale * fractionSize + 2 ^ 53 := by
      simp only [fractionSize]
      omega
    rw [if_pos hcarry, dif_neg (show ¬2 ^ 52 = 0 by decide),
      rank_pack_finite negative (by decide) (by decide) (.inr le_rfl), hcarry, hcarried]
  · rw [if_neg hcarry]
    by_cases hzero : result = 0
    · obtain rfl : scale = 0 := by omega
      rw [dif_pos hzero, rank_pack_zero, hzero]
      cases negative <;> rfl
    · rw [dif_neg hzero, rank_pack_finite negative (Nat.pos_of_ne_zero hzero) (by omega) hlow]

/-! ## Rounding -/

theorem rounded_apply (negative : Bool) {exact : ℚ} (hexact : 0 < exact) :
    rounded ((signOf negative).apply 1 * exact) =
      (signOf negative).apply (roundedPattern exact) := by
  cases negative with
  | false =>
    simp only [signOf, Bool.false_eq_true, if_false, Sign.apply, Int.cast_one, one_mul]
    exact rounded_of_nonneg hexact.le
  | true =>
    simp only [signOf, if_true, Sign.apply, Int.cast_neg, Int.cast_one, neg_mul, one_mul]
    rw [rounded_neg, rounded_of_nonneg hexact.le]

/-- A mantissa is rounded as the number is that it stands for, unless bits are missing. -/
theorem rank_roundWithAccuracy (negative : Bool) {mantissa : Nat} (hpositive : 0 < mantissa)
    {exponent : Int}
    (hexponent : exponent ≤ max (mantissa.log2 + exponent - 52) minExponent) :
    rank (.ofModel (.pack
        (roundWithAccuracy .binary64 (signOf negative) mantissa exponent .exact))) =
      rounded ((signOf negative).apply 1 * (mantissa * 2 ^ (exponent - minExponent))) := by
  obtain ⟨scale, hscale⟩ : ∃ scale : Nat,
      max (mantissa.log2 + exponent - 52) minExponent = scale + minExponent :=
    ⟨(max (mantissa.log2 + exponent - 52) minExponent - minExponent).toNat, by omega⟩
  obtain ⟨shift, hshift⟩ : ∃ shift : Nat, exponent + shift = scale + minExponent :=
    ⟨(scale + minExponent - exponent).toNat, by omega⟩
  have hlog := Nat.log2_self_le hpositive.ne'
  have hden : 0 < 2 ^ shift := Nat.two_pow_pos _
  have hlow : scale = 0 ∨ 2 ^ 52 * 2 ^ shift ≤ mantissa := by
    by_cases hzero : scale = 0
    · exact .inl hzero
    · right
      rw [← pow_add]
      exact (Nat.pow_le_pow_right two_pos (by omega)).trans hlog
  have hhigh : mantissa < 2 ^ 53 * 2 ^ shift := by
    rw [← pow_add]
    exact Nat.lt_log2_self.trans_le (Nat.pow_le_pow_right two_pos (by omega))
  have hvalue : (mantissa * 2 ^ (exponent - minExponent) : ℚ) =
      mantissa / (2 ^ shift : Nat) * 2 ^ scale := by
    have hexact : exponent - minExponent = (scale : Int) - shift := by omega
    rw [hexact, zpow_sub₀ (by norm_num), zpow_natCast, zpow_natCast]
    push_cast
    ring
  have htarget : Format.binary64.targetExponent (totalExponent mantissa exponent) =
      scale + minExponent := by rw [targetExponent_eq, hscale]
  rw [rounded_apply negative (by positivity), hvalue, roundedPattern_div hden hlow hhigh]
  apply rank_pack_rounded negative _ _ htarget hshift
  · exact hlow.imp id fun hle => ((Nat.le_div_iff_mul_le hden).2 hle).trans (div_le_roundDiv _ _ _)
  · exact (roundDiv_le_succ _ _ _).trans ((Nat.div_lt_iff_lt_mul hden).2 hhigh)

theorem rank_round (negative : Bool) {mantissa : Nat} (hpositive : 0 < mantissa)
    (exponent : Int) :
    rank (.ofModel (.pack (round .binary64 (signOf negative) mantissa exponent))) =
      rounded ((signOf negative).apply 1 * (mantissa * 2 ^ (exponent - minExponent))) := by
  rw [UnpackedFloat.round, targetExponent_eq]
  dsimp only [decreaseExponent]
  generalize hshift : (exponent - max (mantissa.log2 + exponent - 52) minExponent).toNat = shift
  have hvalue : (mantissa * 2 ^ (exponent - minExponent) : ℚ) =
      (mantissa <<< shift : Nat) * 2 ^ (exponent - shift - minExponent) := by
    have hexponent : exponent - minExponent = shift + (exponent - shift - minExponent) := by ring
    rw [hexponent, zpow_add₀ (by norm_num), zpow_natCast, Nat.shiftLeft_eq]
    push_cast
    ring
  have hshifted : 0 < mantissa <<< shift := by
    rw [Nat.shiftLeft_eq]
    positivity
  rw [hvalue]
  apply rank_roundWithAccuracy negative hshifted
  rw [log2_shiftLeft hpositive]
  omega

/-- Rounding an integer mantissa of either sign. -/
theorem rank_normalize (mantissa exponent : Int) :
    rank (.ofModel (.pack (normalize .binary64 mantissa exponent .positive))) =
      rounded (mantissa * 2 ^ (exponent - minExponent)) := by
  rw [UnpackedFloat.normalize]
  rcases lt_trichotomy mantissa 0 with hnegative | rfl | hpositive
  · rw [compare_lt_iff_lt.2 hnegative]
    refine (rank_round true (by omega) exponent).trans ?_
    have habs : (((-mantissa).toNat : Nat) : ℚ) = -mantissa := by
      exact_mod_cast Int.toNat_of_nonneg (by omega)
    rw [habs]
    congr 1
    simp only [signOf, if_true, Sign.apply]
    push_cast
    ring
  · rw [compare_eq_iff_eq.2 rfl, Int.cast_zero, zero_mul]
    exact rank_pack_zero .positive
  · rw [compare_gt_iff_gt.2 hpositive]
    refine (rank_round false (by omega) exponent).trans ?_
    have habs : ((mantissa.toNat : Nat) : ℚ) = mantissa := by
      exact_mod_cast Int.toNat_of_nonneg hpositive.le
    rw [habs]
    congr 1
    simp only [signOf, Bool.false_eq_true, if_false, Sign.apply]
    push_cast
    ring

end TimingReport.Number
