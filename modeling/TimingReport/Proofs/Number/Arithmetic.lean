import TimingReport.Proofs.Number.Shifting

/-!
# Arithmetic on doubles

A sum, difference or product of finite doubles is the exact one, rounded, and doubles are
compared as their ranks are.  Everything is measured in units of the smallest positive
double, so a product has one such unit too many.
-/

namespace TimingReport.Number

open Float.Model (Format UnpackedFloat totalExponent)
open Float.Model.UnpackedFloat

/-! ## The kinds of doubles -/

section Kinds

variable {x y : Float}

theorem isFinite_iff : isFinite x = true ↔ (rank x).natAbs < infinityPattern := by
  rw [natAbs_rank, isFinite, parts, partsOfPattern]
  dsimp only
  split_ifs <;> simp_all

@[simp]
theorem signOf_mul (left right : Bool) :
    signOf left * signOf right = signOf (left != right) := by
  cases left <;> cases right <;> rfl

@[simp]
theorem neg_signOf (negative : Bool) : -signOf negative = signOf (!negative) := by
  cases negative <;> rfl

theorem apply_eq_mul (sign : Sign) (n : Int) : sign.apply n = sign.apply 1 * n := by
  cases sign <;> simp [Sign.apply]

@[simp]
theorem natAbs_apply (sign : Sign) (n : Int) : (sign.apply n).natAbs = n.natAbs := by
  cases sign <;> simp [Sign.apply]

theorem apply_neg (sign : Sign) (n : Int) : (-sign).apply n = -sign.apply n := by
  cases sign with
  | negative => exact (neg_neg n).symm
  | positive => rfl

theorem neg_apply_signOf (negative : Bool) (n : Int) :
    -(signOf negative).apply n = (signOf !negative).apply n := by
  cases negative <;> simp [signOf, Sign.apply]

@[simp]
theorem rounded_zero : rounded 0 = 0 := by simpa using @rounded_units 0 (by decide)

theorem units_apply (sign : Sign) (rank : Int) :
    units (sign.apply rank) = sign.apply (units rank) := by
  cases sign <;> simp [Sign.apply]

end Kinds

/-- Parts that the logical model of a finite double is taken apart into, with its rank. -/
inductive Represents : UnpackedFloat → Int → Prop where
  | zero (sign : Sign) : Represents (.zero sign) 0
  | finite (negative : Bool) {scale mantissa : Nat} (hpositive : 0 < mantissa)
      (hmantissa : mantissa < 2 ^ 53) (hscale : scale = 0 ∨ 2 ^ 52 ≤ mantissa)
      (hfinite : scale * fractionSize + mantissa < infinityPattern) :
      Represents (.finite (signOf negative) mantissa (scale + minExponent) hpositive)
        ((signOf negative).apply (scale * fractionSize + mantissa : Nat))

theorem represents_unpack {x : Float} (hx : isFinite x = true) :
    Represents x.toModel.unpack (rank x) := by
  have hfinite := isFinite_iff.1 hx
  by_cases hzero : rank x = 0
  · rw [unpack_of_zero hzero, hzero]
    exact .zero _
  · obtain ⟨scale, mantissa, hpositive, habs, hmantissa, hscale, hunpack⟩ :=
      exists_unpack_finite hzero hfinite
    rw [habs] at hfinite
    rw [hunpack, rank_eq x, habs]
    exact .finite _ hpositive hmantissa hscale hfinite

namespace Represents

variable {left right : UnpackedFloat} {leftRank rightRank : Int}

theorem isNaN_eq_false (hleft : Represents left leftRank) : left.isNaN = false := by
  cases hleft <;> rfl

theorem rank_pack (hleft : Represents left leftRank) :
    rank (.ofModel (.pack left)) = leftRank := by
  cases hleft with
  | zero sign => exact rank_pack_zero sign
  | finite negative hpositive hmantissa hscale hfinite =>
    rw [rank_pack_finite negative hpositive hmantissa hscale, min_eq_right hfinite.le]

theorem rounded_units (hleft : Represents left leftRank) :
    rounded (units leftRank) = leftRank := by
  apply Number.rounded_units
  cases hleft with
  | zero sign => decide
  | finite negative hpositive hmantissa hscale hfinite =>
    rw [natAbs_apply, Int.natAbs_natCast]
    exact hfinite.le

theorem neg (hleft : Represents left leftRank) : Represents left.neg (-leftRank) := by
  cases hleft with
  | zero sign => exact .zero _
  | finite negative hpositive hmantissa hscale hfinite =>
    rw [UnpackedFloat.neg, neg_signOf, neg_apply_signOf]
    exact .finite _ hpositive hmantissa hscale hfinite

theorem abs (hleft : Represents left leftRank) : Represents left.abs |leftRank| := by
  cases hleft with
  | zero sign => exact .zero _
  | finite negative hpositive hmantissa hscale hfinite =>
    rw [Int.abs_eq_natAbs, natAbs_apply, Int.natAbs_natCast]
    exact .finite false hpositive hmantissa hscale hfinite

/-- A finite number that is not zero has a number of units that is its mantissa, moved to
its place. -/
theorem units_finite (negative : Bool) {scale mantissa : Nat} (hmantissa : mantissa < 2 ^ 53)
    (hscale : scale = 0 ∨ 2 ^ 52 ≤ mantissa) :
    units ((signOf negative).apply (scale * fractionSize + mantissa : Nat)) =
      (signOf negative).apply (mantissa * 2 ^ scale : Nat) := by
  rw [units_apply, units_natCast, scaled_add hmantissa.le hscale]

/-! ## Products -/

/-- No bits are missing from a product of mantissas. -/
theorem mul_exponent_le {scale scale' mantissa mantissa' : Nat} (hpositive : 0 < mantissa)
    (hpositive' : 0 < mantissa') (hscale : scale = 0 ∨ 2 ^ 52 ≤ mantissa)
    (hscale' : scale' = 0 ∨ 2 ^ 52 ≤ mantissa') :
    (scale + minExponent + (scale' + minExponent) : Int) ≤
      max ((mantissa * mantissa').log2 + (scale + minExponent + (scale' + minExponent)) - 52)
        minExponent := by
  have hproduct : 0 < mantissa * mantissa' := Nat.mul_pos hpositive hpositive'
  have hlog : 52 ≤ (mantissa * mantissa').log2 ∨ scale = 0 ∧ scale' = 0 := by
    rw [Nat.le_log2 hproduct.ne']
    rcases hscale with hzero | hlarge
    · rcases hscale' with hzero' | hlarge'
      · exact .inr ⟨hzero, hzero'⟩
      · exact .inl (hlarge'.trans (Nat.le_mul_of_pos_left _ hpositive))
    · exact .inl (hlarge.trans (Nat.le_mul_of_pos_right _ hpositive'))
  simp only [minExponent]
  omega

theorem rank_mul (hleft : Represents left leftRank) (hright : Represents right rightRank) :
    rank (.ofModel (.pack (UnpackedFloat.mul .binary64 left right))) =
      rounded (units leftRank * units rightRank * 2 ^ minExponent) := by
  cases hleft with
  | zero sign =>
    rw [units_zero, Int.cast_zero, zero_mul, zero_mul, rounded_zero]
    cases hright with
    | zero sign' => exact rank_pack_zero _
    | finite negative' => exact rank_pack_zero _
  | @finite negative scale mantissa hpositive hmantissa hscale _ =>
    cases hright with
    | zero sign' =>
      rw [units_zero, Int.cast_zero, mul_zero, zero_mul, rounded_zero]
      exact rank_pack_zero _
    | @finite negative' scale' mantissa' hpositive' hmantissa' hscale' _ =>
      have hexponent : (scale + minExponent + (scale' + minExponent) - minExponent : Int) =
          scale + (scale' + minExponent) := by ring
      rw [UnpackedFloat.mul, signOf_mul,
        rank_roundWithAccuracy _ (Nat.mul_pos hpositive hpositive')
          (mul_exponent_le hpositive hpositive' hscale hscale'), hexponent,
        zpow_add₀ (by norm_num), zpow_add₀ (by norm_num), zpow_natCast, zpow_natCast,
        units_finite _ hmantissa hscale, units_finite _ hmantissa' hscale']
      congr 1
      cases negative <;> cases negative' <;> simp [signOf, Sign.apply] <;> ring

/-! ## Sums and differences -/

/-- A mantissa and its exponent, brought down to a smaller exponent. -/
theorem decreaseExponent_spec (mantissa : Nat) {scale least : Nat} (hleast : least ≤ scale) :
    (decreaseExponent mantissa (scale + minExponent) (least + minExponent)).1 * 2 ^ least =
      mantissa * 2 ^ scale := by
  have hshift : ((scale + minExponent : Int) - (least + minExponent)).toNat = scale - least := by
    omega
  rw [decreaseExponent, hshift, Nat.shiftLeft_eq, mul_assoc, ← pow_add, Nat.sub_add_cancel hleast]

/-- The sum of two signed mantissas, rounded. -/
theorem rank_normalize_add (sign sign' : Sign) (mantissa mantissa' scale scale' : Nat) :
    rank (.ofModel (.pack (normalize .binary64
      (sign.apply (decreaseExponent mantissa (scale + minExponent)
          (min (scale + minExponent) (scale' + minExponent))).1 +
        sign'.apply (decreaseExponent mantissa' (scale' + minExponent)
          (min (scale + minExponent) (scale' + minExponent))).1)
      (min (scale + minExponent) (scale' + minExponent)) .positive))) =
    rounded ((sign.apply (mantissa * 2 ^ scale : Nat) +
      sign'.apply (mantissa' * 2 ^ scale' : Nat) : Int) : ℚ) := by
  have hleast : min (scale + minExponent : Int) (scale' + minExponent) =
      (min scale scale' : Nat) + minExponent := by omega
  have hleft := decreaseExponent_spec mantissa (min_le_left scale scale')
  have hright := decreaseExponent_spec mantissa' (min_le_right scale scale')
  rw [hleast, rank_normalize, add_sub_cancel_right, zpow_natCast, ← hleft, ← hright]
  congr 1
  rw [apply_eq_mul sign, apply_eq_mul sign', apply_eq_mul sign (_ * _ : Nat),
    apply_eq_mul sign' (_ * _ : Nat)]
  push_cast
  ring

theorem rank_add (hleft : Represents left leftRank) (hright : Represents right rightRank) :
    rank (.ofModel (.pack (UnpackedFloat.add .binary64 left right))) =
      rounded (units leftRank + units rightRank) := by
  have hkeptLeft := hleft.rank_pack
  have hkeptRight := hright.rank_pack
  cases hleft with
  | zero sign =>
    rw [units_zero, Int.cast_zero, zero_add, hright.rounded_units]
    cases hright with
    | zero sign' =>
      rw [UnpackedFloat.add]
      split <;> exact rank_pack_zero _
    | finite negative' => exact hkeptRight
  | @finite negative scale mantissa hpositive hmantissa hscale hfinite =>
    cases hright with
    | zero sign' =>
      rw [units_zero, Int.cast_zero, add_zero,
        (Represents.finite _ hpositive hmantissa hscale hfinite).rounded_units]
      exact hkeptLeft
    | @finite negative' scale' mantissa' hpositive' hmantissa' hscale' _ =>
      rw [units_finite _ hmantissa hscale, units_finite _ hmantissa' hscale', ← Int.cast_add]
      exact rank_normalize_add _ _ _ _ _ _

/-! ## Comparison -/

/-- Exponents are compared first, since a larger one makes for a larger rank. -/
theorem compare_magnitude {scale scale' mantissa mantissa' : Nat} (hmantissa : mantissa < 2 ^ 53)
    (hmantissa' : mantissa' < 2 ^ 53) (hscale : scale = 0 ∨ 2 ^ 52 ≤ mantissa)
    (hscale' : scale' = 0 ∨ 2 ^ 52 ≤ mantissa') :
    (compare (scale + minExponent) (scale' + minExponent : Int)).then
        (compare mantissa mantissa') =
      compare (scale * fractionSize + mantissa) (scale' * fractionSize + mantissa') := by
  simp only [fractionSize]
  rcases lt_trichotomy scale scale' with hlt | rfl | hgt
  · have hexponent : (scale + minExponent : Int) < scale' + minExponent := by omega
    rw [compare_lt_iff_lt.2 hexponent, eq_comm]
    exact compare_lt_iff_lt.2 (by omega)
  · rw [compare_eq_iff_eq.2 rfl]
    rcases lt_trichotomy mantissa mantissa' with hlt | rfl | hgt
    · rw [compare_lt_iff_lt.2 hlt, eq_comm]
      exact compare_lt_iff_lt.2 (by omega)
    · rw [compare_eq_iff_eq.2 rfl, compare_eq_iff_eq.2 rfl]
      rfl
    · rw [compare_gt_iff_gt.2 hgt, eq_comm]
      exact compare_gt_iff_gt.2 (by omega)
  · have hexponent : (scale' + minExponent : Int) < scale + minExponent := by omega
    rw [compare_gt_iff_gt.2 hexponent, eq_comm]
    exact compare_gt_iff_gt.2 (by omega)

theorem compare_natCast (left right : Nat) : compare (left : Int) right = compare left right := by
  rcases lt_trichotomy left right with hlt | rfl | hgt
  · rw [compare_lt_iff_lt.2 hlt]
    exact compare_lt_iff_lt.2 (by omega)
  · rw [compare_eq_iff_eq.2 rfl, compare_eq_iff_eq.2 rfl]
  · rw [compare_gt_iff_gt.2 hgt]
    exact compare_gt_iff_gt.2 (by omega)

theorem compare_neg_natCast (left right : Nat) :
    compare (-left : Int) (-right) = (compare left right).swap := by
  rcases lt_trichotomy left right with hlt | rfl | hgt
  · rw [compare_lt_iff_lt.2 hlt]
    exact compare_gt_iff_gt.2 (by omega)
  · rw [compare_eq_iff_eq.2 rfl, compare_eq_iff_eq.2 rfl]
    rfl
  · rw [compare_gt_iff_gt.2 hgt]
    exact compare_lt_iff_lt.2 (by omega)

theorem compare_eq (hleft : Represents left leftRank) (hright : Represents right rightRank) :
    left.compare right = some (compare leftRank rightRank) := by
  cases hleft with
  | zero sign =>
    cases hright with
    | zero sign' => rfl
    | @finite negative' scale' mantissa' =>
      cases negative' with
      | false =>
        have hlt : (0 : Int) < (scale' * fractionSize + mantissa' : Nat) := by omega
        exact congrArg some (compare_lt_iff_lt.2 hlt).symm
      | true =>
        have hlt : -((scale' * fractionSize + mantissa' : Nat) : Int) < 0 := by omega
        exact congrArg some (compare_gt_iff_gt.2 hlt).symm
  | @finite negative scale mantissa hpositive hmantissa hscale _ =>
    cases hright with
    | zero sign' =>
      cases negative with
      | false =>
        have hlt : (0 : Int) < (scale * fractionSize + mantissa : Nat) := by omega
        exact congrArg some (compare_gt_iff_gt.2 hlt).symm
      | true =>
        have hlt : -((scale * fractionSize + mantissa : Nat) : Int) < 0 := by omega
        exact congrArg some (compare_lt_iff_lt.2 hlt).symm
    | @finite negative' scale' mantissa' hpositive' hmantissa' hscale' _ =>
      have hmagnitude := compare_magnitude hmantissa hmantissa' hscale hscale'
      have hlt : -((scale * fractionSize + mantissa : Nat) : Int) <
        (scale' * fractionSize + mantissa' : Nat) := by omega
      have hgt : -((scale' * fractionSize + mantissa' : Nat) : Int) <
        (scale * fractionSize + mantissa : Nat) := by omega
      cases negative <;> cases negative'
      · exact congrArg some (hmagnitude.trans (compare_natCast _ _).symm)
      · exact congrArg some (compare_gt_iff_gt.2 hgt).symm
      · exact congrArg some (compare_lt_iff_lt.2 hlt).symm
      · exact congrArg some ((congrArg _ hmagnitude).trans (compare_neg_natCast _ _).symm)

theorem le_iff_of_compare_eq (hcompare : left.compare right = some (compare leftRank rightRank)) :
    left.le right = true ↔ leftRank ≤ rightRank := by
  rw [UnpackedFloat.le, hcompare, ← compare_le_iff_le]
  cases compare leftRank rightRank <;> decide

theorem lt_iff_of_compare_eq (hcompare : left.compare right = some (compare leftRank rightRank)) :
    left.lt right = true ↔ leftRank < rightRank := by
  rw [UnpackedFloat.lt, hcompare, ← compare_lt_iff_lt]
  cases compare leftRank rightRank <;> decide

theorem le_iff (hleft : Represents left leftRank) (hright : Represents right rightRank) :
    left.le right = true ↔ leftRank ≤ rightRank :=
  le_iff_of_compare_eq (hleft.compare_eq hright)

theorem lt_iff (hleft : Represents left leftRank) (hright : Represents right rightRank) :
    left.lt right = true ↔ leftRank < rightRank :=
  lt_iff_of_compare_eq (hleft.compare_eq hright)

end Represents

theorem unpacked_sub_eq (left right : UnpackedFloat) :
    UnpackedFloat.sub .binary64 left right = UnpackedFloat.add .binary64 left right.neg := by
  cases left <;> cases right <;> try rfl
  rw [UnpackedFloat.sub, UnpackedFloat.neg, UnpackedFloat.add]
  simp only [apply_neg, sub_eq_add_neg]

section Operations

variable {x y : Float}

theorem isNaN_eq_false_of_isFinite (hx : isFinite x = true) : x.isNaN = false :=
  (represents_unpack hx).isNaN_eq_false

theorem rank_mul (hx : isFinite x = true) (hy : isFinite y = true) :
    rank (x * y) = rounded (units (rank x) * units (rank y) * 2 ^ minExponent) :=
  (represents_unpack hx).rank_mul (represents_unpack hy)

theorem rank_add (hx : isFinite x = true) (hy : isFinite y = true) :
    rank (x + y) = rounded (units (rank x) + units (rank y)) :=
  (represents_unpack hx).rank_add (represents_unpack hy)

theorem rank_sub (hx : isFinite x = true) (hy : isFinite y = true) :
    rank (x - y) = rounded (units (rank x) - units (rank y)) := by
  have hresult := (represents_unpack hx).rank_add (represents_unpack hy).neg
  rw [← unpacked_sub_eq, units_neg, Int.cast_neg, ← sub_eq_add_neg] at hresult
  exact hresult

theorem rank_abs (hx : isFinite x = true) : rank x.abs = |rank x| :=
  (represents_unpack hx).abs.rank_pack

theorem le_iff_rank_le (hx : isFinite x = true) (hy : isFinite y = true) :
    x ≤ y ↔ rank x ≤ rank y := by
  rw [← (represents_unpack hx).le_iff (represents_unpack hy)]
  exact decide_eq_true_iff

theorem lt_iff_rank_lt (hx : isFinite x = true) (hy : isFinite y = true) :
    x < y ↔ rank x < rank y := by
  rw [← (represents_unpack hx).lt_iff (represents_unpack hy)]
  exact decide_eq_true_iff

end Operations

end TimingReport.Number
