import TimingReport.Proofs.Number.Arithmetic

/-!
# Infinite doubles

The infinities stand at the ends of the ranks, so all doubles that are numbers are compared
as their ranks are.  An operation with a finite result has finite operands, and adding a
number that is not negative does not take a finite double down, even where it overflows.
-/

namespace TimingReport.Number

open Float.Model (UnpackedFloat)
open Float.Model.UnpackedFloat

/-! ## Infinities among the ranks -/

section Kinds

variable {x : Float}

theorem unpack_of_infinite (hinfinite : (rank x).natAbs = infinityPattern) :
    x.toModel.unpack = .infinity (signOf (isNegative x)) := by
  have htop := (@exponent_eq_top_iff x).2 hinfinite.ge
  have hmantissa := (@mantissa_eq_zero_iff x).2 (by rw [hinfinite]; decide)
  rw [toModel_unpack, UnpackedFloat.unpack]
  dsimp only
  rw [if_pos htop, if_pos hmantissa, ofBitVec_unpackSign]

theorem unpack_of_nan (hnan : infinityPattern < (rank x).natAbs) :
    x.toModel.unpack = .notANumber := by
  have hsmall : (rank x).natAbs < signPattern := by
    rw [natAbs_rank]
    exact Nat.mod_lt _ (by decide)
  have htop := (@exponent_eq_top_iff x).2 hnan.le
  have hmantissa : ¬(rank x).natAbs % fractionSize = 0 := by
    simp only [infinityPattern, signPattern, fractionSize] at *
    omega
  rw [toModel_unpack, UnpackedFloat.unpack]
  dsimp only
  rw [if_pos htop, if_neg (mt mantissa_eq_zero_iff.1 hmantissa)]

theorem rank_pack_infinity (negative : Bool) :
    rank (.ofModel (.pack (.infinity (signOf negative)))) =
      (signOf negative).apply infinityPattern :=
  @rank_packComponents negative (-1#_) 0 _ _ rfl rfl

end Kinds

namespace Represents

variable {parts : UnpackedFloat} {rank : Int}

theorem natAbs_lt (hparts : Represents parts rank) : rank.natAbs < infinityPattern := by
  cases hparts with
  | zero sign => decide
  | finite negative hpositive hmantissa hscale hfinite =>
    rwa [natAbs_apply, Int.natAbs_natCast]

theorem isFinite (hparts : Represents parts rank) : parts.isFinite = true := by
  cases hparts <;> rfl

theorem add_infinity (hparts : Represents parts rank) (negative : Bool) :
    UnpackedFloat.add .binary64 parts (.infinity (signOf negative)) =
      .infinity (signOf negative) := by
  cases hparts <;> cases negative <;> rfl

theorem sub_infinity (hparts : Represents parts rank) (negative : Bool) :
    UnpackedFloat.sub .binary64 parts (.infinity (signOf negative)) =
      .infinity (signOf !negative) := by
  cases hparts <;> cases negative <;> rfl

theorem mul_infinity (hparts : Represents parts rank) (hpositive : 0 < rank) (negative : Bool) :
    UnpackedFloat.mul .binary64 parts (.infinity (signOf negative)) =
      .infinity (signOf negative) := by
  cases hparts with
  | zero sign => exact absurd hpositive (lt_irrefl 0)
  | finite sign =>
    cases sign with
    | false => cases negative <;> rfl
    | true =>
      rw [apply_signOf_true] at hpositive
      omega

end Represents

/-- Parts that the logical model of a number, finite or not, is taken apart into, with its
rank. -/
inductive Ranked : UnpackedFloat → Int → Prop where
  | finite {parts : UnpackedFloat} {rank : Int} (hparts : Represents parts rank) :
      Ranked parts rank
  | infinite (negative : Bool) :
      Ranked (.infinity (signOf negative)) ((signOf negative).apply infinityPattern)

namespace Ranked

variable {left right : UnpackedFloat} {leftRank rightRank : Int}

theorem compare_infinity (hleft : Represents left leftRank) (negative : Bool) :
    left.compare (.infinity (signOf negative)) =
      some (compare leftRank ((signOf negative).apply infinityPattern)) := by
  have hfinite := hleft.natAbs_lt
  cases negative with
  | false =>
    rw [apply_signOf_false, compare_lt_iff_lt.2 (by omega)]
    cases hleft <;> rfl
  | true =>
    rw [apply_signOf_true, compare_gt_iff_gt.2 (by omega)]
    cases hleft <;> rfl

theorem infinity_compare (hright : Represents right rightRank) (negative : Bool) :
    (UnpackedFloat.infinity (signOf negative)).compare right =
      some (compare ((signOf negative).apply infinityPattern) rightRank) := by
  have hfinite := hright.natAbs_lt
  cases negative with
  | false =>
    rw [apply_signOf_false, compare_gt_iff_gt.2 (by omega)]
    cases hright <;> rfl
  | true =>
    rw [apply_signOf_true, compare_lt_iff_lt.2 (by omega)]
    cases hright <;> rfl

theorem compare_eq (hleft : Ranked left leftRank) (hright : Ranked right rightRank) :
    left.compare right = some (compare leftRank rightRank) := by
  cases hleft with
  | finite hleft =>
    cases hright with
    | finite hright => exact hleft.compare_eq hright
    | infinite negative => exact compare_infinity hleft negative
  | infinite negative =>
    cases hright with
    | finite hright => exact infinity_compare hright negative
    | infinite negative' => cases negative <;> cases negative' <;> rfl

end Ranked

section Comparison

variable {x y : Float}

theorem isNaN_eq_false_iff : x.isNaN = false ↔ (rank x).natAbs ≤ infinityPattern := by
  have hkind : x.isNaN = x.toModel.unpack.isNaN := rfl
  rcases lt_trichotomy (rank x).natAbs infinityPattern with hfinite | hinfinite | hnan
  · exact iff_of_true (isNaN_eq_false_of_isFinite (isFinite_iff.2 hfinite)) hfinite.le
  · rw [hkind, unpack_of_infinite hinfinite]
    exact iff_of_true rfl hinfinite.le
  · rw [hkind, unpack_of_nan hnan]
    exact iff_of_false (by decide) (not_le.2 hnan)

theorem ranked_unpack (hx : x.isNaN = false) : Ranked x.toModel.unpack (rank x) := by
  rcases (isNaN_eq_false_iff.1 hx).lt_or_eq with hfinite | hinfinite
  · exact .finite (represents_unpack (isFinite_iff.2 hfinite))
  · rw [unpack_of_infinite hinfinite, rank_eq x, hinfinite]
    exact .infinite _

theorem le_iff_rank_le_of_isNaN (hx : x.isNaN = false) (hy : y.isNaN = false) :
    x ≤ y ↔ rank x ≤ rank y := by
  rw [← Represents.le_iff_of_compare_eq ((ranked_unpack hx).compare_eq (ranked_unpack hy))]
  exact decide_eq_true_iff

theorem lt_iff_rank_lt_of_isNaN (hx : x.isNaN = false) (hy : y.isNaN = false) :
    x < y ↔ rank x < rank y := by
  rw [← Represents.lt_iff_of_compare_eq ((ranked_unpack hx).compare_eq (ranked_unpack hy))]
  exact decide_eq_true_iff

/-- What compares is a number. -/
theorem isNaN_eq_false_of_le (hle : x ≤ y) : x.isNaN = false ∧ y.isNaN = false := by
  have hcompare : (x.toModel.unpack.compare y.toModel.unpack).any (·.isLE) = true :=
    decide_eq_true_iff.1 hle
  change x.toModel.unpack.isNaN = false ∧ y.toModel.unpack.isNaN = false
  cases hx : x.toModel.unpack with
  | notANumber => rw [hx, UnpackedFloat.compare] at hcompare; cases hcompare
  | infinity | zero | finite =>
    cases hy : y.toModel.unpack with
    | notANumber => rw [hx, hy] at hcompare; cases hcompare
    | infinity | zero | finite => exact ⟨rfl, rfl⟩

theorem le_trans_of_le {x y z : Float} (hxy : x ≤ y) (hyz : y ≤ z) : x ≤ z := by
  obtain ⟨hx, hy⟩ := isNaN_eq_false_of_le hxy
  obtain ⟨-, hz⟩ := isNaN_eq_false_of_le hyz
  rw [le_iff_rank_le_of_isNaN hx hy] at hxy
  rw [le_iff_rank_le_of_isNaN hy hz] at hyz
  exact (le_iff_rank_le_of_isNaN hx hz).2 (hxy.trans hyz)

end Comparison

/-! ## Numbers that come out of numbers -/

section Numbers

variable {x y : Float}

theorem isNaN_pack_infinity (negative : Bool) :
    (Float.ofModel (.pack (.infinity (signOf negative)))).isNaN = false := by
  rw [isNaN_eq_false_iff, rank_pack_infinity]
  cases negative <;> decide

/-- A rounded number of units is a number. -/
theorem isNaN_eq_false_of_rank_eq {exact : ℚ} (hrank : rank x = rounded exact) :
    x.isNaN = false := by
  rw [isNaN_eq_false_iff, hrank]
  exact natAbs_rounded_le exact

theorem isNaN_add (hx : isFinite x = true) (hy : y.isNaN = false) : (x + y).isNaN = false := by
  rcases (isNaN_eq_false_iff.1 hy).lt_or_eq with hfinite | hinfinite
  · exact isNaN_eq_false_of_rank_eq (rank_add hx (isFinite_iff.2 hfinite))
  · have hsum : x + y = .ofModel (.pack (.add .binary64 x.toModel.unpack y.toModel.unpack)) := rfl
    rw [hsum, unpack_of_infinite hinfinite, (represents_unpack hx).add_infinity]
    exact isNaN_pack_infinity _

theorem isNaN_sub (hx : isFinite x = true) (hy : y.isNaN = false) : (x - y).isNaN = false := by
  rcases (isNaN_eq_false_iff.1 hy).lt_or_eq with hfinite | hinfinite
  · exact isNaN_eq_false_of_rank_eq (rank_sub hx (isFinite_iff.2 hfinite))
  · have hdifference :
        x - y = .ofModel (.pack (.sub .binary64 x.toModel.unpack y.toModel.unpack)) := rfl
    rw [hdifference, unpack_of_infinite hinfinite, (represents_unpack hx).sub_infinity]
    exact isNaN_pack_infinity _

theorem isNaN_mul (hx : isFinite x = true) (hpositive : 0 < rank x) (hy : y.isNaN = false) :
    (x * y).isNaN = false := by
  rcases (isNaN_eq_false_iff.1 hy).lt_or_eq with hfinite | hinfinite
  · exact isNaN_eq_false_of_rank_eq (rank_mul hx (isFinite_iff.2 hfinite))
  · have hproduct :
        x * y = .ofModel (.pack (.mul .binary64 x.toModel.unpack y.toModel.unpack)) := rfl
    rw [hproduct, unpack_of_infinite hinfinite, (represents_unpack hx).mul_infinity hpositive]
    exact isNaN_pack_infinity _

end Numbers

/-! ## Operands of finite results -/

section Operands

variable {x y : Float}

theorem isFinite_eq_unpack (x : Float) : isFinite x = x.toModel.unpack.isFinite := by
  rcases lt_trichotomy (rank x).natAbs infinityPattern with hfinite | hinfinite | hnan
  · have hx := isFinite_iff.2 hfinite
    rw [hx, (represents_unpack hx).isFinite]
  · rw [Bool.eq_false_iff.2 (mt isFinite_iff.1 hinfinite.not_lt), unpack_of_infinite hinfinite]
    rfl
  · rw [Bool.eq_false_iff.2 (mt isFinite_iff.1 hnan.not_gt), unpack_of_nan hnan]
    rfl

/-- What is not finite in parts is not finite when it is packed. -/
theorem isFinite_of_isFinite_pack {parts : UnpackedFloat}
    (hfinite : isFinite (.ofModel (.pack parts)) = true) : parts.isFinite = true := by
  rw [isFinite_iff] at hfinite
  cases parts with
  | zero sign => rfl
  | finite sign mantissa exponent hpositive => rfl
  | infinity sign =>
    have hrank : (rank (.ofModel (.pack (.infinity sign)))).natAbs = infinityPattern := by
      cases sign with
      | positive => exact congrArg Int.natAbs (rank_pack_infinity false)
      | negative => exact congrArg Int.natAbs (rank_pack_infinity true)
    exact absurd hrank hfinite.ne
  | notANumber =>
    have hrank : rank (.ofModel (.pack .notANumber)) =
        (signOf false).apply (infinityPattern + 2 ^ 51 : Nat) :=
      @rank_packComponents false (-1#_) (1#_ <<< 51) _ _ rfl rfl
    rw [hrank] at hfinite
    exact absurd hfinite (by decide)

section Parts

variable {left right : UnpackedFloat}

theorem unpacked_isFinite_of_add
    (hfinite : (UnpackedFloat.add .binary64 left right).isFinite = true) :
    left.isFinite = true ∧ right.isFinite = true := by
  cases left with
  | notANumber => exact absurd hfinite Bool.false_ne_true
  | infinity sign =>
    cases right with
    | notANumber | zero | finite => exact absurd hfinite Bool.false_ne_true
    | infinity sign' => cases sign <;> cases sign' <;> exact absurd hfinite Bool.false_ne_true
  | zero | finite =>
    cases right with
    | notANumber | infinity => exact absurd hfinite Bool.false_ne_true
    | zero | finite => exact ⟨rfl, rfl⟩

theorem unpacked_isFinite_of_sub
    (hfinite : (UnpackedFloat.sub .binary64 left right).isFinite = true) :
    left.isFinite = true ∧ right.isFinite = true := by
  rw [unpacked_sub_eq] at hfinite
  obtain ⟨hleft, hright⟩ := unpacked_isFinite_of_add hfinite
  refine ⟨hleft, ?_⟩
  cases right <;> exact hright

theorem unpacked_isFinite_of_mul
    (hfinite : (UnpackedFloat.mul .binary64 left right).isFinite = true) :
    left.isFinite = true ∧ right.isFinite = true := by
  cases left with
  | notANumber => exact absurd hfinite Bool.false_ne_true
  | infinity sign => cases right <;> exact absurd hfinite Bool.false_ne_true
  | zero | finite =>
    cases right with
    | notANumber | infinity => exact absurd hfinite Bool.false_ne_true
    | zero | finite => exact ⟨rfl, rfl⟩

end Parts

theorem isFinite_of_isFinite_add (hfinite : isFinite (x + y) = true) :
    isFinite x = true ∧ isFinite y = true := by
  rw [isFinite_eq_unpack x, isFinite_eq_unpack y]
  exact unpacked_isFinite_of_add (isFinite_of_isFinite_pack hfinite)

theorem isFinite_of_isFinite_sub (hfinite : isFinite (x - y) = true) :
    isFinite x = true ∧ isFinite y = true := by
  rw [isFinite_eq_unpack x, isFinite_eq_unpack y]
  exact unpacked_isFinite_of_sub (isFinite_of_isFinite_pack hfinite)

theorem isFinite_of_isFinite_mul (hfinite : isFinite (x * y) = true) :
    isFinite x = true ∧ isFinite y = true := by
  rw [isFinite_eq_unpack x, isFinite_eq_unpack y]
  exact unpacked_isFinite_of_mul (isFinite_of_isFinite_pack hfinite)

end Operands

/-! ## Numbers that are not negative -/

/-- A number, possibly infinite, that is at least zero. -/
structure NonNegative (x : Float) : Prop where
  isNumber : x.isNaN = false
  rank_nonneg : 0 ≤ rank x

section NonNegative

variable {x y : Float}

theorem nonNegative_of_rank_eq {exact : ℚ} (hrank : rank x = rounded exact)
    (hexact : 0 ≤ exact) : NonNegative x := by
  refine ⟨isNaN_eq_false_of_rank_eq hrank, ?_⟩
  rw [hrank, ← rounded_zero]
  exact rounded_mono hexact

theorem units_nonneg {rank : Int} (hrank : 0 ≤ rank) : (0 : ℚ) ≤ units rank := by
  rw [← Int.cast_zero, ← units_zero]
  exact_mod_cast units_strictMono.monotone hrank

theorem nonNegative_sub (hx : isFinite x = true) (hy : isFinite y = true)
    (hle : rank x ≤ rank y) : NonNegative (y - x) := by
  apply nonNegative_of_rank_eq (rank_sub hy hx)
  rw [sub_nonneg]
  exact_mod_cast units_strictMono.monotone hle

theorem nonNegative_mul (hx : isFinite x = true) (hy : isFinite y = true)
    (hxRank : 0 ≤ rank x) (hyRank : 0 ≤ rank y) : NonNegative (x * y) := by
  apply nonNegative_of_rank_eq (rank_mul hx hy)
  have hproduct := mul_nonneg (units_nonneg hxRank) (units_nonneg hyRank)
  positivity

namespace NonNegative

theorem unpack_of_not_isFinite (hy : NonNegative y) (hinfinite : ¬isFinite y = true) :
    y.toModel.unpack = .infinity (signOf false) := by
  have habs := isNaN_eq_false_iff.1 hy.isNumber
  rw [isFinite_iff] at hinfinite
  have hrank := rank_eq y
  have hnonneg := hy.rank_nonneg
  rw [unpack_of_infinite (by omega)]
  cases hsign : isNegative y with
  | false => rfl
  | true =>
    rw [hsign, apply_signOf_true] at hrank
    simp only [infinityPattern] at *
    omega

theorem rank_add_infinite (hx : isFinite x = true) (hy : NonNegative y)
    (hinfinite : ¬isFinite y = true) : rank (x + y) = infinityPattern := by
  have hsum : x + y = .ofModel (.pack (.add .binary64 x.toModel.unpack y.toModel.unpack)) := rfl
  rw [hsum, hy.unpack_of_not_isFinite hinfinite, (represents_unpack hx).add_infinity]
  exact rank_pack_infinity false

theorem rank_sub_infinite (hx : isFinite x = true) (hy : NonNegative y)
    (hinfinite : ¬isFinite y = true) : rank (x - y) = -infinityPattern := by
  have hdifference :
      x - y = .ofModel (.pack (.sub .binary64 x.toModel.unpack y.toModel.unpack)) := rfl
  rw [hdifference, hy.unpack_of_not_isFinite hinfinite, (represents_unpack hx).sub_infinity]
  exact rank_pack_infinity true

theorem rank_mul_infinite (hx : isFinite x = true) (hpositive : 0 < rank x) (hy : NonNegative y)
    (hinfinite : ¬isFinite y = true) : rank (x * y) = infinityPattern := by
  have hproduct :
      x * y = .ofModel (.pack (.mul .binary64 x.toModel.unpack y.toModel.unpack)) := rfl
  rw [hproduct, hy.unpack_of_not_isFinite hinfinite,
    (represents_unpack hx).mul_infinity hpositive]
  exact rank_pack_infinity false

/-- A positive number times one that is not negative. -/
theorem mul (hx : isFinite x = true) (hpositive : 0 < rank x) (hy : NonNegative y) :
    NonNegative (x * y) := by
  by_cases hfinite : isFinite y = true
  · exact nonNegative_mul hx hfinite hpositive.le hy.rank_nonneg
  · have hrank := rank_mul_infinite hx hpositive hy hfinite
    refine ⟨isNaN_eq_false_iff.2 (by rw [hrank]; decide), ?_⟩
    rw [hrank]
    decide

theorem sub_le_of_units_le (hx : isFinite x = true) (hy : NonNegative y) {z : Float}
    (hz : isFinite z = true)
    (hle : isFinite y = true → (units (rank x) - units (rank y) : ℚ) ≤ units (rank z)) :
    x - y ≤ z := by
  have hzRank := isFinite_iff.1 hz
  have hnumber := isNaN_eq_false_of_isFinite hz
  by_cases hfinite : isFinite y = true
  · have hrank := rank_sub hx hfinite
    rw [le_iff_rank_le_of_isNaN (isNaN_eq_false_of_rank_eq hrank) hnumber, hrank]
    calc rounded (units (rank x) - units (rank y))
        ≤ rounded (units (rank z)) := rounded_mono (hle hfinite)
      _ = rank z := rounded_units hzRank.le
  · have hrank := rank_sub_infinite hx hy hfinite
    rw [le_iff_rank_le_of_isNaN (isNaN_eq_false_iff.2 (by rw [hrank]; decide)) hnumber, hrank]
    omega

theorem le_add_of_units_le (hx : isFinite x = true) (hy : NonNegative y) {z : Float}
    (hz : isFinite z = true)
    (hle : isFinite y = true → (units (rank z) : ℚ) ≤ units (rank x) + units (rank y)) :
    z ≤ x + y := by
  have hzRank := isFinite_iff.1 hz
  have hnumber := isNaN_eq_false_of_isFinite hz
  by_cases hfinite : isFinite y = true
  · have hrank := rank_add hx hfinite
    rw [le_iff_rank_le_of_isNaN hnumber (isNaN_eq_false_of_rank_eq hrank), hrank]
    calc rank z
        = rounded (units (rank z)) := (rounded_units hzRank.le).symm
      _ ≤ rounded (units (rank x) + units (rank y)) := rounded_mono (hle hfinite)
  · have hrank := rank_add_infinite hx hy hfinite
    rw [le_iff_rank_le_of_isNaN hnumber (isNaN_eq_false_iff.2 (by rw [hrank]; decide)), hrank]
    omega

theorem sub_le (hx : isFinite x = true) (hy : NonNegative y) : x - y ≤ x :=
  hy.sub_le_of_units_le hx hx fun _ => sub_le_self _ (units_nonneg hy.rank_nonneg)

theorem le_add (hx : isFinite x = true) (hy : NonNegative y) : x ≤ x + y :=
  hy.le_add_of_units_le hx hx fun _ => le_add_of_nonneg_right (units_nonneg hy.rank_nonneg)

end NonNegative

end NonNegative

end TimingReport.Number
