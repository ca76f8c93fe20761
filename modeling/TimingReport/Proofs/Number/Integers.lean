import TimingReport.Proofs.Box.Places
import TimingReport.Proofs.Number.Value

/-!
# Doubles and the integers next to them

Doubles compare as the numbers that they are.  An integer of few bits is a double, and so is
what a double that is not too large differs by from the integer next to it: the difference has
no more bits than the double and ends at the same place.
-/

namespace TimingReport.Number

/-! ## Order and magnitude -/

section

variable {x y : Float}

theorem toRat_le_iff (hx : isFinite x = true) (hy : isFinite y = true) :
    x ≤ y ↔ toRat x ≤ toRat y := by
  rw [le_iff_rank_le hx hy, toRat, toRat, mul_le_mul_iff_left₀ unit_pos, Int.cast_le,
    units_strictMono.le_iff_le]

theorem toRat_lt_iff (hx : isFinite x = true) (hy : isFinite y = true) :
    x < y ↔ toRat x < toRat y := by
  rw [lt_iff_rank_lt hx hy, toRat, toRat, mul_lt_mul_iff_left₀ unit_pos, Int.cast_lt,
    units_strictMono.lt_iff_lt]

theorem isFinite_abs (hx : isFinite x = true) : isFinite x.abs = true := by
  rw [isFinite_iff, rank_abs hx, Int.natAbs_abs]
  exact isFinite_iff.1 hx

theorem toRat_abs (hx : isFinite x = true) : toRat x.abs = |toRat x| := by
  rw [toRat, rank_abs hx, Int.abs_eq_natAbs, ← abs_units, Int.cast_abs, toRat, abs_mul,
    abs_of_pos unit_pos]

theorem isValue_toRat (hx : isFinite x = true) : IsValue (toRat x) :=
  ⟨_, ⟨_, (isFinite_iff.1 hx).le, rfl⟩, rfl⟩

end

/-! ## Integers -/

theorem rank_ofInteger (z : Int) :
    rank (ofInteger z) = (signOf (decide (z < 0))).apply (rank (ofInteger z.natAbs)) := by
  have hsign : decide ((z.natAbs : Int) < 0) = false := decide_eq_false (by omega)
  rw [ofInteger, ofInteger, nearest, nearest, hsign, Int.natAbs_natCast,
    rank_ofPattern _ (nearestPattern_le _ _), rank_ofPattern _ (nearestPattern_le _ _),
    apply_signOf_false]

theorem isFinite_ofInteger_int {z : Int} (hz : z.natAbs ≤ 2 ^ 53) :
    isFinite (ofInteger z) = true := by
  have hfinite := isFinite_iff.1 (isFinite_ofInteger (hz.trans (by norm_num)))
  rw [isFinite_iff, rank_ofInteger]
  cases decide (z < 0) with
  | false => rwa [apply_signOf_false]
  | true => rwa [apply_signOf_true, Int.natAbs_neg]

theorem toRat_ofInteger_int {z : Int} (hz : z.natAbs ≤ 2 ^ 53) : toRat (ofInteger z) = z := by
  have hmagnitude := toRat_ofInteger_eq hz
  rw [toRat] at hmagnitude
  rw [toRat, rank_ofInteger]
  by_cases hsign : z < 0
  · rw [decide_eq_true hsign, apply_signOf_true, units_neg, Int.cast_neg, neg_mul, hmagnitude,
      Nat.cast_natAbs, abs_of_neg hsign, Int.cast_neg, neg_neg]
  · rw [decide_eq_false hsign, apply_signOf_false, hmagnitude, Nat.cast_natAbs,
      abs_of_nonneg (not_lt.1 hsign)]

/-- Two integers near to the same number are the same. -/
theorem eq_of_near {number reach reach' : ℚ} {left right : Int} (hleft : |number - left| ≤ reach)
    (hright : |number - right| ≤ reach') (hreach : reach + reach' < 1) : left = right := by
  have hcast : |((left - right : Int) : ℚ)| < (1 : Int) := by
    rw [abs_le] at hleft hright
    push_cast
    rw [abs_lt]
    constructor <;> linarith
  have hlt : |left - right| < 1 := by exact_mod_cast hcast
  exact sub_eq_zero.1 (Int.abs_lt_one_iff.1 hlt)

/-- From `2 ^ 52` on, a double is an integer. -/
theorem exists_toRat_eq_intCast {x : Float} (hx : isFinite x = true) (hlarge : 2 ^ 52 ≤ |toRat x|) :
    ∃ z : Int, toRat x = z := by
  rw [← toRat_abs hx] at hlarge
  obtain ⟨n, hn⟩ := (isValue_toRat (isFinite_abs hx)).exists_eq_natCast hlarge
  rw [toRat_abs hx] at hn
  rcases abs_choice (toRat x) with hsign | hsign <;> rw [hsign] at hn
  · exact ⟨n, by rw [hn, Int.cast_natCast]⟩
  · exact ⟨-n, by rw [← neg_eq_iff_eq_neg.2 hn.symm, Int.cast_neg, Int.cast_natCast]⟩

/-- The nearest integer is off by at most a half. -/
theorem clampedInteger_nearest {x : Float} (hx : isFinite x = true) :
    ∃ whole : Int, |toRat x - whole| ≤ 1 / 2 ∧ ∀ low high,
      clampedInteger .nearest low high x = max low (min high whole) := by
  obtain ⟨negative, num, den, hden, hvalue, hclamped⟩ := exists_quotient hx
  refine ⟨_, ?_, hclamped .nearest⟩
  have hround : ((Direction.nearest.round negative num den : Int) : ℚ) =
      signed negative (roundDiv .up num den) := by
    cases negative <;> simp [Direction.round, Direction.magnitude, signed]
  rw [hvalue, hround, abs_signed_sub_signed]
  exact abs_sub_roundDiv_le .up num hden

/-! ## The distance from an integer -/

/-- How many binary places doubles have below one. -/
theorem exists_place : ∃ place : Nat, place ≤ topScale ∧ (2 : ℚ) ^ minExponent * 2 ^ place = 1 := by
  refine ⟨1074, by decide, ?_⟩
  rw [← zpow_natCast, ← zpow_add₀ (by norm_num)]
  rfl

/-- The distance of a double from a multiple of a power of two ends where the double ends. -/
theorem isDouble_sub_mul {rank whole : Int} {place : Nat} (hplace : place ≤ topScale)
    (hsmall : |units rank| < 2 ^ 52 * 2 ^ place)
    (hle : |units rank - whole * 2 ^ place| ≤ |units rank|) :
    IsDouble (units rank - whole * 2 ^ place) := by
  obtain ⟨scale, mantissa, hpattern, hmantissa, hscale⟩ := exists_scale_mantissa rank.natAbs
  have hunits : |units rank| = mantissa * 2 ^ scale := by
    rw [abs_units, hpattern, units_natCast, scaled_add hmantissa.le hscale]
    push_cast
    rfl
  have hends : scale ≤ place := by
    by_contra hlarge
    have hpower : (2 : Int) ^ place ≤ 2 ^ scale := pow_le_pow_right₀ (by norm_num) (by omega)
    have hhead : (2 ^ 52 : Int) ≤ mantissa := by omega
    rw [hunits] at hsmall
    exact hsmall.not_ge (mul_le_mul hhead hpower (by positivity) (by positivity))
  obtain ⟨quotient, hquotient⟩ : (2 : Int) ^ scale ∣ units rank - whole * 2 ^ place := by
    refine dvd_sub ?_ ((pow_dvd_pow 2 hends).mul_left whole)
    rw [← dvd_abs, hunits]
    exact dvd_mul_left _ _
  have hshort : quotient.natAbs ≤ mantissa := by
    rw [hquotient, hunits, abs_mul, abs_of_pos (show (0 : Int) < 2 ^ scale by positivity),
      mul_comm, Int.abs_eq_natAbs] at hle
    exact_mod_cast le_of_mul_le_mul_right hle (by positivity)
  apply isDouble_of_natAbs
  rw [hquotient, Int.natAbs_mul, Int.natAbs_pow, mul_comm]
  exact isDouble_mul_pow (hshort.trans hmantissa.le) (hends.trans hplace)

/-- A double below `2 ^ 52` is taken from the integer next to it without rounding. -/
theorem toRat_sub_int {x y : Float} (hx : isFinite x = true) (hy : isFinite y = true) {whole : Int}
    (hwhole : toRat y = whole) (hsmall : |toRat x| < 2 ^ 52) (hnear : |toRat x - whole| ≤ 1 / 2) :
    isFinite (x - y) = true ∧ toRat (x - y) = toRat x - whole := by
  have hle : |toRat x - whole| ≤ |toRat x| := by
    rcases eq_or_ne whole 0 with rfl | hnonzero
    · simp
    · have hone : (1 : ℚ) ≤ |(whole : ℚ)| := by exact_mod_cast Int.one_le_abs hnonzero
      have htriangle := abs_sub_abs_le_abs_sub (whole : ℚ) (toRat x)
      rw [abs_sub_comm] at htriangle
      linarith
  obtain ⟨place, hplace, hunit⟩ := exists_place
  have hdifference : toRat x - whole =
      ((units (rank x) - whole * 2 ^ place : Int) : ℚ) * 2 ^ minExponent := by
    rw [toRat]
    push_cast
    linear_combination (whole : ℚ) * hunit
  have hvalue : IsValue (toRat x - whole) := by
    refine ⟨_, isDouble_sub_mul hplace ?_ ?_, hdifference⟩
    · rw [toRat, abs_mul, abs_of_pos unit_pos] at hsmall
      have hscaled : |(units (rank x) : ℚ)| < 2 ^ 52 * 2 ^ place := by
        calc |(units (rank x) : ℚ)|
            = |(units (rank x) : ℚ)| * 2 ^ minExponent * 2 ^ place := by
              rw [mul_assoc, hunit, mul_one]
          _ < 2 ^ 52 * 2 ^ place := mul_lt_mul_of_pos_right hsmall (by positivity)
      exact_mod_cast hscaled
    · rw [hdifference, toRat] at hle
      exact_mod_cast abs_le_abs_of_units hle
  refine ⟨isFinite_sub hx hy hx (by rwa [hwhole]), ?_⟩
  rw [toRat_sub hx hy, hwhole, hvalue.nearestValue_eq]

end TimingReport.Number
