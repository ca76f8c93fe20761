import TimingReport.Proofs.Number.Rank

/-!
# How far doubles are apart

From the power of two on where a spacing begins, doubles are multiples of the spacing, and
neighbours are at least that far apart.  Below the power of two where it ends, a number is
at most half a spacing away from the double it is rounded to.
-/

namespace TimingReport.Number

/-! ## Numbers that are doubles -/

/-- An integer of units that is a double.  The number after the largest one counts as one,
since rounding keeps it. -/
def IsDouble (n : Int) : Prop := ∃ rank : Int, rank.natAbs ≤ infinityPattern ∧ units rank = n

theorem IsDouble.neg {n : Int} (hn : IsDouble n) : IsDouble (-n) := by
  obtain ⟨rank, hfinite, hunits⟩ := hn
  exact ⟨-rank, by rwa [Int.natAbs_neg], by rw [units_neg, hunits]⟩

theorem isDouble_of_natAbs {n : Int} (hn : IsDouble n.natAbs) : IsDouble n := by
  rcases Int.natAbs_eq n with hsign | hsign
  · rwa [hsign]
  · rw [hsign]
    exact hn.neg

/-- Integers of 53 bits are doubles, wherever their last place is. -/
theorem isDouble_mul_pow {mantissa scale : Nat} (hmantissa : mantissa ≤ 2 ^ 53)
    (hscale : scale ≤ topScale) : IsDouble ((mantissa * 2 ^ scale : Nat) : Int) := by
  induction scale generalizing mantissa with
  | zero =>
    refine ⟨(0 * fractionSize + mantissa : Nat), ?_, ?_⟩
    · simp only [fractionSize, infinityPattern]
      omega
    · rw [units_natCast, scaled_add hmantissa (.inl rfl)]
  | succ scale ih =>
    by_cases hlarge : 2 ^ 52 ≤ mantissa
    · refine ⟨((scale + 1) * fractionSize + mantissa : Nat), ?_, ?_⟩
      · simp only [fractionSize, infinityPattern, topScale] at *
        omega
      · rw [units_natCast, scaled_add hmantissa (.inr hlarge)]
    · have hdouble := @ih (mantissa * 2) (by omega) (by omega)
      rwa [mul_assoc, ← pow_succ'] at hdouble

section Rounding

variable {n : Int} {exact : ℚ}

theorem IsDouble.units_rounded (hn : IsDouble n) : units (rounded n) = n := by
  obtain ⟨rank, hfinite, rfl⟩ := hn
  rw [rounded_units hfinite]

theorem IsDouble.le_units_rounded (hn : IsDouble n) (hle : n ≤ exact) :
    n ≤ units (rounded exact) := by
  rw [← hn.units_rounded]
  exact units_strictMono.monotone (rounded_mono hle)

theorem IsDouble.units_rounded_le (hn : IsDouble n) (hle : exact ≤ n) :
    units (rounded exact) ≤ n := by
  rw [← hn.units_rounded]
  exact units_strictMono.monotone (rounded_mono hle)

theorem abs_units (rank : Int) : |units rank| = units rank.natAbs := by
  rcases Int.le_total 0 rank with hnonneg | hneg
  · obtain ⟨pattern, rfl⟩ := Int.eq_ofNat_of_zero_le hnonneg
    rw [Int.natAbs_natCast, units_natCast, abs_of_nonneg (Int.natCast_nonneg _)]
  · obtain ⟨pattern, hpattern⟩ := Int.eq_ofNat_of_zero_le (Int.neg_nonneg_of_nonpos hneg)
    obtain rfl : rank = -(pattern : Int) := by omega
    rw [Int.natAbs_neg, Int.natAbs_natCast, units_neg, abs_neg, units_natCast,
      abs_of_nonneg (Int.natCast_nonneg _)]

theorem scaled_natAbs (rank : Int) : (scaled rank.natAbs : Int) = |units rank| := by
  rw [abs_units, units_natCast]

/-- What is no larger than a double is rounded to a double that is no larger. -/
theorem natAbs_rounded_le_natAbs {rank : Int} (hrank : rank.natAbs ≤ infinityPattern)
    (hle : |exact| ≤ |(units rank : ℚ)|) : (rounded exact).natAbs ≤ rank.natAbs := by
  rw [← Int.cast_abs, abs_units] at hle
  obtain ⟨hbelow, habove⟩ := abs_le.1 hle
  have hlow := rounded_mono hbelow
  have hhigh := rounded_mono habove
  rw [rounded_neg] at hlow
  rw [rounded_units (by rwa [Int.natAbs_natCast])] at hlow hhigh
  omega

/-- A double divided by a power of two, if no bit is lost. -/
theorem isDouble_of_mul {rank quotient : Int} {shift : Nat} (hrank : rank.natAbs < infinityPattern)
    (hquotient : units rank = quotient * 2 ^ (shift + 1)) : IsDouble quotient := by
  apply isDouble_of_natAbs
  have hscaled : scaled rank.natAbs = quotient.natAbs * 2 ^ (shift + 1) := by
    have habs := scaled_natAbs rank
    rw [hquotient, abs_mul, Int.abs_eq_natAbs, abs_of_pos (by positivity)] at habs
    exact_mod_cast habs
  obtain ⟨scale, mantissa, hpattern, hmantissa, hscale⟩ := exists_scale_mantissa rank.natAbs
  rw [hpattern] at hrank hscaled
  rw [scaled_add hmantissa.le hscale] at hscaled
  have htop : scale ≤ topScale := by
    simp only [fractionSize, infinityPattern, topScale] at *
    omega
  rcases Nat.lt_or_ge shift scale with hfine | hcoarse
  · have hvalue : quotient.natAbs = mantissa * 2 ^ (scale - (shift + 1)) := by
      apply Nat.eq_of_mul_eq_mul_right (Nat.two_pow_pos (shift + 1))
      rw [← hscaled, mul_assoc, ← pow_add, Nat.sub_add_cancel hfine]
    rw [hvalue]
    exact isDouble_mul_pow hmantissa.le (by omega)
  · have hvalue : mantissa = quotient.natAbs * 2 ^ (shift + 1 - scale) := by
      apply Nat.eq_of_mul_eq_mul_right (Nat.two_pow_pos scale)
      rw [hscaled, mul_assoc, ← pow_add, Nat.sub_add_cancel (by omega)]
    have hle : quotient.natAbs ≤ mantissa := by
      rw [hvalue]
      exact Nat.le_mul_of_pos_right _ (Nat.two_pow_pos _)
    have hdouble := @isDouble_mul_pow quotient.natAbs 0 (by omega) (by decide)
    rwa [pow_zero, mul_one] at hdouble

end Rounding

/-! ## Neighbours -/

theorem scaled_add_le {scale pattern : Nat}
    (hpattern : scale = 0 ∨ scale * fractionSize + 2 ^ 52 ≤ pattern) :
    scaled pattern + 2 ^ scale ≤ scaled (pattern + 1) := by
  obtain ⟨coarser, mantissa, rfl, hmantissa, hcoarser⟩ := exists_scale_mantissa pattern
  have hle : scale ≤ coarser := by
    simp only [fractionSize] at hpattern
    omega
  rw [add_assoc, scaled_add hmantissa.le hcoarser, scaled_add hmantissa (by omega),
    Nat.succ_mul]
  exact Nat.add_le_add_left (Nat.pow_le_pow_right two_pos hle) _

theorem units_add_le {scale : Nat} {rank : Int} (hrank : scale = 0 ∨
    (scale * fractionSize + 2 ^ 52 : Nat) ≤ rank ∨
      rank < -(scale * fractionSize + 2 ^ 52 : Nat)) :
    units rank + 2 ^ scale ≤ units (rank + 1) := by
  rcases Int.le_total 0 rank with hnonneg | hneg
  · obtain ⟨pattern, rfl⟩ := Int.eq_ofNat_of_zero_le hnonneg
    have hstep := @scaled_add_le scale pattern (by omega)
    rw [units_natCast, ← Int.natCast_succ, units_natCast]
    exact_mod_cast hstep
  · obtain ⟨pattern, hpattern⟩ := Int.eq_ofNat_of_zero_le (Int.neg_nonneg_of_nonpos hneg)
    obtain rfl : rank = -(pattern : Int) := by omega
    rcases Nat.eq_zero_or_pos pattern with rfl | hpositive
    · obtain rfl : scale = 0 := by omega
      have hfirst : units 0 + 1 ≤ units 1 := units_strictMono (by decide)
      simpa using hfirst
    · have hprevious : -(pattern : Int) + 1 = -((pattern - 1 : Nat) : Int) := by omega
      have hstep := @scaled_add_le scale (pattern - 1) (by omega)
      rw [Nat.sub_add_cancel hpositive] at hstep
      have hcast : ((scaled (pattern - 1) : Int) + 2 ^ scale) ≤ scaled pattern := by
        exact_mod_cast hstep
      rw [hprevious, units_neg, units_neg, units_natCast, units_natCast]
      omega

/-- From the power of two on where a spacing begins, doubles are multiples of it. -/
theorem dvd_scaled {scale pattern : Nat} (hpattern : 2 ^ 52 * 2 ^ scale ≤ scaled pattern) :
    2 ^ scale ∣ scaled pattern := by
  obtain ⟨coarser, mantissa, rfl, hmantissa, hcoarser⟩ := exists_scale_mantissa pattern
  rw [scaled_add hmantissa.le hcoarser] at hpattern ⊢
  apply Dvd.dvd.mul_left
  apply Nat.pow_dvd_pow
  by_contra hlt
  have hpower : 2 ^ (coarser + 1) ≤ 2 ^ scale := Nat.pow_le_pow_right two_pos (by omega)
  have hproduct : mantissa * 2 ^ coarser < 2 ^ 53 * 2 ^ coarser :=
    Nat.mul_lt_mul_of_pos_right hmantissa (Nat.two_pow_pos _)
  rw [pow_succ] at hpower
  omega

theorem dvd_units {scale : Nat} {rank : Int} (hrank : 2 ^ 52 * 2 ^ scale ≤ |units rank|) :
    2 ^ scale ∣ units rank := by
  rw [← scaled_natAbs] at hrank
  rw [← dvd_abs, ← scaled_natAbs]
  exact_mod_cast dvd_scaled (by exact_mod_cast hrank)

/-! ## The error of rounding -/

theorem abs_sub_units_rounded_le {exact : ℚ} {scale : Nat}
    (hsmall : |exact| < 2 ^ 53 * 2 ^ scale)
    (hfinite : (rounded exact).natAbs < infinityPattern) :
    |exact - units (rounded exact)| ≤ 2 ^ scale / 2 := by
  have hnonneg : ∀ exact : ℚ, 0 ≤ exact → exact < 2 ^ 53 * 2 ^ scale →
      (rounded exact).natAbs < infinityPattern →
      |exact - units (rounded exact)| ≤ 2 ^ scale / 2 := by
    intro exact hexact hsmall hfinite
    obtain ⟨finer, mantissa, hrounds, hpattern⟩ := exists_roundsTo_of_nonneg hexact
    rw [rounded_of_nonneg hexact, Int.natAbs_natCast] at hfinite
    rw [rounded_of_nonneg hexact, units_natCast, Int.cast_natCast,
      show roundedPattern exact = finer * fractionSize + mantissa by omega,
      hrounds.abs_sub_scaled]
    have hle : finer ≤ scale := by
      refine hrounds.le_exact.elim (fun hzero => hzero ▸ Nat.zero_le _) fun hlarge => ?_
      rw [le_div_iff₀ (by positivity)] at hlarge
      have hpower : (2 : ℚ) ^ (52 + finer) < 2 ^ (53 + scale) := by
        rw [pow_add, pow_add]
        exact hlarge.trans_lt hsmall
      have hexponent := (pow_lt_pow_iff_right₀ (by norm_num)).1 hpower
      omega
    calc |exact / 2 ^ finer - mantissa| * 2 ^ finer
        ≤ 1 / 2 * 2 ^ finer := by gcongr; exact hrounds.near
      _ ≤ 1 / 2 * 2 ^ scale := by gcongr; norm_num
      _ = 2 ^ scale / 2 := by ring
  rcases le_total 0 exact with hexact | hexact
  · exact hnonneg exact hexact (by rwa [abs_of_nonneg hexact] at hsmall) hfinite
  · have hneg := hnonneg (-exact) (by linarith) (by rwa [abs_of_nonpos hexact] at hsmall)
      (by rwa [rounded_neg, Int.natAbs_neg])
    rwa [rounded_neg, units_neg, Int.cast_neg, neg_sub_neg, abs_sub_comm] at hneg

/-- Rounding at most doubles a number: zero would be as near otherwise. -/
theorem abs_units_rounded_le (exact : ℚ) : |(units (rounded exact) : ℚ)| ≤ 2 * |exact| := by
  have hnonneg : ∀ exact : ℚ, 0 ≤ exact → |(units (rounded exact) : ℚ)| ≤ 2 * exact := by
    intro exact hexact
    obtain ⟨scale, mantissa, hrounds, hpattern⟩ := exists_roundsTo_of_nonneg hexact
    have hnear := (hrounds.minimal 0).1
    rw [scaled_zero, Nat.cast_zero, sub_zero, abs_of_nonneg hexact, abs_le] at hnear
    have hle : scaled (roundedPattern exact) ≤ scaled (scale * fractionSize + mantissa) :=
      scaled_strictMono.monotone (hpattern ▸ min_le_right _ _)
    have hcast : (scaled (roundedPattern exact) : ℚ) ≤
        scaled (scale * fractionSize + mantissa) := by exact_mod_cast hle
    rw [rounded_of_nonneg hexact, units_natCast, Int.cast_natCast,
      abs_of_nonneg (Nat.cast_nonneg _)]
    linarith
  rcases le_total 0 exact with hexact | hexact
  · rw [abs_of_nonneg hexact]
    exact hnonneg exact hexact
  · have hneg := hnonneg (-exact) (by linarith)
    rwa [rounded_neg, units_neg, Int.cast_neg, abs_neg, ← abs_of_nonpos hexact] at hneg

/-- A number that is not too small a part of a double is not lost when it is added. -/
theorem lt_rounded_add {rank : Int} {added : ℚ} (hrank : rank.natAbs < infinityPattern)
    (hadded : 1 / 2 < added) (hpart : |(units rank : ℚ)| < 2 ^ 53 * added) :
    rank < rounded (units rank + added) := by
  obtain ⟨scale, mantissa, hpattern, hmantissa, hscale⟩ := exists_scale_mantissa rank.natAbs
  have hpower : (0 : ℚ) < 2 ^ scale := by positivity
  have hunits : |(units rank : ℚ)| = mantissa * 2 ^ scale := by
    rw [← Int.cast_abs, ← scaled_natAbs, hpattern, scaled_add hmantissa.le hscale]
    push_cast
    rfl
  have hmantissa' : (mantissa : ℚ) < 2 ^ 53 := by exact_mod_cast hmantissa
  have hsmall : |(units rank : ℚ)| < 2 ^ 53 * 2 ^ scale := by
    rw [hunits]
    gcongr
  have hspacing : (2 : ℚ) ^ scale / 2 < added := by
    rcases hscale with rfl | hlarge
    · simpa using hadded
    · have hlarge : (2 : ℚ) ^ 52 ≤ mantissa := by exact_mod_cast hlarge
      have hle : (2 : ℚ) ^ 52 * 2 ^ scale ≤ |(units rank : ℚ)| := by
        rw [hunits]
        gcongr
      linarith
  have hmono : rank ≤ rounded (units rank + added) := by
    conv_lhs => rw [← rounded_units hrank.le]
    exact rounded_mono (by linarith)
  apply lt_of_le_of_ne hmono
  intro hlost
  rw [abs_lt] at hsmall
  by_cases hnear : |units rank + added| < 2 ^ 53 * 2 ^ scale
  · have herror := abs_sub_units_rounded_le hnear (hlost ▸ hrank)
    rw [← hlost, add_sub_cancel_left] at herror
    linarith [le_abs_self added]
  · have hdouble : IsDouble ((2 ^ 53 * 2 ^ scale : Nat) : Int) := by
      apply isDouble_mul_pow le_rfl
      simp only [fractionSize, infinityPattern, topScale] at *
      omega
    have hbeyond : (2 : ℚ) ^ 53 * 2 ^ scale ≤ units rank + added := by
      rw [abs_lt, not_and_or, not_lt, not_lt] at hnear
      exact hnear.resolve_left (by linarith)
    have hle := hdouble.le_units_rounded (by push_cast; exact hbeyond)
    rw [← hlost] at hle
    have hcast : (2 : ℚ) ^ 53 * 2 ^ scale ≤ units rank := by exact_mod_cast hle
    linarith

end TimingReport.Number
