import TimingReport.Number.Shortest
import TimingReport.Proofs.Number.Rank

/-!
# The fewest digits read back

All numbers of a reading interval are rounded to the double that it was made for.  The search ends
with a number in the interval, and so does the exact decimal, so the decimal that is written has
the double as its nearest one.
-/

namespace TimingReport.Number

/-- The number that a decimal is. -/
def Decimal.value (decimal : Decimal) : ℚ := decimal.digits * 10 ^ decimal.exponent

namespace ReadingInterval

variable {interval : ReadingInterval} {exact : ℚ}

/-- The number is between the ends, or at one of them if they count. -/
def Holds (interval : ReadingInterval) (exact : ℚ) : Prop :=
  if interval.closed then
    (interval.low / interval.den : ℚ) ≤ exact ∧ exact ≤ interval.high / interval.den
  else (interval.low / interval.den : ℚ) < exact ∧ exact < interval.high / interval.den

theorem Holds.between (hholds : interval.Holds exact) :
    (interval.low / interval.den : ℚ) ≤ exact ∧ exact ≤ interval.high / interval.den := by
  rw [Holds] at hholds
  split at hholds
  · exact hholds
  · exact ⟨hholds.1.le, hholds.2.le⟩

theorem Holds.inside (hholds : interval.Holds exact) (hopen : interval.closed = false) :
    (interval.low / interval.den : ℚ) < exact ∧ exact < interval.high / interval.den := by
  rwa [Holds, hopen, if_neg Bool.false_ne_true] at hholds

/-! ## The search -/

/-- A point that is found on a grid is in the interval. -/
theorem holds_of_nearestOnGrid {tie : Tie} {grid : Int} {point : Nat} (hden : 0 < interval.den)
    (hfound : interval.nearestOnGrid tie grid = some point) :
    interval.Holds (point * 10 ^ grid) := by
  have hcontains : ({ interval with
      low := interval.low * 10 ^ (-grid).toNat
      value := interval.value * 10 ^ (-grid).toNat
      high := interval.high * 10 ^ (-grid).toNat } : ReadingInterval).contains
        (point * (interval.den * 10 ^ grid.toNat)) = true := by
    simp only [nearestOnGrid, Nat.pow_eq] at hfound
    split_ifs at hfound with hnearer hunder hover
    · exact Option.some.inj hfound ▸ hnearer
    · exact Option.some.inj hfound ▸ hunder
    · exact Option.some.inj hfound ▸ hover
  -- Both sides of each comparison are the compared numbers times one factor.
  have hfactor : (0 : ℚ) < interval.den * 10 ^ (-grid).toNat := by positivity
  have hpoint : ((point * (interval.den * 10 ^ grid.toNat) : Nat) : ℚ) =
      point * 10 ^ grid * (interval.den * 10 ^ (-grid).toNat) := by
    rw [← pow_toNat_div 10 grid]
    push_cast
    field_simp
  have hend : ∀ bound : Nat, ((bound * 10 ^ (-grid).toNat : Nat) : ℚ) =
      bound / interval.den * (interval.den * 10 ^ (-grid).toNat) := by
    intro bound
    push_cast
    field_simp
  simp only [contains] at hcontains
  rw [Holds]
  split at hcontains
  · next hclosed =>
    simp only [Bool.and_eq_true, decide_eq_true_eq] at hcontains
    simp only [← Nat.cast_le (α := ℚ), hpoint, hend, mul_le_mul_iff_left₀ hfactor] at hcontains
    rwa [if_pos hclosed]
  · next hopen =>
    simp only [Bool.and_eq_true, decide_eq_true_eq] at hcontains
    simp only [← Nat.cast_lt (α := ℚ), hpoint, hend, mul_lt_mul_iff_left₀ hfactor] at hcontains
    rwa [if_neg hopen]

theorem holds_of_search {tie : Tie} {steps : Nat} {grid : Int} {decimal : Decimal}
    (hden : 0 < interval.den) (hfound : interval.search tie steps grid = some decimal) :
    interval.Holds decimal.value := by
  induction steps generalizing grid with
  | zero => cases hfound
  | succ steps ih =>
    rw [search] at hfound
    split at hfound
    · next digits hgrid =>
      obtain rfl := Option.some.inj hfound
      exact holds_of_nearestOnGrid hden hgrid
    · exact ih hfound

end ReadingInterval

/-! ## The interval -/

/-- How far below a mantissa the numbers are rounded to it. -/
def reachBelow (mantissa : Nat) (exponent : Int) : ℚ :=
  if mantissa = fractionSize ∧ minExponent < exponent then 1 / 4 else 1 / 2

theorem reachBelow_cases (mantissa : Nat) (exponent : Int) :
    reachBelow mantissa exponent = 1 / 4 ∧ mantissa = fractionSize ∧ minExponent < exponent ∨
      reachBelow mantissa exponent = 1 / 2 ∧
        ¬(mantissa = fractionSize ∧ minExponent < exponent) := by
  rw [reachBelow]
  split
  · next hpower => exact .inl ⟨rfl, hpower⟩
  · next hother => exact .inr ⟨rfl, hother⟩

theorem readingInterval_den_pos (mantissa : Nat) (exponent : Int) :
    0 < (readingInterval mantissa exponent).den := Nat.two_pow_pos _

theorem readingInterval_ends {mantissa : Nat} (hmantissa : 0 < mantissa) (exponent : Int) :
    ((readingInterval mantissa exponent).low / (readingInterval mantissa exponent).den : ℚ) =
        (mantissa - reachBelow mantissa exponent) * 2 ^ exponent ∧
      ((readingInterval mantissa exponent).high / (readingInterval mantissa exponent).den : ℚ) =
        (mantissa + 1 / 2) * 2 ^ exponent := by
  have hpower : (2 ^ (exponent - 2).toNat / 2 ^ (2 - exponent).toNat : ℚ) = 2 ^ exponent / 4 := by
    have hquotient := pow_toNat_div 2 (exponent - 2)
    rw [neg_sub, zpow_sub₀ (by norm_num)] at hquotient
    rw [hquotient]
    norm_num
  have hscaled : ∀ quarters : ℚ, quarters * 2 ^ (exponent - 2).toNat / 2 ^ (2 - exponent).toNat =
      quarters / 4 * 2 ^ exponent := by
    intro quarters
    rw [mul_div_assoc, hpower]
    ring
  simp only [readingInterval, Nat.pow_eq]
  constructor
  · rcases reachBelow_cases mantissa exponent with ⟨hreach, hcase⟩ | ⟨hreach, hcase⟩
    · rw [if_pos hcase, Nat.cast_mul, Nat.cast_sub (by omega), hreach]
      push_cast
      rw [hscaled]
      ring
    · rw [if_neg hcase, Nat.cast_mul, Nat.cast_sub (by omega), hreach]
      push_cast
      rw [hscaled]
      ring
  · push_cast
    rw [hscaled]
    ring

theorem reachBelow_le (mantissa : Nat) (exponent : Int) : reachBelow mantissa exponent ≤ 1 / 2 := by
  rcases reachBelow_cases mantissa exponent with ⟨hreach, -⟩ | ⟨hreach, -⟩ <;> rw [hreach]
  norm_num

/-- Numbers of the interval, divided by the spacing, are near the mantissa. -/
theorem near_of_holds {scale mantissa : Nat} {exact : ℚ} (hpositive : 0 < mantissa)
    (hholds : (readingInterval mantissa (minExponent + scale)).Holds exact) :
    (mantissa - reachBelow mantissa (minExponent + scale) ≤ exact / 2 ^ minExponent / 2 ^ scale ∧
        exact / 2 ^ minExponent / 2 ^ scale ≤ mantissa + 1 / 2) ∧
      (¬Even mantissa →
        mantissa - reachBelow mantissa (minExponent + scale) < exact / 2 ^ minExponent / 2 ^ scale ∧
          exact / 2 ^ minExponent / 2 ^ scale < mantissa + 1 / 2) := by
  obtain ⟨hlow, hhigh⟩ := readingInterval_ends hpositive (minExponent + scale)
  have hunit : (0 : ℚ) < 2 ^ (minExponent + scale) := by positivity
  have hspacing : exact / 2 ^ minExponent / 2 ^ scale = exact / 2 ^ (minExponent + scale) := by
    rw [div_div, ← zpow_natCast (2 : ℚ) scale, ← zpow_add₀ (by norm_num)]
  rw [hspacing, le_div_iff₀ hunit, div_le_iff₀ hunit, lt_div_iff₀ hunit, div_lt_iff₀ hunit, ← hlow,
    ← hhigh]
  refine ⟨hholds.between, fun hodd => hholds.inside ?_⟩
  exact decide_eq_false fun heven => hodd (Nat.even_iff.2 heven)

/-- Numbers of the interval are rounded to its double. -/
theorem exists_roundsTo_of_holds {scale mantissa : Nat} {exact : ℚ} (hpositive : 0 < mantissa)
    (hmantissa : mantissa < 2 ^ 53) (hscale : scale = 0 ∨ 2 ^ 52 ≤ mantissa)
    (hholds : (readingInterval mantissa (minExponent + scale)).Holds exact) :
    ∃ scale' mantissa', scale' * fractionSize + mantissa' = scale * fractionSize + mantissa ∧
      RoundsTo (exact / 2 ^ minExponent) scale' mantissa' := by
  obtain ⟨⟨hbelow, habove⟩, hodd⟩ := near_of_holds hpositive hholds
  have hreach := reachBelow_le mantissa (minExponent + scale)
  have hlarge : (mantissa : ℚ) ≤ 2 ^ 53 - 1 := by
    rw [le_sub_iff_add_le]
    exact_mod_cast hmantissa
  by_cases hcoarse : scale = 0 ∨ (2 : ℚ) ^ 52 ≤ exact / 2 ^ minExponent / 2 ^ scale
  · refine ⟨scale, mantissa, rfl, .of_near hcoarse (by linarith) ?_ fun htie => ?_⟩
    · exact abs_le.2 ⟨by linarith, by linarith⟩
    · by_contra hnot
      obtain ⟨hbelow', habove'⟩ := hodd hnot
      exact htie.not_lt (abs_lt.2 ⟨by linarith, by linarith⟩)
  · -- Below the power of two the number is rounded on the finer spacing, and carries over.
    rw [not_or, not_le] at hcoarse
    obtain ⟨hscaleNe, hsmall⟩ := hcoarse
    obtain rfl : mantissa = fractionSize := by
      have hle : (mantissa : ℚ) < (2 ^ 52 + 1 : Nat) := by
        push_cast
        linarith
      have hlt : mantissa < 2 ^ 52 + 1 := by exact_mod_cast hle
      simp only [fractionSize]
      omega
    obtain ⟨finer, rfl⟩ := Nat.exists_eq_succ_of_ne_zero hscaleNe
    have hquarter : reachBelow fractionSize (minExponent + finer.succ) = 1 / 4 :=
      if_pos ⟨rfl, by omega⟩
    have hsize : (fractionSize : ℚ) = 2 ^ 52 := by norm_num [fractionSize]
    have hdouble : exact / 2 ^ minExponent / 2 ^ finer =
        2 * (exact / 2 ^ minExponent / 2 ^ finer.succ) := by
      rw [pow_succ]
      field_simp
    rw [hquarter, hsize] at hbelow
    refine ⟨finer, 2 ^ 53, by simp only [fractionSize]; omega, .of_near (.inr ?_) ?_ ?_ fun _ => ?_⟩
    · rw [hdouble]
      linarith
    · rw [hdouble]
      linarith
    · rw [hdouble]
      push_cast
      exact abs_le.2 ⟨by linarith, by linarith⟩
    · exact ⟨2 ^ 52, by norm_num⟩

/-! ## The decimal that is written -/

theorem value_exactDecimal (mantissa : Nat) (exponent : Int) :
    (exactDecimal mantissa exponent).value = mantissa * 2 ^ exponent := by
  rw [exactDecimal, Decimal.value]
  split
  · next hexponent =>
    obtain ⟨n, rfl⟩ := Int.eq_ofNat_of_zero_le hexponent
    simp
  · next hexponent =>
    obtain ⟨n, hn⟩ := Int.eq_ofNat_of_zero_le (Int.neg_nonneg_of_nonpos (not_le.1 hexponent).le)
    obtain rfl : exponent = -(n : Int) := by omega
    have hten : (10 : ℚ) ^ n = 5 ^ n * 2 ^ n := by rw [← mul_pow]; norm_num
    simp only [Nat.pow_eq, neg_neg, Int.toNat_natCast, zpow_neg, zpow_natCast, hten]
    push_cast
    field_simp

theorem holds_shortest (tie : Tie) {mantissa : Nat} (hpositive : 0 < mantissa) (exponent : Int) :
    (readingInterval mantissa exponent).Holds (shortest tie mantissa exponent).value := by
  rw [shortest]
  split
  · next hfound =>
    exact ReadingInterval.holds_of_search (readingInterval_den_pos mantissa exponent) hfound
  · obtain ⟨hlow, hhigh⟩ := readingInterval_ends hpositive exponent
    have hunit : (0 : ℚ) < 2 ^ exponent := by positivity
    have hbelow : ((readingInterval mantissa exponent).low /
        (readingInterval mantissa exponent).den : ℚ) < mantissa * 2 ^ exponent := by
      rw [hlow, mul_lt_mul_iff_left₀ hunit]
      rcases reachBelow_cases mantissa exponent with ⟨hreach, -⟩ | ⟨hreach, -⟩ <;> rw [hreach] <;>
        linarith
    have habove : (mantissa * 2 ^ exponent : ℚ) < (readingInterval mantissa exponent).high /
        (readingInterval mantissa exponent).den := by
      rw [hhigh, mul_lt_mul_iff_left₀ hunit]
      linarith
    rw [value_exactDecimal, ReadingInterval.Holds]
    split
    · exact ⟨hbelow.le, habove.le⟩
    · exact ⟨hbelow, habove⟩

/-- What is written is not zero. -/
theorem digits_shortest_pos (tie : Tie) {mantissa : Nat} (hpositive : 0 < mantissa)
    (exponent : Int) :
    0 < (shortest tie mantissa exponent).digits := by
  have hlow := (holds_shortest tie hpositive exponent).between.1
  rw [(readingInterval_ends hpositive exponent).1] at hlow
  have hone : (1 : ℚ) ≤ mantissa := by exact_mod_cast hpositive
  have hreach := reachBelow_le mantissa exponent
  have hend : (0 : ℚ) < (mantissa - reachBelow mantissa exponent) * 2 ^ exponent :=
    mul_pos (by linarith) (by positivity)
  rcases Nat.eq_zero_or_pos (shortest tie mantissa exponent).digits with hzero | hdigits
  · rw [Decimal.value, hzero, Nat.cast_zero, zero_mul] at hlow
    exact absurd hlow (not_le.2 hend)
  · exact hdigits

/-- The double is the nearest one to what is written of it. -/
theorem isNearest_shortest (tie : Tie) (negative : Bool) {pattern : Nat}
    (hfinite : pattern < infinityPattern) (hpositive : 0 < (magnitudeParts pattern).1) :
    IsNearest (signed negative
      (shortest tie (magnitudeParts pattern).1 (magnitudeParts pattern).2).value)
      (ofPattern negative pattern) := by
  obtain ⟨scale, mantissa, rfl, hmantissa, hscale⟩ := exists_scale_mantissa pattern
  rw [magnitudeParts_add hmantissa hscale] at hpositive ⊢
  dsimp only at hpositive ⊢
  have hholds := holds_shortest tie hpositive (minExponent + scale)
  generalize shortest tie mantissa (minExponent + scale) = decimal at hholds
  obtain ⟨scale', mantissa', hpattern, hrounds⟩ :=
    exists_roundsTo_of_holds hpositive hmantissa hscale hholds
  have hden : 0 < 10 ^ (-decimal.exponent).toNat := Nat.pow_pos (by decide)
  have hvalue : ((decimal.digits * 10 ^ decimal.exponent.toNat : Nat) : ℚ) /
      (10 ^ (-decimal.exponent).toNat : Nat) = decimal.value := by
    rw [Decimal.value, ← pow_toNat_div 10 decimal.exponent]
    push_cast
    ring
  have hrounded : nearestPattern (decimal.digits * 10 ^ decimal.exponent.toNat)
      (10 ^ (-decimal.exponent).toNat) = scale * fractionSize + mantissa := by
    have hnonneg : 0 ≤ decimal.value / 2 ^ minExponent := by
      rw [Decimal.value]
      positivity
    rw [nearestPattern_eq _ hden, hvalue, hrounds.roundedPattern_eq hnonneg, hpattern,
      min_eq_right hfinite.le]
  rw [← hrounded] at hfinite ⊢
  rw [← hvalue]
  exact isNearest_nearest negative _ hden ((nearestPattern_lt_iff _ hden).1 hfinite)

/-- A zero is nearest to zero. -/
theorem isNearest_zero (negative : Bool) :
    IsNearest (signed negative 0) (ofPattern negative 0) := by
  have hlimit : ((0 : Nat) / (1 : Nat) : ℚ) < roundingLimit :=
    (nearestPattern_lt_iff 0 one_pos).1 (by decide)
  have hnearest := isNearest_nearest negative 0 one_pos hlimit
  rwa [Nat.cast_zero, zero_div] at hnearest

end TimingReport.Number
