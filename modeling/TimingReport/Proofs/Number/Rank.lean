import TimingReport.Proofs.Number.Nearest

/-!
# Rounding on the scale of all doubles

The doubles of both signs are numbered in the order of their values: both zeros have the
rank zero, and the infinities stand at the ends.  Rounding takes a number, in units of the
smallest positive double, to a rank.  It is monotone and odd and keeps what is a double,
and its error is at most half the spacing of the doubles around.
-/

namespace TimingReport.Number

/-! ## Rounding magnitudes -/

/-- The nearer of two numbers is told by their middle. -/
theorem abs_sub_le_abs_sub_iff {exact lower upper : ℚ} (hlt : lower < upper) :
    |exact - upper| ≤ |exact - lower| ↔ (lower + upper) / 2 ≤ exact := by
  rcases abs_cases (exact - upper) with h | h <;> rcases abs_cases (exact - lower) with h' | h' <;>
    constructor <;> intro hle <;> linarith

theorem abs_sub_le_abs_sub_iff' {exact lower upper : ℚ} (hlt : lower < upper) :
    |exact - lower| ≤ |exact - upper| ↔ exact ≤ (lower + upper) / 2 := by
  rcases abs_cases (exact - upper) with h | h <;> rcases abs_cases (exact - lower) with h' | h' <;>
    constructor <;> intro hle <;> linarith

namespace RoundsTo

variable {exact larger : ℚ} {scale mantissa scale' mantissa' : Nat}

/-- Rounding does not turn the order of two numbers around.  Where it could, both would lie
half way between two magnitudes with even patterns, and there is another one between
those. -/
theorem pattern_le (hrounds : RoundsTo exact scale mantissa)
    (hlarger : RoundsTo larger scale' mantissa') (hle : exact ≤ larger) :
    scale * fractionSize + mantissa ≤ scale' * fractionSize + mantissa' := by
  by_contra hlt
  rw [not_le] at hlt
  obtain ⟨hnear, htie⟩ := hrounds.minimal (scale' * fractionSize + mantissa')
  obtain ⟨hnear', htie'⟩ := hlarger.minimal (scale * fractionSize + mantissa)
  have hbetween := (hrounds.minimal (scale' * fractionSize + mantissa' + 1)).1
  generalize scale * fractionSize + mantissa = upper at *
  generalize scale' * fractionSize + mantissa' = lower at *
  have hvalues : (scaled lower : ℚ) < scaled upper := by exact_mod_cast scaled_strictMono hlt
  have habove := (abs_sub_le_abs_sub_iff hvalues).1 hnear
  have hbelow := (abs_sub_le_abs_sub_iff' hvalues).1 hnear'
  have hexact : exact = ((scaled lower : ℚ) + scaled upper) / 2 := by linarith
  have hlargerEq : larger = ((scaled lower : ℚ) + scaled upper) / 2 := by linarith
  have hupper : |exact - scaled upper| = ((scaled upper : ℚ) - scaled lower) / 2 := by
    rw [hexact, abs_of_nonpos (by linarith)]
    ring
  have hlower : |exact - scaled lower| = ((scaled upper : ℚ) - scaled lower) / 2 := by
    rw [hexact, abs_of_nonneg (by linarith)]
    ring
  have hevenUpper := (htie (hupper.trans hlower.symm)).resolve_left hlt.ne
  rw [hlargerEq, ← hexact] at htie'
  have hevenLower := (htie' (hlower.trans hupper.symm)).resolve_left hlt.ne'
  have hgap : lower + 1 < upper := by
    obtain ⟨half, rfl⟩ := hevenUpper
    obtain ⟨half', rfl⟩ := hevenLower
    omega
  have hfirst : (scaled lower : ℚ) < scaled (lower + 1) := by
    exact_mod_cast scaled_strictMono (Nat.lt_succ_self lower)
  have hsecond : (scaled (lower + 1) : ℚ) < scaled upper := by
    exact_mod_cast scaled_strictMono hgap
  rw [hupper] at hbetween
  rcases abs_cases (exact - (scaled (lower + 1) : ℚ)) with h | h <;> linarith

theorem pattern_eq (hrounds : RoundsTo exact scale mantissa)
    (hother : RoundsTo exact scale' mantissa') :
    scale * fractionSize + mantissa = scale' * fractionSize + mantissa' :=
  le_antisymm (hrounds.pattern_le hother le_rfl) (hother.pattern_le hrounds le_rfl)

end RoundsTo

/-- The pattern that a magnitude, in units of the smallest positive double, is rounded to. -/
def roundedPattern (exact : ℚ) : Nat :=
  nearestPattern exact.num.toNat (exact.den * 2 ^ (-minExponent).toNat)

theorem exists_roundsTo_of_nonneg {exact : ℚ} (hexact : 0 ≤ exact) :
    ∃ scale mantissa, RoundsTo exact scale mantissa ∧
      roundedPattern exact = min infinityPattern (scale * fractionSize + mantissa) := by
  have hden : 0 < exact.den * 2 ^ (-minExponent).toNat :=
    Nat.mul_pos exact.den_pos (Nat.two_pow_pos _)
  obtain ⟨scale, mantissa, hpattern, hrounds⟩ := exists_roundsTo exact.num.toNat hden
  have hnum : ((exact.num.toNat : Nat) : ℚ) = exact.num := by
    exact_mod_cast Int.toNat_of_nonneg (Rat.num_nonneg.2 hexact)
  have hquotient : ((exact.num.toNat : Nat) : ℚ) /
      ((exact.den * 2 ^ (-minExponent).toNat : Nat) : ℚ) / 2 ^ minExponent = exact := by
    have hunit : (2 : ℚ) ^ minExponent = 1 / 2 ^ (-minExponent).toNat := by
      rw [one_div, ← zpow_natCast, ← zpow_neg]
      rfl
    have hpower : (0 : ℚ) < 2 ^ (-minExponent).toNat := by positivity
    rw [hnum, hunit, Nat.cast_mul, Nat.cast_pow, Nat.cast_ofNat, div_div, mul_assoc,
      mul_one_div_cancel hpower.ne', mul_one, Rat.num_div_den]
  rw [hquotient] at hrounds
  exact ⟨scale, mantissa, hrounds, hpattern⟩

theorem RoundsTo.roundedPattern_eq {exact : ℚ} {scale mantissa : Nat} (hexact : 0 ≤ exact)
    (hrounds : RoundsTo exact scale mantissa) :
    roundedPattern exact = min infinityPattern (scale * fractionSize + mantissa) := by
  obtain ⟨scale', mantissa', hrounds', hpattern⟩ := exists_roundsTo_of_nonneg hexact
  rw [hpattern, hrounds.pattern_eq hrounds']

/-- How a quotient is rounded does not depend on how it is written. -/
theorem nearestPattern_eq (num : Nat) {den : Nat} (hden : 0 < den) :
    nearestPattern num den = roundedPattern (num / den / 2 ^ minExponent) := by
  obtain ⟨scale, mantissa, hpattern, hrounds⟩ := exists_roundsTo num hden
  rw [hpattern, hrounds.roundedPattern_eq (by positivity)]

theorem roundedPattern_le (exact : ℚ) : roundedPattern exact ≤ infinityPattern :=
  nearestPattern_le _ _

theorem roundedPattern_mono {exact larger : ℚ} (hexact : 0 ≤ exact) (hle : exact ≤ larger) :
    roundedPattern exact ≤ roundedPattern larger := by
  obtain ⟨scale, mantissa, hrounds, hpattern⟩ := exists_roundsTo_of_nonneg hexact
  obtain ⟨scale', mantissa', hrounds', hpattern'⟩ :=
    exists_roundsTo_of_nonneg (hexact.trans hle)
  rw [hpattern, hpattern']
  exact min_le_min_left _ (hrounds.pattern_le hrounds' hle)

theorem div_le_roundDiv (tie : Tie) (num den : Nat) : num / den ≤ roundDiv tie num den := by
  simp only [roundDiv]
  split_ifs
  · exact le_rfl
  · exact Nat.le_succ _
  · cases tie
    · exact Nat.le_add_right _ _
    · exact Nat.le_succ _

theorem roundDiv_le_succ (tie : Tie) (num den : Nat) :
    roundDiv tie num den ≤ num / den + 1 := by
  simp only [roundDiv]
  split_ifs
  · exact Nat.le_succ _
  · exact le_rfl
  · cases tie
    · exact Nat.add_le_add_left (Nat.lt_succ_iff.1 (Nat.mod_lt _ two_pos)) _
    · exact le_rfl

/-- A quotient with 53 bits in front of its point, or fewer on the finest grid, is rounded
to an integer. -/
theorem roundedPattern_div {num den scale : Nat} (hden : 0 < den)
    (hlow : scale = 0 ∨ 2 ^ 52 * den ≤ num) (hhigh : num < 2 ^ 53 * den) :
    roundedPattern (num / den * 2 ^ scale) =
      min infinityPattern (scale * fractionSize + roundDiv .toEven num den) := by
  have hpositive : (0 : ℚ) < den := by exact_mod_cast hden
  have hunit : (2 : ℚ) ^ scale ≠ 0 := by positivity
  refine RoundsTo.roundedPattern_eq (by positivity) (.of_near ?_ ?_ ?_ ?_)
  · refine hlow.imp id fun hle => ?_
    rw [mul_div_cancel_right₀ _ hunit, le_div_iff₀ hpositive]
    exact_mod_cast hle
  · rw [mul_div_cancel_right₀ _ hunit, div_lt_iff₀ hpositive]
    exact_mod_cast hhigh
  · rw [mul_div_cancel_right₀ _ hunit]
    exact abs_sub_roundDiv_le .toEven num hden
  · rw [mul_div_cancel_right₀ _ hunit]
    exact even_roundDiv_of_tie hden

/-- What is a magnitude already is kept. -/
theorem roundedPattern_scaled (pattern : Nat) :
    roundedPattern (scaled pattern) = min infinityPattern pattern := by
  obtain ⟨scale, mantissa, rfl, hmantissa, hscale⟩ := exists_scale_mantissa pattern
  have hdiv : roundDiv .toEven mantissa 1 = mantissa := by simp [roundDiv, Nat.mod_one]
  have hrounded := @roundedPattern_div mantissa 1 scale Nat.one_pos (by omega) (by omega)
  rw [hdiv] at hrounded
  rw [scaled_add hmantissa.le hscale, ← hrounded]
  push_cast
  rw [div_one]

/-! ## Ranks -/

/-- The number of a rank, in units of the smallest positive double. -/
def units (rank : Int) : Int := rank.sign * scaled rank.natAbs

/-- The rank that a number, in units of the smallest positive double, is rounded to. -/
def rounded (exact : ℚ) : Int :=
  if exact < 0 then -(roundedPattern (-exact) : Int) else roundedPattern exact

theorem scaled_zero : scaled 0 = 0 := by simp [scaled, magnitudeParts]

theorem units_natCast (pattern : Nat) : units pattern = scaled pattern := by
  rcases Nat.eq_zero_or_pos pattern with rfl | hpositive
  · simp [units, scaled_zero]
  · simp [units, Int.sign_natCast_of_ne_zero hpositive.ne']

@[simp]
theorem units_neg (rank : Int) : units (-rank) = -units rank := by simp [units]

@[simp]
theorem units_zero : units 0 = 0 := rfl

theorem units_strictMono : StrictMono units := by
  have hnonneg : ∀ {left right : Nat}, left < right → units left < units right := by
    intro left right hlt
    rw [units_natCast, units_natCast]
    exact_mod_cast scaled_strictMono hlt
  intro left right hlt
  rcases Int.le_total 0 left with hleft | hleft
  · obtain ⟨l, rfl⟩ := Int.eq_ofNat_of_zero_le hleft
    obtain ⟨r, rfl⟩ := Int.eq_ofNat_of_zero_le (hleft.trans hlt.le)
    exact hnonneg (by omega)
  · obtain ⟨l, hl⟩ := Int.eq_ofNat_of_zero_le (Int.neg_nonneg_of_nonpos hleft)
    obtain rfl : left = -(l : Int) := by omega
    rcases Int.le_total right 0 with hright | hright
    · obtain ⟨r, hr⟩ := Int.eq_ofNat_of_zero_le (Int.neg_nonneg_of_nonpos hright)
      obtain rfl : right = -(r : Int) := by omega
      rw [units_neg, units_neg]
      exact neg_lt_neg (hnonneg (by omega))
    · obtain ⟨r, rfl⟩ := Int.eq_ofNat_of_zero_le hright
      rw [units_neg, units_natCast, units_natCast]
      have hends : (0 : Int) < scaled l ∨ (0 : Int) < scaled r := by
        rcases Nat.eq_zero_or_pos l with rfl | hl
        · right
          have := scaled_strictMono (show 0 < r by omega)
          rw [scaled_zero] at this
          exact_mod_cast this
        · left
          have := scaled_strictMono hl
          rw [scaled_zero] at this
          exact_mod_cast this
      omega

@[simp]
theorem rounded_neg (exact : ℚ) : rounded (-exact) = -rounded exact := by
  rcases lt_trichotomy exact 0 with h | rfl | h
  · rw [rounded, rounded, if_neg (by linarith), if_pos h, neg_neg]
  · simp [rounded, roundedPattern, nearestPattern]
  · rw [rounded, rounded, if_pos (by linarith), if_neg (by linarith), neg_neg]

theorem rounded_of_nonneg {exact : ℚ} (hexact : 0 ≤ exact) :
    rounded exact = roundedPattern exact := if_neg (not_lt.2 hexact)

theorem rounded_mono : Monotone rounded := by
  intro left right hle
  rcases le_or_gt 0 left with hleft | hleft
  · rw [rounded_of_nonneg hleft, rounded_of_nonneg (hleft.trans hle)]
    exact_mod_cast roundedPattern_mono hleft hle
  · rcases le_or_gt 0 right with hright | hright
    · rw [rounded, if_pos hleft, rounded_of_nonneg hright]
      omega
    · rw [rounded, rounded, if_pos hleft, if_pos hright]
      have := roundedPattern_mono (show 0 ≤ -right by linarith) (neg_le_neg hle)
      omega

theorem natAbs_rounded_le (exact : ℚ) : (rounded exact).natAbs ≤ infinityPattern := by
  rw [rounded]
  split
  · simpa using roundedPattern_le _
  · simpa using roundedPattern_le _

/-- What is a double already is kept. -/
theorem rounded_units {rank : Int} (hrank : rank.natAbs ≤ infinityPattern) :
    rounded (units rank) = rank := by
  have hnonneg : ∀ pattern : Nat, pattern ≤ infinityPattern →
      rounded (units pattern) = pattern := by
    intro pattern hpattern
    rw [units_natCast, Int.cast_natCast, rounded_of_nonneg (Nat.cast_nonneg _),
      roundedPattern_scaled, min_eq_right hpattern]
  rcases Int.le_total 0 rank with h | h
  · obtain ⟨n, rfl⟩ := Int.eq_ofNat_of_zero_le h
    exact hnonneg n hrank
  · obtain ⟨n, hn⟩ := Int.eq_ofNat_of_zero_le (Int.neg_nonneg_of_nonpos h)
    obtain rfl : rank = -(n : Int) := by omega
    rw [units_neg, Int.cast_neg, rounded_neg, hnonneg n (by omega)]

end TimingReport.Number
