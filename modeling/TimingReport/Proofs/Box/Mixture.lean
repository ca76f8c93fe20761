import TimingReport.Proofs.Number.Spacing

/-!
# Mixtures of two doubles

A quartile between two samples is a mixture of them in quarters: either one is multiplied
and rounded, and then the sum is rounded.  A mixture is monotone in both doubles.  Mixing a
double with itself by one and three quarters gives it back, whatever is lost in between; in
halves it does if half the double is one.
-/

namespace TimingReport

open Number

/-- The rank of so many quarters of a double. -/
def share (part : Nat) (rank : Int) : Int := rounded (units rank * (part / 4))

/-- The rank of a mixture of two doubles to which the second one adds so many quarters. -/
def mixture (part : Nat) (low high : Int) : Int :=
  rounded (units (share (4 - part) low) + units (share part high))

section Shares

variable {part : Nat} {low high low' high' rank : Int}

@[simp]
theorem share_neg (part : Nat) (rank : Int) : share part (-rank) = -share part rank := by
  rw [share, share, units_neg, Int.cast_neg, neg_mul, rounded_neg]

theorem share_mono (part : Nat) : Monotone (share part) := by
  intro low high hle
  have hunits : (units low : ℚ) ≤ units high := by exact_mod_cast units_strictMono.monotone hle
  exact rounded_mono (mul_le_mul_of_nonneg_right hunits (by positivity))

theorem natAbs_share_le (hpart : part ≤ 4) (hrank : rank.natAbs ≤ infinityPattern) :
    (share part rank).natAbs ≤ rank.natAbs := by
  apply natAbs_rounded_le_natAbs hrank
  have hquarters : (part : ℚ) / 4 ≤ 1 := by
    rw [div_le_one (by norm_num)]
    exact_mod_cast hpart
  rw [abs_mul, abs_of_nonneg (show (0 : ℚ) ≤ part / 4 by positivity)]
  exact mul_le_of_le_one_right (abs_nonneg _) hquarters

theorem mixture_neg (part : Nat) (low high : Int) :
    mixture part (-low) (-high) = -mixture part low high := by
  rw [mixture, mixture, share_neg, share_neg, units_neg, units_neg, Int.cast_neg, Int.cast_neg,
    ← neg_add, rounded_neg]

theorem mixture_mono (part : Nat) (hlow : low ≤ low') (hhigh : high ≤ high') :
    mixture part low high ≤ mixture part low' high' := by
  have hfirst := units_strictMono.monotone (share_mono (4 - part) hlow)
  have hsecond := units_strictMono.monotone (share_mono part hhigh)
  apply rounded_mono
  exact_mod_cast add_le_add hfirst hsecond

end Shares

/-! ## Mixing a double with itself -/

theorem roundDiv_quarters (mantissa : Nat) :
    roundDiv .toEven mantissa 4 + roundDiv .toEven (3 * mantissa) 4 = mantissa := by
  simp only [roundDiv]
  split_ifs <;> omega

theorem roundDiv_halves (mantissa : Nat) :
    roundDiv .toEven mantissa 2 + roundDiv .toEven (3 * mantissa) 2 = 2 * mantissa := by
  simp only [roundDiv]
  split_ifs <;> omega

/-- The quarter was rounded to a half of the unit, and the three quarters to the unit. -/
theorem roundDiv_half_quarters (mantissa : Nat) :
    roundDiv .toEven (roundDiv .toEven mantissa 2 + 2 * roundDiv .toEven (3 * mantissa) 4) 2 =
      mantissa := by
  simp only [roundDiv]
  split_ifs <;> omega

theorem roundDiv_three_halves (mantissa : Nat) :
    roundDiv .toEven (mantissa + 2 * roundDiv .toEven (3 * mantissa) 2) 4 = mantissa := by
  simp only [roundDiv]
  split_ifs <;> omega

theorem roundDiv_three_quarters (mantissa : Nat) :
    roundDiv .toEven (mantissa + 4 * roundDiv .toEven (3 * mantissa) 4) 4 = mantissa := by
  simp only [roundDiv]
  split_ifs <;> omega

section Pattern

variable {scale mantissa : Nat}

/-- The double that a quotient on its grid is rounded to, as an integer of units. -/
theorem units_rounded_div {num den : Nat} (hden : 0 < den)
    (hlow : scale = 0 ∨ 2 ^ 52 * den ≤ num) (hhigh : num < 2 ^ 53 * den)
    (hfinite : (rounded (num / den * 2 ^ scale)).natAbs < infinityPattern) :
    units (rounded (num / den * 2 ^ scale)) = (roundDiv .toEven num den * 2 ^ scale : Nat) := by
  rw [rounded_of_nonneg (by positivity), Int.natAbs_natCast,
    roundedPattern_div hden hlow hhigh] at hfinite
  rw [rounded_of_nonneg (by positivity), roundedPattern_div hden hlow hhigh,
    min_eq_right (by omega), units_natCast, scaled_add]
  · exact (roundDiv_le_succ _ _ _).trans ((Nat.div_lt_iff_lt_mul hden).2 hhigh)
  · exact hlow.imp id fun hle =>
      ((Nat.le_div_iff_mul_le hden).2 hle).trans (div_le_roundDiv _ _ _)

/-- The units of a share, written as a quotient on the grid where it is rounded. -/
theorem units_share {part num den scale' : Nat} (hpart : part ≤ 4) (hmantissa : mantissa < 2 ^ 53)
    (hscale : scale = 0 ∨ 2 ^ 52 ≤ mantissa)
    (hfinite : scale * fractionSize + mantissa < infinityPattern) (hden : 0 < den)
    (hlow : scale' = 0 ∨ 2 ^ 52 * den ≤ num) (hhigh : num < 2 ^ 53 * den)
    (hvalue : 4 * num * 2 ^ scale' = part * mantissa * 2 ^ scale * den) :
    units (share part (scale * fractionSize + mantissa : Nat)) =
      (roundDiv .toEven num den * 2 ^ scale' : Nat) := by
  have hexact : (units (scale * fractionSize + mantissa : Nat) * (part / 4) : ℚ) =
      num / den * 2 ^ scale' := by
    have hcast : (4 * num * 2 ^ scale' : ℚ) = part * mantissa * 2 ^ scale * den := by
      exact_mod_cast hvalue
    have hpositive : (den : ℚ) ≠ 0 := by exact_mod_cast hden.ne'
    rw [units_natCast, scaled_add hmantissa.le hscale]
    push_cast
    field_simp
    linarith
  have hpattern : ((scale * fractionSize + mantissa : Nat) : Int).natAbs < infinityPattern := by
    rwa [Int.natAbs_natCast]
  have hshare := (natAbs_share_le hpart hpattern.le).trans_lt hpattern
  rw [share, hexact] at hshare ⊢
  exact units_rounded_div hden hlow hhigh hshare

/-- A sum that is rounded to a mantissa on a grid is rounded to the double there. -/
theorem rounded_eq_of_roundDiv {sum num den : Nat} (hden : 0 < den)
    (hfinite : scale * fractionSize + mantissa < infinityPattern)
    (hlow : scale = 0 ∨ 2 ^ 52 * den ≤ num) (hhigh : num < 2 ^ 53 * den)
    (hsum : sum * den = num * 2 ^ scale) (hround : roundDiv .toEven num den = mantissa) :
    rounded (sum : Nat) = (scale * fractionSize + mantissa : Nat) := by
  have hexact : (sum : ℚ) = num / den * 2 ^ scale := by
    have hcast : (sum * den : ℚ) = num * 2 ^ scale := by exact_mod_cast hsum
    have hpositive : (den : ℚ) ≠ 0 := by exact_mod_cast hden.ne'
    field_simp
    linarith
  rw [hexact, rounded_of_nonneg (by positivity), roundedPattern_div hden hlow hhigh, hround,
    min_eq_right hfinite.le]

theorem rounded_shares_finest (hmantissa : mantissa < 2 ^ 53) :
    rounded ((units (share 1 (0 * fractionSize + mantissa : Nat)) +
        units (share 3 (0 * fractionSize + mantissa : Nat)) : Int) : ℚ) =
      (0 * fractionSize + mantissa : Nat) := by
  have hfinite : 0 * fractionSize + mantissa < infinityPattern := by
    simp only [fractionSize, infinityPattern]
    omega
  have hone := @units_share 0 mantissa 1 mantissa 4 0 (by decide) hmantissa (.inl rfl) hfinite
    (by decide) (.inl rfl) (by omega) (by ring)
  have hthree := @units_share 0 mantissa 3 (3 * mantissa) 4 0 (by decide) hmantissa (.inl rfl)
    hfinite (by decide) (.inl rfl) (by omega) (by ring)
  have hquarters := roundDiv_quarters mantissa
  rw [hone, hthree, ← Nat.cast_add, Int.cast_natCast]
  apply @rounded_eq_of_roundDiv 0 mantissa _ mantissa 1 one_pos hfinite (.inl rfl) (by omega)
  · omega
  · simp [roundDiv, Nat.mod_one]

theorem rounded_shares_second (hlarge : 2 ^ 52 ≤ mantissa) (hmantissa : mantissa < 2 ^ 53) :
    rounded ((units (share 1 (1 * fractionSize + mantissa : Nat)) +
        units (share 3 (1 * fractionSize + mantissa : Nat)) : Int) : ℚ) =
      (1 * fractionSize + mantissa : Nat) := by
  have hfinite : 1 * fractionSize + mantissa < infinityPattern := by
    simp only [fractionSize, infinityPattern]
    omega
  have hone := @units_share 1 mantissa 1 mantissa 2 0 (by decide) hmantissa (.inr hlarge) hfinite
    (by decide) (.inl rfl) (by omega) (by ring)
  by_cases hbelow : 3 * mantissa < 2 ^ 54
  · have hthree := @units_share 1 mantissa 3 (3 * mantissa) 2 0 (by decide) hmantissa
      (.inr hlarge) hfinite (by decide) (.inl rfl) (by omega) (by ring)
    have hhalves := roundDiv_halves mantissa
    rw [hone, hthree, ← Nat.cast_add, Int.cast_natCast]
    apply @rounded_eq_of_roundDiv 1 mantissa _ mantissa 1 one_pos hfinite (.inr (by omega))
      (by omega)
    · omega
    · simp [roundDiv, Nat.mod_one]
  · have hthree := @units_share 1 mantissa 3 (3 * mantissa) 4 1 (by decide) hmantissa
      (.inr hlarge) hfinite (by decide) (.inr (by omega)) (by omega) (by ring)
    have hround := roundDiv_half_quarters mantissa
    have hquarter := roundDiv_mul_le .toEven mantissa 2
    have hquarter' := le_roundDiv_mul .toEven mantissa 2 (by decide)
    have hquarters := roundDiv_mul_le .toEven (3 * mantissa) 4
    have hquarters' := le_roundDiv_mul .toEven (3 * mantissa) 4 (by decide)
    rw [hone, hthree, ← Nat.cast_add, Int.cast_natCast]
    apply @rounded_eq_of_roundDiv 1 mantissa _ _ 2 two_pos hfinite (.inr _) _ _ hround
    · omega
    · omega
    · ring

theorem rounded_shares_coarse (hlarge : 2 ^ 52 ≤ mantissa) (hmantissa : mantissa < 2 ^ 53)
    (hfinite : (scale + 2) * fractionSize + mantissa < infinityPattern) :
    rounded ((units (share 1 ((scale + 2) * fractionSize + mantissa : Nat)) +
        units (share 3 ((scale + 2) * fractionSize + mantissa : Nat)) : Int) : ℚ) =
      ((scale + 2) * fractionSize + mantissa : Nat) := by
  have hone := @units_share (scale + 2) mantissa 1 mantissa 1 scale (by decide) hmantissa
    (.inr hlarge) hfinite (by decide) (.inr (by omega)) (by omega) (by ring)
  have hexact : roundDiv .toEven mantissa 1 = mantissa := by simp [roundDiv, Nat.mod_one]
  rw [hexact] at hone
  by_cases hbelow : 3 * mantissa < 2 ^ 54
  · have hthree := @units_share (scale + 2) mantissa 3 (3 * mantissa) 2 (scale + 1) (by decide)
      hmantissa (.inr hlarge) hfinite (by decide) (.inr (by omega)) (by omega) (by ring)
    have hround := roundDiv_three_halves mantissa
    have hhalves := roundDiv_mul_le .toEven (3 * mantissa) 2
    have hhalves' := le_roundDiv_mul .toEven (3 * mantissa) 2 (by decide)
    rw [hone, hthree, ← Nat.cast_add, Int.cast_natCast]
    apply @rounded_eq_of_roundDiv (scale + 2) mantissa _ _ 4 (by decide) hfinite (.inr _) _ _ hround
    · rcases hlarge.eq_or_lt with rfl | hlarger
      · omega
      · omega
    · omega
    · ring
  · have hthree := @units_share (scale + 2) mantissa 3 (3 * mantissa) 4 (scale + 2) (by decide)
      hmantissa (.inr hlarge) hfinite (by decide) (.inr (by omega)) (by omega) (by ring)
    have hround := roundDiv_three_quarters mantissa
    have hquarters := roundDiv_mul_le .toEven (3 * mantissa) 4
    have hquarters' := le_roundDiv_mul .toEven (3 * mantissa) 4 (by decide)
    rw [hone, hthree, ← Nat.cast_add, Int.cast_natCast]
    apply @rounded_eq_of_roundDiv (scale + 2) mantissa _ _ 4 (by decide) hfinite (.inr _) _ _ hround
    · omega
    · omega
    · ring

end Pattern

section Self

variable {part : Nat} {low high rank : Int}

theorem rounded_shares_natCast {pattern : Nat} (hfinite : pattern < infinityPattern) :
    rounded ((units (share 1 pattern) + units (share 3 pattern) : Int) : ℚ) = pattern := by
  obtain ⟨scale, mantissa, rfl, hmantissa, hscale⟩ := exists_scale_mantissa pattern
  by_cases hfinest : scale = 0
  · rw [hfinest]
    exact rounded_shares_finest hmantissa
  have hlarge := hscale.resolve_left hfinest
  by_cases hsecond : scale = 1
  · rw [hsecond]
    exact rounded_shares_second hlarge hmantissa
  · obtain ⟨coarser, rfl⟩ : ∃ coarser, scale = coarser + 2 := ⟨scale - 2, by omega⟩
    exact rounded_shares_coarse hlarge hmantissa hfinite

/-- One and three quarters of a double, each rounded, have a sum that is rounded to it. -/
theorem rounded_shares (hrank : rank.natAbs < infinityPattern) :
    rounded ((units (share 1 rank) + units (share 3 rank) : Int) : ℚ) = rank := by
  rcases Int.le_total 0 rank with hnonneg | hneg
  · obtain ⟨pattern, rfl⟩ := Int.eq_ofNat_of_zero_le hnonneg
    exact rounded_shares_natCast (by simpa using hrank)
  · obtain ⟨pattern, hpattern⟩ := Int.eq_ofNat_of_zero_le (Int.neg_nonneg_of_nonpos hneg)
    obtain rfl : rank = -(pattern : Int) := by omega
    rw [Int.natAbs_neg, Int.natAbs_natCast] at hrank
    rw [share_neg, share_neg, units_neg, units_neg, ← neg_add, Int.cast_neg, rounded_neg,
      rounded_shares_natCast hrank]

/-- Half of a double that is an even number of units is a double. -/
theorem two_mul_units_share (hrank : rank.natAbs < infinityPattern) (heven : Even (units rank)) :
    2 * units (share 2 rank) = units rank := by
  obtain ⟨half, hhalf⟩ := heven
  have hdouble : IsDouble half := by
    apply @isDouble_of_mul rank half 0 hrank
    rw [hhalf, zero_add, pow_one, mul_two]
  have hexact : (units rank * ((2 : Nat) / 4) : ℚ) = half := by
    rw [hhalf]
    push_cast
    ring
  rw [share, hexact, hdouble.units_rounded, hhalf, two_mul]

theorem mixture_self (hrank : rank.natAbs < infinityPattern)
    (hpart : part = 1 ∨ part = 2 ∧ Even (units rank) ∨ part = 3) :
    mixture part rank rank = rank := by
  rcases hpart with rfl | ⟨rfl, heven⟩ | rfl
  · have hshares := rounded_shares hrank
    rw [add_comm] at hshares
    rw [mixture, ← Int.cast_add]
    exact hshares
  · have hhalf := two_mul_units_share hrank heven
    rw [mixture, ← Int.cast_add, ← two_mul, hhalf, rounded_units hrank.le]
  · rw [mixture, ← Int.cast_add]
    exact rounded_shares hrank

/-- A mixture lies between the doubles that are mixed. -/
theorem mixture_mem (hle : low ≤ high) (hlow : low.natAbs < infinityPattern)
    (hhigh : high.natAbs < infinityPattern)
    (hpart : part = 1 ∨ part = 2 ∧ Even (units low) ∧ Even (units high) ∨ part = 3) :
    low ≤ mixture part low high ∧ mixture part low high ≤ high := by
  constructor
  · calc low = mixture part low low := (mixture_self hlow (by tauto)).symm
      _ ≤ mixture part low high := mixture_mono part le_rfl hle
  · calc mixture part low high ≤ mixture part high high := mixture_mono part hle le_rfl
      _ = high := mixture_self hhigh (by tauto)

/-- The rank of the largest finite double. -/
def topRank : Int := infinityPattern - 1

theorem even_units_topRank : Even (units topRank) := by
  have htop : topRank = (topScale * fractionSize + (2 ^ 53 - 1) : Nat) := by decide
  have heven : ∀ mantissa scale : Nat, scale ≠ 0 → Even ((mantissa * 2 ^ scale : Nat) : Int) := by
    intro mantissa scale hscale
    exact_mod_cast (Nat.even_pow.2 ⟨even_two, hscale⟩).mul_left mantissa
  rw [htop, units_natCast, scaled_add (by norm_num) (.inr (by norm_num))]
  exact heven _ _ (by decide)

/-- Mixing doubles does not lead out of their range, whether or not a half is rounded. -/
theorem natAbs_mixture_lt (hlow : low.natAbs < infinityPattern)
    (hhigh : high.natAbs < infinityPattern) (hpart : part = 1 ∨ part = 2 ∨ part = 3) :
    (mixture part low high).natAbs < infinityPattern := by
  have hvalue : topRank = infinityPattern - 1 := rfl
  have hself : mixture part topRank topRank = topRank := by
    apply mixture_self (by decide)
    exact hpart.imp_right (.imp_left fun htwo => ⟨htwo, even_units_topRank⟩)
  have habove : mixture part low high ≤ topRank :=
    (mixture_mono part (by omega) (by omega)).trans_eq hself
  have hbelow : -topRank ≤ mixture part low high := by
    rw [← hself, ← mixture_neg]
    exact mixture_mono part (by omega) (by omega)
  omega

end Self

/-! ## Two samples -/

theorem abs_sub_units_share_one {rank : Int} (hrank : rank.natAbs < infinityPattern) :
    |(units rank : ℚ) / 4 - units (share 1 rank)| ≤ 1 / 2 := by
  have hexact : (units rank * ((1 : Nat) / 4) : ℚ) = units rank / 4 := by
    push_cast
    ring
  have hfinite := (@natAbs_share_le 1 rank (by decide) hrank.le).trans_lt hrank
  rw [share, hexact] at hfinite ⊢
  by_cases hsmall : |(units rank : ℚ) / 4| < 2 ^ 53 * 2 ^ 0
  · simpa using abs_sub_units_rounded_le hsmall hfinite
  · have hlarge : (2 ^ 52 * 2 ^ 2 : Int) ≤ |units rank| := by
      rw [abs_div, abs_of_pos (show (0 : ℚ) < 4 by norm_num), not_lt,
        le_div_iff₀ (by norm_num), ← Int.cast_abs] at hsmall
      have hle : (2 ^ 52 * 2 ^ 2 : ℚ) ≤ (|units rank| : Int) := le_trans (by norm_num) hsmall
      exact_mod_cast hle
    have hdvd := dvd_units hlarge
    obtain ⟨quarter, hquarter⟩ := hdvd
    have hdouble : IsDouble quarter := isDouble_of_mul hrank (by rw [hquarter, mul_comm])
    have hvalue : (units rank : ℚ) / 4 = quarter := by
      rw [hquarter]
      push_cast
      ring
    rw [hvalue, hdouble.units_rounded, sub_self, abs_zero]
    norm_num

/-- Two steps up from a double go at least twice as far as the doubles are spaced that
three quarters of it lie among. -/
theorem exists_spacing {low high : Int} (hgap : low + 2 ≤ high) :
    ∃ scale, |(units low : ℚ) * (3 / 4)| < 2 ^ 53 * 2 ^ scale ∧
      units low + 2 * 2 ^ scale ≤ units high := by
  have hsteps : ∀ scale : Nat, (scale = 0 ∨ (scale * fractionSize + 2 ^ 52 : Nat) ≤ low ∨
      low + 1 < -(scale * fractionSize + 2 ^ 52 : Nat)) →
      units low + 2 * 2 ^ scale ≤ units high := by
    intro scale hscale
    have hfirst := @units_add_le scale low (by omega)
    have hsecond := @units_add_le scale (low + 1) (by omega)
    have hrest := units_strictMono.monotone (show low + 1 + 1 ≤ high by omega)
    omega
  obtain ⟨scale, mantissa, hpattern, hmantissa, hscale⟩ := exists_scale_mantissa low.natAbs
  have hvalue : |(units low : ℚ) * (3 / 4)| = 3 * mantissa / 4 * 2 ^ scale := by
    have habs := scaled_natAbs low
    rw [hpattern, scaled_add hmantissa.le hscale] at habs
    rw [abs_mul, ← Int.cast_abs, ← habs, abs_of_pos (by norm_num)]
    push_cast
    ring
  have hpower : (0 : ℚ) < 2 ^ scale := by positivity
  have hthree : (3 * mantissa / 4 : ℚ) < 2 ^ 53 := by
    have : (mantissa : ℚ) < 2 ^ 53 := by exact_mod_cast hmantissa
    linarith
  rcases Int.le_total 0 low with hnonneg | hneg
  · refine ⟨scale, ?_, hsteps scale (by omega)⟩
    rw [hvalue]
    exact mul_lt_mul_of_pos_right hthree hpower
  · by_cases hfine : scale ≠ 0 ∧ 3 * mantissa < 2 ^ 54
    · have hbelow := hfine.2
      obtain ⟨finer, rfl⟩ : ∃ finer, scale = finer + 1 := ⟨scale - 1, by omega⟩
      refine ⟨finer, ?_, hsteps finer ?_⟩
      · have hthree : (3 * mantissa / 2 : ℚ) < 2 ^ 53 := by
          have : (3 * mantissa : ℚ) < 2 ^ 54 := by exact_mod_cast hbelow
          linarith
        calc |(units low : ℚ) * (3 / 4)| = 3 * mantissa / 2 * 2 ^ finer := by
              rw [hvalue, pow_succ]
              ring
          _ < 2 ^ 53 * 2 ^ finer := by gcongr
      · simp only [fractionSize] at *
        omega
    · refine ⟨scale, ?_, hsteps scale ?_⟩
      · rw [hvalue]
        exact mul_lt_mul_of_pos_right hthree hpower
      · simp only [fractionSize] at *
        omega

/-- What is lost of three quarters of the lower double is less than half of what the two
doubles are apart, if there is another double between them. -/
theorem mixture_one_le_two {low high : Int} (hgap : low + 2 ≤ high)
    (hlow : low.natAbs < infinityPattern) (hhigh : high.natAbs < infinityPattern)
    (hlowEven : Even (units low)) (hhighEven : Even (units high)) :
    mixture 1 low high ≤ mixture 2 low high := by
  obtain ⟨scale, hsmall, hapart⟩ := exists_spacing hgap
  have hfinite := (@natAbs_share_le 3 low (by decide) hlow.le).trans_lt hlow
  have hthree : |(units low : ℚ) * (3 / 4) - units (share 3 low)| ≤ 2 ^ scale / 2 :=
    abs_sub_units_rounded_le hsmall hfinite
  have hone := abs_sub_units_share_one hhigh
  have hhalfLow : 2 * (units (share 2 low) : ℚ) = units low := by
    exact_mod_cast two_mul_units_share hlow hlowEven
  have hhalfHigh : 2 * (units (share 2 high) : ℚ) = units high := by
    exact_mod_cast two_mul_units_share hhigh hhighEven
  have hapart' : (units low : ℚ) + 2 * 2 ^ scale ≤ units high := by exact_mod_cast hapart
  have hbound : ((units (share 3 low) + units (share 1 high) : Int) : ℚ) <
      ((units (share 2 low) + units (share 2 high) + 1 : Int) : ℚ) := by
    push_cast
    rw [abs_le] at hthree hone
    linarith
  have hle : units (share 3 low) + units (share 1 high) ≤
      units (share 2 low) + units (share 2 high) := by
    exact Int.lt_add_one_iff.1 (by exact_mod_cast hbound)
  apply rounded_mono
  exact_mod_cast hle

/-- The same from above. -/
theorem mixture_two_le_three {low high : Int} (hgap : low + 2 ≤ high)
    (hlow : low.natAbs < infinityPattern) (hhigh : high.natAbs < infinityPattern)
    (hlowEven : Even (units low)) (hhighEven : Even (units high)) :
    mixture 2 low high ≤ mixture 3 low high := by
  have hswap : ∀ part low high, part ≤ 4 →
      mixture part low high = mixture (4 - part) high low := by
    intro part low high hpart
    rw [mixture, mixture, Nat.sub_sub_self hpart, add_comm]
  have hmirror := @mixture_one_le_two (-high) (-low) (by omega) (by rwa [Int.natAbs_neg])
    (by rwa [Int.natAbs_neg]) (by rwa [units_neg, even_neg]) (by rwa [units_neg, even_neg])
  rw [mixture_neg, mixture_neg, neg_le_neg_iff, hswap 1 high low (by decide),
    hswap 2 high low (by decide)] at hmirror
  exact hmirror

end TimingReport
