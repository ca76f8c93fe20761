import TimingReport.Proofs.Box.Order
import TimingReport.Proofs.Number.Infinite

/-!
# Two samples far apart

Every operation on the way from two samples to the reach of their whiskers is off by at most
half a spacing.  If the samples are many spacings apart, the whiskers reach beyond them.
-/

namespace TimingReport

open Number
open BoxSummary (whiskerReach)

/-! ## Doubles many steps apart -/

theorem units_add_mul_le {scale steps : Nat} {rank : Int} (hrank : scale = 0 ∨
    (scale * fractionSize + 2 ^ 52 : Nat) ≤ rank ∨
      rank + steps ≤ -(scale * fractionSize + 2 ^ 52 : Nat)) :
    units rank + steps * 2 ^ scale ≤ units (rank + steps) := by
  induction steps with
  | zero => simp
  | succ steps ih =>
    have hbelow := ih (by omega)
    have hstep := @units_add_le scale (rank + steps) (by omega)
    rw [Nat.cast_succ, ← add_assoc]
    linarith

/-- Doubles at least 64 steps apart differ by 32 of the spacings that both of them lie
among.  The spacing may halve once on the way. -/
theorem exists_spacing_of_far {low high : Int} (hgap : low + 64 ≤ high) :
    ∃ scale, |units low| < 2 ^ 53 * 2 ^ scale ∧ |units high| < 2 ^ 53 * 2 ^ scale ∧
      units low + 32 * 2 ^ scale ≤ units high := by
  obtain ⟨scale, mantissa, hpattern, hmantissa, hscale⟩ :=
    exists_scale_mantissa (max low.natAbs high.natAbs)
  have hsmall : ∀ rank : Int, rank.natAbs ≤ max low.natAbs high.natAbs →
      |units rank| < 2 ^ 53 * 2 ^ scale := by
    intro rank hle
    have hscaled := scaled_strictMono.monotone hle
    rw [hpattern, scaled_add hmantissa.le hscale] at hscaled
    rw [← scaled_natAbs]
    calc (scaled rank.natAbs : Int) ≤ (mantissa * 2 ^ scale : Nat) := by exact_mod_cast hscaled
      _ < 2 ^ 53 * 2 ^ scale := by
        exact_mod_cast Nat.mul_lt_mul_of_pos_right hmantissa (Nat.two_pow_pos scale)
  refine ⟨scale, hsmall low (le_max_left _ _), hsmall high (le_max_right _ _), ?_⟩
  cases scale with
  | zero =>
    have hsteps := @units_add_mul_le 0 64 low (.inl rfl)
    have hrest := units_strictMono.monotone hgap
    push_cast at hsteps
    omega
  | succ finer =>
    rw [pow_succ']
    simp only [fractionSize] at hpattern
    rcases le_total low.natAbs high.natAbs with hhigh | hlow
    · have hsteps := @units_add_mul_le finer 64 (high - 64)
        (.inr (.inl (by simp only [fractionSize]; omega)))
      have hrest := units_strictMono.monotone (show low ≤ high - 64 by omega)
      push_cast at hsteps
      rw [sub_add_cancel] at hsteps
      omega
    · have hsteps := @units_add_mul_le finer 64 low
        (.inr (.inr (by simp only [fractionSize]; omega)))
      have hrest := units_strictMono.monotone hgap
      push_cast at hsteps
      omega

/-! ## Errors of quartiles and of their reach -/

section Errors

variable {part scale : Nat} {low high : Int}

theorem abs_sub_units_share_le {rank : Int} (hpart : part ≤ 4)
    (hrank : rank.natAbs < infinityPattern) (hsmall : |units rank| < 2 ^ 53 * 2 ^ scale) :
    |(units rank * (part / 4) : ℚ) - units (share part rank)| ≤ 2 ^ scale / 2 := by
  have hfinite := (natAbs_share_le hpart hrank.le).trans_lt hrank
  apply abs_sub_units_rounded_le _ hfinite
  have hquarters : (part : ℚ) / 4 ≤ 1 := by
    rw [div_le_one (by norm_num)]
    exact_mod_cast hpart
  rw [abs_mul, abs_of_nonneg (show (0 : ℚ) ≤ part / 4 by positivity)]
  calc |(units rank : ℚ)| * (part / 4) ≤ |(units rank : ℚ)| :=
        mul_le_of_le_one_right (abs_nonneg _) hquarters
    _ < 2 ^ 53 * 2 ^ scale := by exact_mod_cast hsmall

theorem abs_units_share_le {rank : Int} (hpart : part ≤ 4)
    (hrank : rank.natAbs < infinityPattern) : |units (share part rank)| ≤ |units rank| := by
  rw [← scaled_natAbs, ← scaled_natAbs]
  exact_mod_cast scaled_strictMono.monotone (natAbs_share_le hpart hrank.le)

/-- Both products are off by half a spacing, and their sum may lie where doubles are spaced
twice as far. -/
theorem abs_sub_units_mixture_le (hpart : part = 1 ∨ part = 2 ∨ part = 3)
    (hlow : low.natAbs < infinityPattern) (hhigh : high.natAbs < infinityPattern)
    (hlowSmall : |units low| < 2 ^ 53 * 2 ^ scale)
    (hhighSmall : |units high| < 2 ^ 53 * 2 ^ scale) :
    |(units low * ((4 - part : Nat) / 4) + units high * (part / 4) : ℚ) -
      units (mixture part low high)| ≤ 2 * 2 ^ scale := by
  have hrest : 4 - part ≤ 4 := Nat.sub_le 4 part
  have hle : part ≤ 4 := by omega
  have hfirst := abs_sub_units_share_le hrest hlow hlowSmall
  have hsecond := abs_sub_units_share_le hle hhigh hhighSmall
  have hsmall : |units (share (4 - part) low) + units (share part high)| <
      2 ^ 53 * 2 ^ (scale + 1) := by
    have hfirstSmall := abs_units_share_le hrest hlow
    have hsecondSmall := abs_units_share_le hle hhigh
    have hsum := abs_add_le (units (share (4 - part) low)) (units (share part high))
    rw [pow_succ]
    omega
  have hsum := abs_sub_units_rounded_le (by exact_mod_cast hsmall)
    (natAbs_mixture_lt hlow hhigh hpart)
  rw [pow_succ, mul_div_cancel_right₀ _ (by norm_num : (2 : ℚ) ≠ 0), ← mixture] at hsum
  rw [abs_le] at *
  constructor <;> linarith

theorem isFinite_whiskerReach : isFinite whiskerReach = true := rfl

theorem rank_whiskerReach_pos : 0 < rank whiskerReach := by decide +kernel

theorem toRat_whiskerReach : toRat whiskerReach = 3 / 2 := by
  rw [@toRat_of_rank _ 1022 (3 * 2 ^ 51) rfl (by decide) (.inr (by decide)),
    minExponent]
  norm_num

/-- The whiskers of a box may reach a number that is not negative. -/
theorem nonNegative_reach {q1 q3 : Float} (hq1 : isFinite q1 = true) (hq3 : isFinite q3 = true)
    (hle : rank q1 ≤ rank q3) : NonNegative (whiskerReach * (q3 - q1)) :=
  .mul isFinite_whiskerReach rank_whiskerReach_pos (nonNegative_sub hq1 hq3 hle)

/-- What the reach of the whiskers falls short by, unless it is infinite. -/
theorem le_units_reach {q1 q3 : Float} (hq1 : isFinite q1 = true) (hq3 : isFinite q3 = true)
    (hq1Small : |units (rank q1)| < 2 ^ 53 * 2 ^ scale)
    (hq3Small : |units (rank q3)| < 2 ^ 53 * 2 ^ scale)
    (hfinite : isFinite (whiskerReach * (q3 - q1)) = true) :
    (3 / 2 * (units (rank q3) - units (rank q1)) - 7 / 2 * 2 ^ scale : ℚ) ≤
      units (rank (whiskerReach * (q3 - q1))) := by
  have hrange := (isFinite_of_isFinite_mul hfinite).2
  have hpower : (0 : ℚ) < 2 ^ scale := by positivity
  have hq1Cast : |(units (rank q1) : ℚ)| < 2 ^ 53 * 2 ^ scale := by exact_mod_cast hq1Small
  have hq3Cast : |(units (rank q3) : ℚ)| < 2 ^ 53 * 2 ^ scale := by exact_mod_cast hq3Small
  have hdouble : (2 : ℚ) ^ (scale + 1) = 2 * 2 ^ scale := pow_succ' 2 scale
  have hfourfold : (2 : ℚ) ^ (scale + 2) = 4 * 2 ^ scale := by ring
  have hsub := rank_sub hq3 hq1
  have hmul := rank_mul isFinite_whiskerReach hrange
  rw [mul_right_comm, ← toRat, toRat_whiskerReach] at hmul
  rw [isFinite_iff] at hrange hfinite
  rw [abs_lt] at hq1Cast hq3Cast
  have hsubError := @abs_sub_units_rounded_le (units (rank q3) - units (rank q1)) (scale + 1)
    (by rw [abs_lt, hdouble]; constructor <;> linarith) (by rwa [← hsub])
  rw [← hsub, hdouble, abs_le] at hsubError
  have hmulError := @abs_sub_units_rounded_le (3 / 2 * units (rank (q3 - q1))) (scale + 2)
    (by rw [abs_lt, hfourfold]; constructor <;> linarith) (by rwa [← hmul])
  rw [← hmul, hfourfold, abs_le] at hmulError
  linarith

/-- The quartiles of two samples are a quarter of what these differ by inside them, and the
whiskers may reach three quarters. -/
theorem fences_of_far {low high q1 q3 : Float} (hlow : isFinite low = true)
    (hhigh : isFinite high = true) (hgap : rank low + 64 ≤ rank high)
    (hq1 : isFinite q1 = true) (hq3 : isFinite q3 = true)
    (hq1Rank : rank q1 = mixture 1 (rank low) (rank high))
    (hq3Rank : rank q3 = mixture 3 (rank low) (rank high)) :
    q1 - whiskerReach * (q3 - q1) ≤ low ∧ high ≤ q3 + whiskerReach * (q3 - q1) := by
  obtain ⟨scale, hlowSmall, hhighSmall, hapart⟩ := exists_spacing_of_far hgap
  have hlowRank := isFinite_iff.1 hlow
  have hhighRank := isFinite_iff.1 hhigh
  have hpower : (0 : ℚ) < 2 ^ scale := by positivity
  have hapart' : (units (rank low) + 32 * 2 ^ scale : ℚ) ≤ units (rank high) := by
    exact_mod_cast hapart
  have hq1Error := abs_sub_units_mixture_le (.inl rfl) hlowRank hhighRank hlowSmall hhighSmall
  have hq3Error := abs_sub_units_mixture_le (.inr (.inr rfl)) hlowRank hhighRank hlowSmall
    hhighSmall
  rw [← hq1Rank, abs_le] at hq1Error
  rw [← hq3Rank, abs_le] at hq3Error
  push_cast at hq1Error hq3Error
  have hbetween : ∀ {q : Float} {part : Nat}, rank q = mixture part (rank low) (rank high) →
      part = 1 ∨ part = 3 → |units (rank q)| < 2 ^ 53 * 2 ^ scale := by
    intro q part hq hpart
    obtain ⟨hbelow, habove⟩ := @mixture_mem part _ _ (by omega) hlowRank hhighRank (by tauto)
    rw [← hq] at hbelow habove
    have hbelow := units_strictMono.monotone hbelow
    have habove := units_strictMono.monotone habove
    rw [abs_lt] at *
    omega
  have hle : rank q1 ≤ rank q3 := by
    rw [← units_strictMono.le_iff_le]
    have hcast : (units (rank q1) : ℚ) ≤ units (rank q3) := by linarith
    exact_mod_cast hcast
  have hreach := nonNegative_reach hq1 hq3 hle
  have hshort := le_units_reach hq1 hq3 (hbetween hq1Rank (.inl rfl)) (hbetween hq3Rank (.inr rfl))
  constructor
  · apply hreach.sub_le_of_units_le hq1 hlow
    intro hfinite
    linarith [hshort hfinite]
  · apply hreach.le_add_of_units_le hq3 hhigh
    intro hfinite
    linarith [hshort hfinite]

end Errors

end TimingReport
