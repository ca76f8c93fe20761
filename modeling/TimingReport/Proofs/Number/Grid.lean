import Mathlib.Algebra.Order.Field.Power
import Mathlib.Algebra.Order.Field.Rat
import Mathlib.Algebra.Ring.Parity
import Mathlib.Tactic.FieldSimp
import Mathlib.Tactic.Linarith
import Mathlib.Tactic.Ring
import TimingReport.Number.Binary64

/-!
# Rounding to the grid of doubles

The smallest positive double divides all others, so the magnitudes are natural
numbers of it.  Between two powers of two they are evenly spaced, and below the lower
one only finer, so the multiple that is nearest to a quotient there is nearest among
all magnitudes.  The pattern numbers the magnitudes, with no end: infinity
is the pattern where rounding has reached `2 ^ 1024`.
-/

namespace TimingReport.Number

/-- The magnitude of a pattern in units of the smallest positive double. -/
def scaled (pattern : Nat) : Nat :=
  (magnitudeParts pattern).1 * 2 ^ ((magnitudeParts pattern).2 - minExponent).toNat

/-- A pattern is taken apart into the mantissa and the spacing that it is made of. -/
theorem magnitudeParts_add {scale mantissa : Nat} (hmantissa : mantissa < 2 ^ 53)
    (hscale : scale = 0 ∨ 2 ^ 52 ≤ mantissa) :
    magnitudeParts (scale * fractionSize + mantissa) = (mantissa, minExponent + scale) := by
  rw [magnitudeParts]
  rcases Nat.lt_or_ge mantissa (2 ^ 52) with hsmall | hlarge
  · obtain rfl : scale = 0 := by omega
    have hfield : (0 * fractionSize + mantissa) / fractionSize = 0 := by
      simp only [fractionSize]; omega
    have hfraction : (0 * fractionSize + mantissa) % fractionSize = mantissa := by
      simp only [fractionSize]; omega
    simp only [hfield, hfraction]
    simp
  · have hfield : (scale * fractionSize + mantissa) / fractionSize = scale + 1 := by
      simp only [fractionSize]; omega
    have hfraction :
        fractionSize + (scale * fractionSize + mantissa) % fractionSize = mantissa := by
      simp only [fractionSize]; omega
    have hexponent : ((scale + 1 : Nat) : Int) - 1075 = minExponent + scale := by
      simp only [minExponent]; omega
    simp only [hfield, hfraction, hexponent]
    rw [if_neg (Nat.succ_ne_zero scale)]

/-- The pattern of the number `mantissa · 2 ^ scale`; a mantissa that has reached the
next power of two carries over. -/
theorem scaled_add {scale mantissa : Nat} (hmantissa : mantissa ≤ 2 ^ 53)
    (hscale : scale = 0 ∨ 2 ^ 52 ≤ mantissa) :
    scaled (scale * fractionSize + mantissa) = mantissa * 2 ^ scale := by
  have hspacing : ∀ scale : Nat, (minExponent + scale - minExponent).toNat = scale :=
    fun scale => by
    rw [add_sub_cancel_left, Int.toNat_natCast]
  rcases hmantissa.lt_or_eq with hbelow | rfl
  · rw [scaled, magnitudeParts_add hbelow hscale, hspacing]
  · have hcarry : scale * fractionSize + 2 ^ 53 = (scale + 1) * fractionSize + 2 ^ 52 := by
      simp only [fractionSize]; omega
    rw [hcarry, scaled, magnitudeParts_add (by norm_num) (.inr le_rfl), hspacing, pow_succ]
    ring

theorem exists_scale_mantissa (pattern : Nat) :
    ∃ scale mantissa, pattern = scale * fractionSize + mantissa ∧ mantissa < 2 ^ 53 ∧
      (scale = 0 ∨ 2 ^ 52 ≤ mantissa) := by
  refine ⟨pattern / fractionSize - 1, pattern - (pattern / fractionSize - 1) * fractionSize,
    ?_, ?_, ?_⟩ <;> simp only [fractionSize] <;> omega

/-- Patterns are in the order of their values. -/
theorem scaled_strictMono : StrictMono scaled := by
  refine strictMono_nat_of_lt_succ fun pattern => ?_
  obtain ⟨scale, mantissa, rfl, hmantissa, hscale⟩ := exists_scale_mantissa pattern
  rw [scaled_add hmantissa.le hscale, Nat.add_assoc, scaled_add (by omega) (by omega)]
  exact Nat.mul_lt_mul_of_pos_right (Nat.lt_succ_self mantissa) (Nat.two_pow_pos scale)

/-! ## Rounding to the multiples of a unit -/

theorem abs_sub_mul (exact number : ℚ) {unit : ℚ} (hunit : 0 < unit) :
    |exact - number * unit| = |exact / unit - number| * unit := by
  rw [← abs_of_pos hunit, ← abs_mul, sub_mul, abs_of_pos hunit, div_mul_cancel₀ _ hunit.ne']

/-- An integer within one half of a number is nearest to it, and only a number half
way between two integers has two. -/
theorem nearest_integer {exact : ℚ} {near : Int} (hnear : |exact - near| ≤ 1 / 2)
    {other : Int} (hother : other ≠ near) :
    |exact - near| ≤ |exact - other| ∧
      (|exact - near| = |exact - other| → |exact - near| = 1 / 2) := by
  have hdistance : (1 : ℚ) ≤ |(other : ℚ) - near| := by
    have hint : (1 : Int) ≤ |other - near| := Int.one_le_abs (sub_ne_zero.2 hother)
    exact_mod_cast hint
  have htriangle : |(other : ℚ) - near| ≤ |exact - near| + |exact - other| := by
    have h := abs_sub_le (other : ℚ) exact near
    rw [abs_sub_comm (other : ℚ) exact] at h
    linarith
  exact ⟨by linarith, fun htie => by linarith⟩

theorem abs_sub_roundDiv_le (tie : Tie) (num : Nat) {den : Nat} (hden : 0 < den) :
    |(num : ℚ) / den - roundDiv tie num den| ≤ 1 / 2 := by
  have hpositive : (0 : ℚ) < den := by exact_mod_cast hden
  have habove : (2 * (roundDiv tie num den * den) : ℚ) ≤ 2 * num + den := by
    exact_mod_cast roundDiv_mul_le tie num den
  have hbelow : (2 * num : ℚ) ≤ 2 * (roundDiv tie num den * den) + den := by
    exact_mod_cast le_roundDiv_mul tie num den hden
  rw [abs_sub_le_iff]
  constructor
  · rw [sub_le_iff_le_add, div_le_iff₀ hpositive]
    linarith
  · rw [sub_le_comm, le_div_iff₀ hpositive]
    linarith

/-- A quotient half way between two integers is rounded to the even one. -/
theorem even_roundDiv_of_tie {num den : Nat} (hden : 0 < den)
    (htie : |(num : ℚ) / den - roundDiv .toEven num den| = 1 / 2) :
    Even (roundDiv .toEven num den) := by
  have hpositive : (0 : ℚ) < den := by exact_mod_cast hden
  have hhalf : 2 * num = 2 * (roundDiv .toEven num den * den) + den ∨
      2 * num + den = 2 * (roundDiv .toEven num den * den) := by
    rcases (abs_eq (by norm_num)).1 htie with h | h
    · left
      rw [sub_eq_iff_eq_add, div_eq_iff hpositive.ne'] at h
      have hscaled : (2 * num : ℚ) = 2 * (roundDiv .toEven num den * den) + den := by
        linarith
      exact_mod_cast hscaled
    · right
      rw [sub_eq_iff_eq_add, div_eq_iff hpositive.ne'] at h
      have hscaled : (2 * num + den : ℚ) = 2 * (roundDiv .toEven num den * den) := by
        linarith
      exact_mod_cast hscaled
  have hdivision := Nat.div_add_mod num den
  have hremainder := Nat.mod_lt num hden
  have hfloor : num / den * den = den * (num / den) := Nat.mul_comm _ _
  have hceiling : (num / den + 1) * den = den * (num / den) + den := by
    rw [Nat.add_mul, Nat.one_mul, Nat.mul_comm]
  rw [roundDiv] at hhalf ⊢
  split_ifs at hhalf ⊢
  · omega
  · omega
  · rw [Nat.even_iff]
    omega

/-! ## The position of a quotient -/

theorem atLeastPowerOfTwo_iff (k : Int) (num : Nat) {den : Nat} (hden : 0 < den) :
    atLeastPowerOfTwo k num den = true ↔ (2 : ℚ) ^ k ≤ num / den := by
  have hpositive : (0 : ℚ) < den := by exact_mod_cast hden
  rw [atLeastPowerOfTwo, decide_eq_true_iff, le_div_iff₀ hpositive]
  simp only [Nat.pow_eq]
  rcases Int.le_total 0 k with h | h
  · obtain ⟨n, rfl⟩ := Int.eq_ofNat_of_zero_le h
    rw [Int.toNat_natCast, Int.toNat_neg_natCast, zpow_natCast, mul_comm]
    norm_cast
    simp
  · obtain ⟨n, hn⟩ := Int.eq_ofNat_of_zero_le (Int.neg_nonneg_of_nonpos h)
    obtain rfl : k = -(n : Int) := by omega
    rw [neg_neg, Int.toNat_natCast, Int.toNat_neg_natCast, zpow_neg, zpow_natCast,
      inv_mul_le_iff₀ (by positivity), mul_comm (2 ^ n : ℚ)]
    norm_cast
    simp

theorem two_zpow_le_div {num den : Nat} (hnum : num ≠ 0) (hden : 0 < den) :
    (2 : ℚ) ^ ((num.log2 : Int) - den.log2 - 1) ≤ num / den ∧
      (num / den : ℚ) < 2 ^ ((num.log2 : Int) - den.log2 + 1) := by
  have hpositive : (0 : ℚ) < den := by exact_mod_cast hden
  have hnumLow : (2 ^ num.log2 : ℚ) ≤ num := by exact_mod_cast Nat.log2_self_le hnum
  have hnumHigh : (num : ℚ) < 2 ^ (num.log2 + 1) := by exact_mod_cast Nat.lt_log2_self
  have hdenLow : (2 ^ den.log2 : ℚ) ≤ den := by exact_mod_cast Nat.log2_self_le hden.ne'
  have hdenHigh : (den : ℚ) < 2 ^ (den.log2 + 1) := by exact_mod_cast Nat.lt_log2_self
  have htwo : (2 : ℚ) ≠ 0 := by norm_num
  constructor
  · rw [le_div_iff₀ hpositive]
    calc (2 : ℚ) ^ ((num.log2 : Int) - den.log2 - 1) * den
        ≤ 2 ^ ((num.log2 : Int) - den.log2 - 1) * 2 ^ (den.log2 + 1) := by gcongr
      _ = 2 ^ num.log2 := by
        rw [← zpow_natCast, ← zpow_natCast, ← zpow_add₀ htwo]
        congr 1
        push_cast
        ring
      _ ≤ num := hnumLow
  · rw [div_lt_iff₀ hpositive]
    calc (num : ℚ) < 2 ^ (num.log2 + 1) := hnumHigh
      _ = 2 ^ ((num.log2 : Int) - den.log2 + 1) * 2 ^ den.log2 := by
        rw [← zpow_natCast, ← zpow_natCast, ← zpow_add₀ htwo]
        congr 1
        push_cast
        ring
      _ ≤ 2 ^ ((num.log2 : Int) - den.log2 + 1) * den := by gcongr

/-- A positive quotient lies from its power of two up to below the next. -/
theorem floorLogTwo_spec {num den : Nat} (hnum : num ≠ 0) (hden : 0 < den) :
    (2 : ℚ) ^ floorLogTwo num den ≤ num / den ∧
      (num / den : ℚ) < 2 ^ (floorLogTwo num den + 1) := by
  obtain ⟨hlow, hhigh⟩ := two_zpow_le_div hnum hden
  rw [floorLogTwo]
  split
  · next hguess => exact ⟨(atLeastPowerOfTwo_iff _ _ hden).1 hguess, hhigh⟩
  · next hguess =>
    rw [atLeastPowerOfTwo_iff _ _ hden, not_le] at hguess
    rw [sub_add_cancel]
    exact ⟨hlow, hguess⟩

theorem pow_toNat_div (base : ℚ) (exponent : Int) :
    base ^ exponent.toNat / base ^ (-exponent).toNat = base ^ exponent := by
  rcases Int.le_total 0 exponent with h | h
  · obtain ⟨n, rfl⟩ := Int.eq_ofNat_of_zero_le h
    simp
  · obtain ⟨n, hn⟩ := Int.eq_ofNat_of_zero_le (Int.neg_nonneg_of_nonpos h)
    obtain rfl : exponent = -(n : Int) := by omega
    simp

/-- The scale of the largest finite magnitudes. -/
def topScale : Nat := 2045

/-- A number, in units of the smallest positive double, and the multiple of `2 ^ scale`
that it is rounded to.  The number lies where doubles are spaced by that unit. -/
structure RoundsTo (exact : ℚ) (scale mantissa : Nat) : Prop where
  mantissa_le : mantissa ≤ 2 ^ 53
  scale_cases : scale = 0 ∨ 2 ^ 52 ≤ mantissa
  le_exact : scale = 0 ∨ (2 : ℚ) ^ 52 ≤ exact / 2 ^ scale
  exact_lt : exact / 2 ^ scale < 2 ^ 53
  near : |exact / 2 ^ scale - mantissa| ≤ 1 / 2
  even_of_tie : |exact / 2 ^ scale - mantissa| = 1 / 2 → Even mantissa

/-- A number divided by the unit of its spacing. -/
theorem div_spacing (exact : ℚ) {exponent : Int} {scale : Nat}
    (hexponent : exponent = minExponent + scale) :
    exact / 2 ^ minExponent / 2 ^ scale = exact * 2 ^ (-exponent) := by
  rw [hexponent, div_div, ← zpow_natCast (2 : ℚ) scale, ← zpow_add₀ (by norm_num), zpow_neg,
    div_eq_mul_inv]

/-- Below its second power of two a number has less than 54 bits in front of the point
once it is divided by the spacing; it has 53 unless the spacing is the finest one. -/
theorem spacing_spec {exact : ℚ} {floor exponent : Int} {scale : Nat} (hlow : 2 ^ floor ≤ exact)
    (hhigh : exact < 2 ^ (floor + 1)) (hexponent : exponent = max (floor - 52) minExponent)
    (hscale : exponent = minExponent + scale) :
    (scale = 0 ∨ (2 : ℚ) ^ 52 ≤ exact / 2 ^ minExponent / 2 ^ scale) ∧
      exact / 2 ^ minExponent / 2 ^ scale < 2 ^ 53 := by
  have hpower : (0 : ℚ) < 2 ^ (-exponent) := by positivity
  rw [div_spacing exact hscale]
  constructor
  · rcases Nat.eq_zero_or_pos scale with hzero | hpositive
    · exact .inl hzero
    · right
      calc (2 : ℚ) ^ 52 = 2 ^ (floor - exponent) := by
            rw [show floor - exponent = (52 : Nat) by omega, zpow_natCast]
        _ = 2 ^ floor * 2 ^ (-exponent) := by
          rw [← zpow_add₀ (by norm_num), sub_eq_add_neg]
        _ ≤ exact * 2 ^ (-exponent) := by gcongr
  · calc exact * 2 ^ (-exponent)
        < 2 ^ (floor + 1) * 2 ^ (-exponent) := by gcongr
      _ = 2 ^ (floor + 1 - exponent) := by
        rw [← zpow_add₀ (by norm_num), sub_eq_add_neg]
      _ ≤ 2 ^ (53 : Int) := zpow_le_zpow_right₀ (by norm_num) (by omega)

theorem RoundsTo.of_near {exact : ℚ} {scale mantissa : Nat}
    (hlow : scale = 0 ∨ (2 : ℚ) ^ 52 ≤ exact / 2 ^ scale) (hhigh : exact / 2 ^ scale < 2 ^ 53)
    (hnear : |exact / 2 ^ scale - mantissa| ≤ 1 / 2)
    (htie : |exact / 2 ^ scale - mantissa| = 1 / 2 → Even mantissa) :
    RoundsTo exact scale mantissa := by
  obtain ⟨hnearLow, hnearHigh⟩ := abs_sub_le_iff.1 hnear
  refine ⟨?_, ?_, hlow, hhigh, hnear, htie⟩
  · have hmantissa : (mantissa : ℚ) < (2 ^ 53 + 1 : Nat) := by
      push_cast
      linarith
    exact Nat.lt_succ_iff.1 (by exact_mod_cast hmantissa)
  · refine hlow.imp id fun hle => ?_
    have hmantissa : ((2 ^ 52 : Nat) : ℚ) < (mantissa + 1 : Nat) := by
      push_cast
      linarith
    exact Nat.lt_succ_iff.1 (by exact_mod_cast hmantissa)

theorem exists_roundsTo (num : Nat) {den : Nat} (hden : 0 < den) :
    ∃ scale mantissa,
      nearestPattern num den = min infinityPattern (scale * fractionSize + mantissa) ∧
      RoundsTo (num / den / 2 ^ minExponent) scale mantissa := by
  rw [nearestPattern]
  split
  · next hzero =>
    subst hzero
    exact ⟨0, 0, by simp, by decide, .inl rfl, .inl rfl, by simp, by simp, by simp⟩
  · next hnum =>
    obtain ⟨hlow, hhigh⟩ := floorLogTwo_spec hnum hden
    simp only [Nat.pow_eq]
    generalize hexponent : max (floorLogTwo num den - 52) minExponent = exponent
    have hscale : exponent = minExponent + (exponent - minExponent).toNat := by omega
    generalize (exponent - minExponent).toNat = scale at hscale ⊢
    have hquotient : (num / den / 2 ^ minExponent / 2 ^ scale : ℚ) =
        (num * 2 ^ (-exponent).toNat : Nat) / (den * 2 ^ exponent.toNat : Nat) := by
      push_cast
      have hpower := pow_toNat_div 2 (-exponent)
      rw [neg_neg] at hpower
      rw [div_spacing _ hscale, mul_div_mul_comm, hpower]
    obtain ⟨habove, hbelow⟩ := spacing_spec hlow hhigh hexponent.symm hscale
    have hunit : 0 < den * 2 ^ exponent.toNat := Nat.mul_pos hden (Nat.two_pow_pos _)
    refine ⟨scale, _, rfl, .of_near habove hbelow ?_ ?_⟩
    · rw [hquotient]
      exact abs_sub_roundDiv_le .toEven _ hunit
    · rw [hquotient]
      exact even_roundDiv_of_tie hunit

/-- A spacing ends where the next coarser one begins. -/
theorem spacing_end_le {finer coarser : Nat} (hfiner : finer < coarser) :
    2 ^ 53 * 2 ^ finer ≤ 2 ^ 52 * 2 ^ coarser := by
  calc 2 ^ 53 * 2 ^ finer = 2 ^ 52 * 2 ^ (finer + 1) := by ring
    _ ≤ 2 ^ 52 * 2 ^ coarser := Nat.mul_le_mul_left _ (Nat.pow_le_pow_right (by norm_num) hfiner)

namespace RoundsTo

variable {exact : ℚ} {scale mantissa : Nat}

theorem minimal_integer (hrounds : RoundsTo exact scale mantissa) (other : Int) :
    |exact / 2 ^ scale - mantissa| ≤ |exact / 2 ^ scale - other| ∧
      (|exact / 2 ^ scale - mantissa| = |exact / 2 ^ scale - other| →
        other = mantissa ∨ Even mantissa) := by
  by_cases hother : other = mantissa
  · subst hother
    exact ⟨le_rfl, fun _ => .inl rfl⟩
  · have hnear : |exact / 2 ^ scale - (mantissa : Int)| ≤ 1 / 2 := hrounds.near
    obtain ⟨hle, htie⟩ := nearest_integer hnear hother
    exact ⟨hle, fun heq => .inr (hrounds.even_of_tie (htie heq))⟩

theorem abs_sub_scaled (hrounds : RoundsTo exact scale mantissa) :
    |exact - scaled (scale * fractionSize + mantissa)| =
      |exact / 2 ^ scale - mantissa| * 2 ^ scale := by
  rw [scaled_add hrounds.mantissa_le hrounds.scale_cases, Nat.cast_mul, Nat.cast_pow,
    Nat.cast_ofNat, abs_sub_mul _ _ (by positivity)]

/-- All finer magnitudes are below the power of two where the spacing begins, so that
power is nearer. -/
theorem lt_of_finer (hrounds : RoundsTo exact scale mantissa) {otherScale otherMantissa : Nat}
    (hfiner : otherScale < scale) (hother : otherMantissa < 2 ^ 53) :
    |exact - scaled (scale * fractionSize + mantissa)| <
      |exact - (otherMantissa * 2 ^ otherScale : Nat)| := by
  have hunit : (0 : ℚ) < 2 ^ scale := by positivity
  have hexact : (2 : ℚ) ^ 52 * 2 ^ scale ≤ exact :=
    (le_div_iff₀ hunit).1 (hrounds.le_exact.resolve_left (by omega))
  have hbelow : otherMantissa * 2 ^ otherScale < 2 ^ 52 * 2 ^ scale := by
    calc otherMantissa * 2 ^ otherScale
        < 2 ^ 53 * 2 ^ otherScale := Nat.mul_lt_mul_of_pos_right hother (by positivity)
      _ ≤ 2 ^ 52 * 2 ^ scale := spacing_end_le hfiner
  have hbelowCast : ((otherMantissa * 2 ^ otherScale : Nat) : ℚ) < 2 ^ 52 * 2 ^ scale := by
    exact_mod_cast hbelow
  have hstart : |exact / 2 ^ scale - mantissa| ≤ |exact / 2 ^ scale - 2 ^ 52| := by
    exact_mod_cast (hrounds.minimal_integer (2 ^ 52 : Nat)).1
  calc |exact - scaled (scale * fractionSize + mantissa)|
      = |exact / 2 ^ scale - mantissa| * 2 ^ scale := hrounds.abs_sub_scaled
    _ ≤ |exact / 2 ^ scale - 2 ^ 52| * 2 ^ scale := mul_le_mul_of_nonneg_right hstart hunit.le
    _ = exact - 2 ^ 52 * 2 ^ scale := by
        rw [← abs_sub_mul _ _ hunit, abs_of_nonneg (sub_nonneg.2 hexact)]
    _ < exact - (otherMantissa * 2 ^ otherScale : Nat) := by linarith
    _ ≤ |exact - (otherMantissa * 2 ^ otherScale : Nat)| := le_abs_self _

/-- No magnitude is nearer, and if another one is as near then this one has the even
pattern. -/
theorem minimal (hrounds : RoundsTo exact scale mantissa) (pattern : Nat) :
    |exact - scaled (scale * fractionSize + mantissa)| ≤ |exact - scaled pattern| ∧
      (|exact - scaled (scale * fractionSize + mantissa)| = |exact - scaled pattern| →
        pattern = scale * fractionSize + mantissa ∨ Even (scale * fractionSize + mantissa)) := by
  obtain ⟨otherScale, otherMantissa, rfl, hotherMantissa, hotherScale⟩ :=
    exists_scale_mantissa pattern
  have hotherScaled := scaled_add hotherMantissa.le hotherScale
  rcases Nat.lt_or_ge otherScale scale with hfiner | hcoarser
  · have hstrict := hrounds.lt_of_finer hfiner hotherMantissa
    rw [← hotherScaled] at hstrict
    exact ⟨hstrict.le, fun heq => absurd heq hstrict.ne⟩
  · -- a coarser magnitude is a multiple of the unit here
    obtain ⟨gap, rfl⟩ := Nat.exists_eq_add_of_le hcoarser
    have hunit : (0 : ℚ) < 2 ^ scale := by positivity
    have hmultiple : (scaled ((scale + gap) * fractionSize + otherMantissa) : ℚ) =
        ((otherMantissa * 2 ^ gap : Nat) : Int) * 2 ^ scale := by
      rw [hotherScaled]
      push_cast
      ring
    obtain ⟨hle, htie⟩ := hrounds.minimal_integer (otherMantissa * 2 ^ gap : Nat)
    rw [hrounds.abs_sub_scaled, hmultiple, abs_sub_mul _ _ hunit]
    refine ⟨mul_le_mul_of_nonneg_right hle hunit.le, fun heq => ?_⟩
    refine (htie (mul_right_cancel₀ hunit.ne' heq)).imp (fun hsame => ?_) fun heven => ?_
    · apply scaled_strictMono.injective
      rw [scaled_add hrounds.mantissa_le hrounds.scale_cases, hotherScaled, ← Int.ofNat.inj hsame]
      ring
    · exact ((show Even fractionSize by decide).mul_left scale).add heven

/-- A mantissa that has not reached the next power of two is rounded from less than half
way to it; the number half way has an odd mantissa below it, so it goes up. -/
theorem mantissa_lt_iff (hrounds : RoundsTo exact scale mantissa) :
    mantissa < 2 ^ 53 ↔ exact / 2 ^ scale < 2 ^ 53 - 1 / 2 := by
  obtain ⟨hlow, hhigh⟩ := abs_sub_le_iff.1 hrounds.near
  constructor
  · intro hlt
    have hcast : (mantissa : ℚ) + 1 ≤ 2 ^ 53 := by exact_mod_cast hlt
    refine lt_of_le_of_ne (by linarith) fun heq => ?_
    have hmax : mantissa = 2 ^ 53 - 1 := by
      have hge : (2 ^ 53 : ℚ) ≤ mantissa + 1 := by linarith
      have hgeNat : 2 ^ 53 ≤ mantissa + 1 := by exact_mod_cast hge
      omega
    have htie : |exact / 2 ^ scale - mantissa| = 1 / 2 := by
      rw [heq, hmax]
      norm_num
    have heven := hrounds.even_of_tie htie
    rw [hmax] at heven
    exact absurd heven (by decide)
  · intro hlt
    have hcast : (mantissa : ℚ) < 2 ^ 53 := by linarith
    exact_mod_cast hcast

/-- Rounding stays below infinity up to half way from the largest finite magnitude to
where the next one would be. -/
theorem lt_infinityPattern_iff (hrounds : RoundsTo exact scale mantissa) :
    scale * fractionSize + mantissa < infinityPattern ↔
      exact < (2 ^ 53 - 1 / 2) * 2 ^ topScale := by
  have hunit : (0 : ℚ) < 2 ^ scale := by positivity
  have htop : topScale = 2045 := rfl
  have hmantissa := hrounds.mantissa_le
  have hnormal := hrounds.scale_cases
  rcases Nat.lt_trichotomy scale topScale with hless | rfl | hgreater
  · have hpattern : scale * fractionSize + mantissa < infinityPattern := by
      simp only [fractionSize, infinityPattern]
      omega
    have hend : (2 ^ 53 * 2 ^ scale : ℚ) ≤ 2 ^ 52 * 2 ^ topScale := by
      exact_mod_cast spacing_end_le hless
    have hbelow : exact < (2 ^ 53 - 1 / 2) * 2 ^ topScale := by
      calc exact < 2 ^ 53 * 2 ^ scale := (div_lt_iff₀ hunit).1 hrounds.exact_lt
        _ ≤ 2 ^ 52 * 2 ^ topScale := hend
        _ ≤ (2 ^ 53 - 1 / 2) * 2 ^ topScale := by
          gcongr
          norm_num
    exact iff_of_true hpattern hbelow
  · have hpattern : topScale * fractionSize + mantissa < infinityPattern ↔ mantissa < 2 ^ 53 := by
      simp only [fractionSize, infinityPattern]
      omega
    rw [hpattern, hrounds.mantissa_lt_iff, div_lt_iff₀ hunit]
  · have hpattern : infinityPattern ≤ scale * fractionSize + mantissa := by
      simp only [fractionSize, infinityPattern]
      omega
    have hend : (2 ^ 53 * 2 ^ topScale : ℚ) ≤ 2 ^ 52 * 2 ^ scale := by
      exact_mod_cast spacing_end_le hgreater
    have habove : (2 ^ 53 - 1 / 2) * 2 ^ topScale ≤ exact := by
      calc (2 ^ 53 - 1 / 2 : ℚ) * 2 ^ topScale ≤ 2 ^ 53 * 2 ^ topScale := by
            gcongr
            norm_num
        _ ≤ 2 ^ 52 * 2 ^ scale := hend
        _ ≤ exact := (le_div_iff₀ hunit).1 (hrounds.le_exact.resolve_left (by omega))
    exact iff_of_false (not_lt.2 hpattern) (not_lt.2 habove)

theorem eq_zero_of_lt_half (hrounds : RoundsTo exact scale mantissa) (hexact : exact < 1 / 2) :
    scale * fractionSize + mantissa = 0 := by
  have hunit : (1 : ℚ) ≤ 2 ^ scale := one_le_pow₀ (by norm_num)
  have hscale : scale = 0 := by
    rcases hrounds.le_exact with h | h
    · exact h
    · rw [le_div_iff₀ (by linarith)] at h
      linarith
  subst hscale
  obtain ⟨hlow, hhigh⟩ := abs_sub_le_iff.1 hrounds.near
  rw [pow_zero, div_one] at hhigh
  have hmantissa : (mantissa : ℚ) < 1 := by linarith
  have hzero : mantissa < 1 := by exact_mod_cast hmantissa
  omega

end RoundsTo

end TimingReport.Number
