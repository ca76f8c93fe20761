import TimingReport.Proofs.Number.Arithmetic
import TimingReport.Proofs.Number.Spacing

/-!
# The numbers that doubles are

A finite double is a rational number, operations give the value nearest to the exact
result, and a double becomes the integer below or above the number that it is.
-/

namespace TimingReport.Number

/-- The number that a finite double is. -/
def toRat (x : Float) : ℚ := units (rank x) * 2 ^ minExponent

/-- A number that a double is. -/
def IsValue (v : ℚ) : Prop := ∃ n : Int, IsDouble n ∧ v = n * 2 ^ minExponent

/-- The number of the double that a number is rounded to. -/
def nearestValue (exact : ℚ) : ℚ := units (rounded (exact / 2 ^ minExponent)) * 2 ^ minExponent

theorem unit_pos : (0 : ℚ) < 2 ^ minExponent := by positivity

theorem rank_ofPattern (negative : Bool) {magnitude : Nat}
    (hmagnitude : magnitude ≤ infinityPattern) :
    rank (ofPattern negative magnitude) = (signOf negative).apply magnitude := by
  apply rank_of_toNat
  · rw [toNat_toBits_ofPattern negative hmagnitude]
    cases negative with
    | false => exact (Nat.zero_add _).symm
    | true => rfl
  · exact hmagnitude.trans_lt (by decide)

theorem value?_eq_toRat {x : Float} (hx : isFinite x = true) : value? x = some (toRat x) := by
  obtain ⟨value, hvalue⟩ := Option.isSome_iff_exists.1 ((isFinite_iff_value? x).1 hx)
  obtain ⟨magnitude, hmagnitude, hpattern⟩ := exists_ofPattern hvalue
  rw [hpattern, value?_ofPattern _ hmagnitude, toRat, rank_ofPattern _ hmagnitude.le, units_apply,
    units_natCast, magnitudeValue]
  cases isNegative x <;> simp [signed]

section Values

variable {v exact : ℚ}

theorem nearestValue_mono : Monotone nearestValue := by
  intro left right hle
  have hunits := units_strictMono.monotone
    (rounded_mono (div_le_div_of_nonneg_right hle unit_pos.le))
  apply mul_le_mul_of_nonneg_right _ unit_pos.le
  exact_mod_cast hunits

theorem isValue_nearestValue (exact : ℚ) : IsValue (nearestValue exact) :=
  ⟨_, ⟨_, natAbs_rounded_le _, rfl⟩, rfl⟩

theorem IsValue.nearestValue_eq (hv : IsValue v) : nearestValue v = v := by
  obtain ⟨n, hn, rfl⟩ := hv
  rw [nearestValue, mul_div_cancel_right₀ _ unit_pos.ne', hn.units_rounded]

theorem IsValue.le_nearestValue (hv : IsValue v) (hle : v ≤ exact) : v ≤ nearestValue exact :=
  hv.nearestValue_eq.ge.trans (nearestValue_mono hle)

theorem IsValue.nearestValue_le (hv : IsValue v) (hle : exact ≤ v) : nearestValue exact ≤ v :=
  (nearestValue_mono hle).trans hv.nearestValue_eq.le

/-- Numbers of 53 bits are values, if their last place is among those of doubles. -/
theorem isValue_mul_zpow {mantissa : Nat} {exponent : Int} (hmantissa : mantissa ≤ 2 ^ 53)
    (hlow : minExponent ≤ exponent) (hhigh : exponent ≤ 971) :
    IsValue (mantissa * 2 ^ exponent) := by
  refine ⟨_, @isDouble_mul_pow mantissa (exponent - minExponent).toNat hmantissa ?_, ?_⟩
  · simp only [minExponent, topScale] at *
    omega
  · have hexponent : exponent = ((exponent - minExponent).toNat : Int) + minExponent := by omega
    conv_lhs => rw [hexponent]
    rw [zpow_add₀ (by norm_num), zpow_natCast]
    push_cast
    ring

theorem isValue_natCast {n : Nat} (hn : n ≤ 2 ^ 53) : IsValue n := by
  have hvalue := @isValue_mul_zpow n 0 hn (by decide) (by decide)
  rwa [zpow_zero, mul_one] at hvalue

/-- A value is a multiple of the spacing at a power of two that it has reached. -/
theorem IsValue.exists_eq_mul {exponent : Int} (hv : IsValue v) (hlow : minExponent ≤ exponent)
    (hlarge : 2 ^ 52 * 2 ^ exponent ≤ v) : ∃ n : Int, v = n * 2 ^ exponent := by
  obtain ⟨n, ⟨rank, hrank, rfl⟩, rfl⟩ := hv
  obtain ⟨scale, hscale⟩ : ∃ scale : Nat, exponent = scale + minExponent :=
    ⟨(exponent - minExponent).toNat, by omega⟩
  have hpower : (2 : ℚ) ^ exponent = 2 ^ scale * 2 ^ minExponent := by
    rw [hscale, zpow_add₀ (by norm_num), zpow_natCast]
  have hunits : (2 ^ 52 * 2 ^ scale : ℚ) ≤ units rank := by
    rw [hpower, ← mul_assoc] at hlarge
    exact le_of_mul_le_mul_right hlarge unit_pos
  have hdvd : (2 : Int) ^ scale ∣ units rank :=
    dvd_units (le_trans (by exact_mod_cast hunits) (le_abs_self _))
  obtain ⟨n, hn⟩ := hdvd
  refine ⟨n, ?_⟩
  rw [hn, hpower]
  push_cast
  ring

/-- From `2 ^ 52` on, values are integers. -/
theorem IsValue.exists_eq_natCast (hv : IsValue v) (hlarge : 2 ^ 52 ≤ v) : ∃ n : Nat, v = n := by
  obtain ⟨n, hn⟩ := @IsValue.exists_eq_mul v 0 hv (by decide) (by rwa [zpow_zero, mul_one])
  rw [zpow_zero, mul_one] at hn
  have hnonneg : 0 ≤ n := by
    have : (0 : ℚ) ≤ n := by linarith
    exact_mod_cast this
  obtain ⟨natural, rfl⟩ := Int.eq_ofNat_of_zero_le hnonneg
  exact ⟨natural, by rw [hn, Int.cast_natCast]⟩

end Values

section Operations

variable {x y : Float}

theorem toRat_mul (hx : isFinite x = true) (hy : isFinite y = true) :
    toRat (x * y) = nearestValue (toRat x * toRat y) := by
  have hexact : toRat x * toRat y / 2 ^ minExponent =
      units (rank x) * units (rank y) * 2 ^ minExponent := by
    rw [toRat, toRat, div_eq_iff unit_pos.ne']
    ring
  rw [nearestValue, hexact, ← rank_mul hx hy, toRat]

theorem toRat_sub (hx : isFinite x = true) (hy : isFinite y = true) :
    toRat (x - y) = nearestValue (toRat x - toRat y) := by
  have hexact : (toRat x - toRat y) / 2 ^ minExponent = units (rank x) - units (rank y) := by
    rw [toRat, toRat, ← sub_mul, mul_div_cancel_right₀ _ unit_pos.ne']
  rw [nearestValue, hexact, ← rank_sub hx hy, toRat]

theorem abs_le_abs_of_units {left right : ℚ}
    (hle : |left * 2 ^ minExponent| ≤ |right * 2 ^ minExponent|) : |left| ≤ |right| := by
  rw [abs_mul, abs_mul] at hle
  exact le_of_mul_le_mul_right hle (abs_pos.2 unit_pos.ne')

/-- A product is finite if a finite double is no smaller. -/
theorem isFinite_mul (hx : isFinite x = true) (hy : isFinite y = true) {z : Float}
    (hz : isFinite z = true) (hle : |toRat x * toRat y| ≤ |toRat z|) :
    isFinite (x * y) = true := by
  have hfinite := isFinite_iff.1 hz
  have hproduct : toRat x * toRat y =
      units (rank x) * units (rank y) * 2 ^ minExponent * 2 ^ minExponent := by
    rw [toRat, toRat]
    ring
  rw [hproduct] at hle
  rw [isFinite_iff, rank_mul hx hy]
  exact (natAbs_rounded_le_natAbs hfinite.le (abs_le_abs_of_units hle)).trans_lt hfinite

theorem isFinite_sub (hx : isFinite x = true) (hy : isFinite y = true) {z : Float}
    (hz : isFinite z = true) (hle : |toRat x - toRat y| ≤ |toRat z|) :
    isFinite (x - y) = true := by
  have hfinite := isFinite_iff.1 hz
  have hdifference : toRat x - toRat y =
      (units (rank x) - units (rank y)) * 2 ^ minExponent := by
    rw [toRat, toRat, sub_mul]
  rw [hdifference] at hle
  rw [isFinite_iff, rank_sub hx hy]
  exact (natAbs_rounded_le_natAbs hfinite.le (abs_le_abs_of_units hle)).trans_lt hfinite

end Operations

/-! ## Integers -/

theorem toRat_ofInteger (n : Nat) : toRat (ofInteger n) = nearestValue n := by
  have hsign : decide ((n : Int) < 0) = false := decide_eq_false (by omega)
  rw [ofInteger, hsign, Int.natAbs_natCast, nearest, toRat,
    rank_ofPattern _ (nearestPattern_le _ _), nearestPattern_eq n one_pos, apply_signOf_false,
    nearestValue, rounded_of_nonneg (by positivity), Nat.cast_one, div_one]

theorem ceil_natCast_div (num : Nat) {den : Nat} (hden : 0 < den) :
    ⌈(num / den : ℚ)⌉ = (if num % den = 0 then num / den else num / den + 1 : Nat) := by
  have hpositive : (0 : ℚ) < den := by exact_mod_cast hden
  have hdivision : (den * (num / den : Nat) + (num % den : Nat) : ℚ) = num := by
    exact_mod_cast Nat.div_add_mod num den
  have hremainder : ((num % den : Nat) : ℚ) < den := by exact_mod_cast Nat.mod_lt num hden
  rw [Int.ceil_eq_iff, lt_div_iff₀ hpositive, div_le_iff₀ hpositive, ← hdivision]
  generalize num / den = quotient at *
  generalize num % den = rest at *
  split
  · next hzero =>
    rw [hzero]
    push_cast
    constructor <;> linarith
  · next hrest =>
    have hrest : (0 : ℚ) < rest := by exact_mod_cast Nat.pos_of_ne_zero hrest
    push_cast
    constructor <;> linarith

/-- Rounding down gives the integer below the number. -/
theorem floor_signed (negative : Bool) (num : Nat) {den : Nat} (hden : 0 < den) :
    Direction.down.round negative num den = ⌊signed negative (num / den)⌋ := by
  cases negative with
  | false => exact (Rat.floor_natCast_div_natCast num den).symm
  | true =>
    rw [signed, if_pos rfl, Int.floor_neg, ceil_natCast_div num hden]
    rfl

theorem ceil_signed (negative : Bool) (num : Nat) {den : Nat} (hden : 0 < den) :
    Direction.up.round negative num den = ⌈signed negative (num / den)⌉ := by
  cases negative with
  | false => exact (ceil_natCast_div num hden).symm
  | true =>
    rw [signed, if_pos rfl, Int.ceil_neg, Rat.floor_natCast_div_natCast]
    rfl

/-- The sign and the quotient that a finite double becomes an integer from. -/
theorem exists_quotient {x : Float} (hx : isFinite x = true) :
    ∃ (negative : Bool) (num den : Nat), 0 < den ∧ toRat x = signed negative (num / den) ∧
      ∀ direction low high, clampedInteger direction low high x =
        max low (min high (direction.round negative num den)) := by
  have hvalue := value?_eq_toRat hx
  rw [value?] at hvalue
  cases hparts : parts x with
  | nan => rw [hparts] at hvalue; cases hvalue
  | infinite negative => rw [hparts] at hvalue; cases hvalue
  | finite negative mantissa exponent =>
    rw [hparts, Parts.value?, Option.some.injEq] at hvalue
    refine ⟨negative, mantissa * 2 ^ exponent.toNat, 2 ^ (-exponent).toNat, Nat.two_pow_pos _, ?_,
      fun direction low high => ?_⟩
    · rw [← hvalue, ← pow_toNat_div]
      push_cast
      rw [mul_div_assoc]
    · rw [clampedInteger, hparts]
      rfl

theorem clampedInteger_down {x : Float} (hx : isFinite x = true) (low high : Int) :
    clampedInteger .down low high x = max low (min high ⌊toRat x⌋) := by
  obtain ⟨negative, num, den, hden, hvalue, hclamped⟩ := exists_quotient hx
  rw [hclamped, hvalue, floor_signed negative num hden]

theorem clampedInteger_up {x : Float} (hx : isFinite x = true) (low high : Int) :
    clampedInteger .up low high x = max low (min high ⌈toRat x⌉) := by
  obtain ⟨negative, num, den, hden, hvalue, hclamped⟩ := exists_quotient hx
  rw [hclamped, hvalue, ceil_signed negative num hden]

end TimingReport.Number
