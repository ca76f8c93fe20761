import TimingReport.Chart.Axis
import TimingReport.Proofs.Number.Fixed
import TimingReport.Proofs.Number.Integers

/-!
# What the labels of the vertical axis denote

A tick is written as the integer next to it, or from a million on with two digits and a power of
ten.  The number that its label denotes is off by at most half a unit of the last digit, and
labels are in the order of their ticks: the powers of ten, where one way of writing ends and
the next begins, are written without any error.
-/

namespace TimingReport.Chart

open Number

/-! ## Magnitudes -/

/-- What a magnitude is written as. -/
inductive Written (exact : ℚ) : ℚ → Prop where
  | whole {n : Nat} : exact < 10 ^ 6 → IsRounded exact n → Written exact n
  | power {place near : Nat} :
      10 ^ 6 ≤ exact → 10 ^ (place + 1) ≤ exact → exact < 10 ^ (place + 2) →
      IsRounded (exact / 10 ^ place) near → Written exact (near * 10 ^ place)

theorem lt_of_pow_lt_pow {power power' : Nat} (hlt : (10 : ℚ) ^ power < 10 ^ power') :
    power < power' :=
  (pow_lt_pow_iff_right₀ (by norm_num)).1 hlt

namespace Written

variable {exact exact' number number' : ℚ}

theorem nonneg (hwritten : Written exact number) : 0 ≤ number := by
  cases hwritten <;> positivity

theorem eq_zero (hwritten : Written 0 number) : number = 0 := by
  cases hwritten with
  | @whole n _ hrounded =>
    have hle := hrounded.mono (by norm_num) (isRounded_natCast 0)
    rw [Nat.le_zero.1 hle, Nat.cast_zero]
  | power hlarge => norm_num at hlarge

/-- What is below a power of ten is not written as more. -/
theorem le_pow (hwritten : Written exact number) {power : Nat} (hbelow : exact < 10 ^ power) :
    number ≤ 10 ^ power := by
  cases hwritten with
  | @whole n _ hrounded =>
    have hle := hrounded.mono (by exact_mod_cast hbelow.le) (isRounded_natCast (10 ^ power))
    exact_mod_cast hle
  | @power place near _ hlow hhigh hrounded =>
    have hplace := lt_of_pow_lt_pow (hlow.trans_lt hbelow)
    have hnear : (near : ℚ) ≤ 100 := by exact_mod_cast (hrounded.two_digits hlow hhigh).2
    calc (near * 10 ^ place : ℚ) ≤ 100 * 10 ^ place := by gcongr
      _ = 10 ^ (place + 2) := by ring
      _ ≤ 10 ^ power := pow_le_pow_right₀ (by norm_num) hplace

/-- What has reached a power of ten is not written as less. -/
theorem pow_le (hwritten : Written exact number) {power : Nat} (hreached : 10 ^ power ≤ exact) :
    10 ^ power ≤ number := by
  cases hwritten with
  | @whole n _ hrounded =>
    have hle := (isRounded_natCast (10 ^ power)).mono (by exact_mod_cast hreached) hrounded
    exact_mod_cast hle
  | @power place near _ hlow hhigh hrounded =>
    have hplace := lt_of_pow_lt_pow (hreached.trans_lt hhigh)
    have hnear : (10 : ℚ) ≤ near := by exact_mod_cast (hrounded.two_digits hlow hhigh).1
    calc (10 : ℚ) ^ power ≤ 10 ^ (place + 1) := pow_le_pow_right₀ (by norm_num) (by omega)
      _ = 10 * 10 ^ place := pow_succ' 10 place
      _ ≤ near * 10 ^ place := by gcongr

/-- Magnitudes of the same place are rounded to the same units, and others have a power of ten
between them. -/
theorem mono (hle : exact ≤ exact') (hwritten : Written exact number)
    (hwritten' : Written exact' number') : number ≤ number' := by
  -- Carrying over into the next power of ten does not pass it.
  have hbetween : ∀ power : Nat, exact < 10 ^ power → 10 ^ power ≤ exact' → number ≤ number' :=
    fun power hbelow hreached => (hwritten.le_pow hbelow).trans (hwritten'.pow_le hreached)
  cases hwritten with
  | @whole n hsmall hrounded =>
    cases hwritten' with
    | whole _ hrounded' => exact_mod_cast hrounded.mono hle hrounded'
    | power hlarge => exact hbetween 6 hsmall hlarge
  | @power place near hlarge hlow hhigh hrounded =>
    cases hwritten' with
    | whole hsmall => exact absurd (hlarge.trans hle) (not_le.2 hsmall)
    | @power place' near' _ hlow' hhigh' hrounded' =>
      have hplaces := lt_of_pow_lt_pow (hlow.trans_lt (hle.trans_lt hhigh'))
      rcases (show place ≤ place' by omega).eq_or_lt with rfl | hplace
      · have hnear := hrounded.mono (div_le_div_of_nonneg_right hle (by positivity)) hrounded'
        gcongr
      · refine hbetween (place' + 1) (hhigh.trans_le ?_) hlow'
        exact pow_le_pow_right₀ (by norm_num) (by omega)

end Written

/-! ## Signs -/

/-- What a number is written as: a number of the same sign, and zero as zero. -/
structure WrittenAs (value number : ℚ) : Prop where
  of_nonneg : 0 ≤ value → Written value number
  of_nonpos : value ≤ 0 → Written (-value) (-number)

theorem writtenAs_signed (negative : Bool) {exact number : ℚ} (hexact : 0 ≤ exact)
    (hwritten : Written exact number) :
    WrittenAs (signed negative exact) (signed negative number) := by
  have hzero : exact ≤ 0 → Written (-exact) (-number) := by
    intro hnonpos
    obtain rfl := le_antisymm hnonpos hexact
    obtain rfl := hwritten.eq_zero
    rwa [neg_zero]
  cases negative with
  | false => exact ⟨fun _ => hwritten, hzero⟩
  | true => exact ⟨fun hnonneg => hzero (neg_nonneg.1 hnonneg), fun _ => by simpa [signed]⟩

theorem WrittenAs.mono {value value' number number' : ℚ} (hle : value ≤ value')
    (hwritten : WrittenAs value number) (hwritten' : WrittenAs value' number') :
    number ≤ number' := by
  rcases le_total 0 value with hnonneg | hnonpos
  · exact (hwritten.of_nonneg hnonneg).mono hle (hwritten'.of_nonneg (hnonneg.trans hle))
  · have hnumber := hwritten.of_nonpos hnonpos
    rcases le_total value' 0 with hnonpos' | hnonneg'
    · exact neg_le_neg_iff.1
        ((hwritten'.of_nonpos hnonpos').mono (neg_le_neg hle) hnumber)
    · exact (neg_nonneg.1 hnumber.nonneg).trans (hwritten'.of_nonneg hnonneg').nonneg

/-! ## Labels -/

/-- The power of ten that a text ends in, behind the only `e`. -/
def EndsInPower (text : String) (power : Nat) : Prop :=
  ∃ front, 'e' ∉ front ∧ text.toList = front ++ 'e' :: decimalDigits power

theorem toRat_exponentThreshold : toRat exponentThreshold = 10 ^ 6 := by
  have hinteger : exponentThreshold = ofInteger (1000000 : Nat) := rfl
  rw [hinteger, toRat_ofInteger_eq (by norm_num)]
  norm_num

theorem endsInPower_twoDigits (negative : Bool) (n : TwoDigits) :
    EndsInPower (String.ofList (signText negative ++ n.chars)) n.power := by
  have hdigits : ∀ m, 'e' ∉ decimalDigits m := fun m hmem => by
    cases isDecimalDigit_of_mem hmem
  refine ⟨
    signText negative ++ decimalDigits (n.digits / 10) ++ '.' :: decimalDigits (n.digits % 10),
    ?_, ?_⟩
  · have hsign : 'e' ∉ signText negative := by cases negative <;> decide
    simp [hdigits, hsign]
  · rw [String.toList_ofList, TwoDigits.chars]
    simp

/-- The label of a finite tick denotes what the tick is written as.  In front of a power of ten
it has one digit and a second one behind the point, and is off by at most half a unit of that. -/
theorem exists_written {y : Float} (hy : isFinite y = true) :
    ∃ number, DenotesNumber (tickText y) number ∧ WrittenAs (toRat y) number ∧
      (|toRat y| < 10 ^ 6 → |toRat y - number| ≤ 1 / 2) ∧
      (10 ^ 6 ≤ |toRat y| → ∃ power, EndsInPower (tickText y) power ∧
        10 ^ power ≤ |number| ∧ |number| < 10 ^ (power + 1) ∧
        |toRat y - number| ≤ 10 ^ power / 10 / 2) := by
  obtain ⟨negative, num, den, hden, hvalue, hinteger, htwoDigits⟩ := exists_quotient_chars hy
  have hexact : (0 : ℚ) ≤ num / den := by positivity
  have habs : |toRat y| = num / den := by rw [hvalue, abs_signed, abs_of_nonneg hexact]
  have hthreshold : exponentThreshold ≤ y.abs ↔ (10 ^ 6 : ℚ) ≤ num / den := by
    rw [toRat_le_iff rfl (isFinite_abs hy), toRat_exponentThreshold, toRat_abs hy, habs]
  rw [habs, hvalue]
  by_cases hlarge : (10 ^ 6 : ℚ) ≤ num / den
  · have htext : tickText y = String.ofList (signText negative ++ (twoDigits num den).chars) := by
      rw [tickText, if_pos (hthreshold.2 hlarge), htwoDigits]
    have hten : 10 ≤ num / den := by
      have hpositive : (0 : ℚ) < den := by exact_mod_cast hden
      rw [le_div_iff₀ hpositive] at hlarge
      have hmillion : 10 ^ 6 * den ≤ num := by exact_mod_cast hlarge
      rw [Nat.le_div_iff_mul_le hden]
      omega
    obtain ⟨place, near, hwritten⟩ := twoDigits_written hden hten
    have hvalue : ((twoDigits num den).digits * 10 ^ ((twoDigits num den).power - 1) : ℚ) =
        near * 10 ^ place := by exact_mod_cast hwritten.value
    refine ⟨signed negative ((twoDigits num den).digits * 10 ^ ((twoDigits num den).power - 1)),
      ⟨negative, _, ?_, rfl⟩, writtenAs_signed negative hexact ?_,
      fun h => absurd hlarge (not_le.2 h),
      fun _ => ⟨(twoDigits num den).power, ?_, ?_⟩⟩
    · rw [htext, String.toList_ofList]
      exact TwoDigits.decimalText (signText_signText negative) hwritten.ten_le
        ((Nat.le_add_left 1 place).trans hwritten.le_power)
    · rw [hvalue]
      exact .power hlarge hwritten.low hwritten.high hwritten.rounded
    · rw [htext]
      exact endsInPower_twoDigits negative _
    · rw [abs_signed, abs_of_nonneg (by positivity), abs_signed_sub_signed]
      exact ⟨hwritten.between.1, hwritten.between.2, hwritten.abs_sub_le⟩
  · have htext : tickText y = String.ofList (signText negative ++ integerChars num den) := by
      rw [tickText, if_neg (mt hthreshold.1 hlarge), hinteger]
    have hrounded := isRounded_roundDiv num hden
    refine ⟨signed negative (roundDiv .toEven num den), ⟨negative, _, ?_, rfl⟩,
      writtenAs_signed negative hexact (.whole (not_le.1 hlarge) hrounded), fun _ => ?_,
      fun h => absurd h hlarge⟩
    · rw [htext, String.toList_ofList]
      exact decimalText_signed (signText_signText negative) _
    · rw [abs_signed_sub_signed]
      exact hrounded.near

/-- The label of a finite tick denotes one number.  Below a million it is off by at most a half,
and from a million on it has the power of ten of its number and is off by at most half a unit
of its second digit.  Labels are in the order of their ticks. -/
theorem tickText_faithful {y : Float} (hy : isFinite y = true) :
    ∃ number, (∀ other, DenotesNumber (tickText y) other ↔ other = number) ∧
      (|toRat y| < 10 ^ 6 → |toRat y - number| ≤ 1 / 2) ∧
      (10 ^ 6 ≤ |toRat y| → ∃ power, EndsInPower (tickText y) power ∧
        10 ^ power ≤ |number| ∧ |number| < 10 ^ (power + 1) ∧
        |toRat y - number| ≤ 10 ^ power / 10 / 2) ∧
      ∀ z, isFinite z = true → y ≤ z → ∀ larger, DenotesNumber (tickText z) larger →
        number ≤ larger := by
  obtain ⟨number, hdenotes, hwritten, hsmall, hlarge⟩ := exists_written hy
  refine ⟨number, fun other => ⟨hdenotes.unique, ?_⟩, hsmall, hlarge, ?_⟩
  · rintro rfl
    exact hdenotes
  · intro z hz hle larger hlarger
    obtain ⟨number', hdenotes', hwritten', -⟩ := exists_written hz
    obtain rfl := hdenotes'.unique hlarger
    exact hwritten.mono ((toRat_le_iff hy hz).1 hle) hwritten'

/-- Rounded to two digits, this tick is carried into the next power of ten. -/
theorem tickText_faithful_carry :
    tickText 9960000 = "1.0e7" ∧ ∃ number, DenotesNumber "1.0e7" number ∧
      (∃ power, EndsInPower "1.0e7" power ∧ |9960000 - number| ≤ 10 ^ power / 10 / 2) ∧
      ∀ larger, DenotesNumber (tickText 10400000) larger → number ≤ larger := by
  have htext : tickText 9960000 = "1.0e7" := rfl
  have hvalue : toRat 9960000 = 9960000 := by
    have hinteger : (9960000 : Float) = ofInteger (9960000 : Nat) := rfl
    rw [hinteger, toRat_ofInteger_eq (by norm_num), Nat.cast_ofNat]
  obtain ⟨number, hdenotes, -, hlarge, hmono⟩ := @tickText_faithful 9960000 rfl
  rw [htext] at hdenotes hlarge
  rw [hvalue] at hlarge
  obtain ⟨power, hends, -, -, hnear⟩ := hlarge (by norm_num)
  exact ⟨htext, number, (hdenotes number).2 rfl, ⟨power, hends, hnear⟩,
    hmono 10400000 rfl (by decide)⟩

/-- One number in both ways of writing, on either side of the million. -/
example : tickText 999999.5 = "1000000" ∧ tickText 1000000 = "1.0e6" :=
  ⟨rfl, rfl⟩

end TimingReport.Chart
