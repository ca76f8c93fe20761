import TimingReport.Number.Fixed
import TimingReport.Proofs.Json.Numbers
import TimingReport.Proofs.Number.Value

/-!
# Numbers of fixed digits

Rounding to an integer, a half to the even one, keeps the order and stays on its side of any
integer.  Two digits and a power of ten are the rounding to a power of ten, also where it
carries into a third digit, and the text of digits denotes what they stand for.
-/

namespace TimingReport.Number

/-! ## Rounding to integers -/

/-- The integer that a number is rounded to: the nearest one, of two the even one. -/
structure IsRounded (exact : ℚ) (n : Nat) : Prop where
  near : |exact - n| ≤ 1 / 2
  even : |exact - n| = 1 / 2 → Even n

theorem isRounded_roundDiv (num : Nat) {den : Nat} (hden : 0 < den) :
    IsRounded (num / den) (roundDiv .toEven num den) :=
  ⟨abs_sub_roundDiv_le .toEven num hden, even_roundDiv_of_tie hden⟩

theorem isRounded_natCast (n : Nat) : IsRounded n n := by
  constructor <;> norm_num

/-- Two numbers rounded against their order would be halves between neighbouring integers, and
both of these even. -/
theorem IsRounded.mono {exact exact' : ℚ} {n n' : Nat} (hle : exact ≤ exact')
    (hn : IsRounded exact n) (hn' : IsRounded exact' n') : n ≤ n' := by
  by_contra hlt
  have hstep : (n' + 1 : ℚ) ≤ n := by exact_mod_cast not_le.1 hlt
  have hnear := abs_le.1 hn.near
  have hnear' := abs_le.1 hn'.near
  have htie : |exact - n| = 1 / 2 := by
    rw [abs_of_nonpos (by linarith)]
    linarith
  have htie' : |exact' - n'| = 1 / 2 := by
    rw [abs_of_nonneg (by linarith)]
    linarith
  have hnext : n = n' + 1 := by
    have hcast : (n : ℚ) = n' + 1 := by linarith
    exact_mod_cast hcast
  have heven := hn.even htie
  rw [hnext, Nat.even_add_one] at heven
  exact heven (hn'.even htie')

/-! ## Two digits -/

/-- The count of the digits of a number tells the powers of ten that it is between. -/
theorem exists_power {num den : Nat} (hden : 0 < den) (hten : 10 ≤ num / den) :
    ∃ place, (decimalDigits (num / den)).length - 1 = place + 1 ∧
      (10 : ℚ) ^ (place + 1) ≤ num / den ∧ (num / den : ℚ) < 10 ^ (place + 2) := by
  have hdigits : ∀ k, 0 < k → ((decimalDigits (num / den)).length ≤ k ↔ num / den < 10 ^ k) :=
    fun k hk => Nat.length_toDigits_le_iff (by decide) hk
  obtain ⟨place, hlength⟩ : ∃ place, (decimalDigits (num / den)).length = place + 2 := by
    have hlong := (hdigits 1 one_pos).not.2 (by omega)
    exact ⟨(decimalDigits (num / den)).length - 2, by omega⟩
  have hlow := (hdigits (place + 1) (by omega)).not.1 (by omega)
  have hhigh := (hdigits (place + 2) (by omega)).1 hlength.le
  have hpositive : (0 : ℚ) < den := by exact_mod_cast hden
  refine ⟨place, by omega, ?_, ?_⟩
  · rw [le_div_iff₀ hpositive]
    exact_mod_cast (Nat.le_div_iff_mul_le hden).1 (not_lt.1 hlow)
  · rw [div_lt_iff₀ hpositive]
    exact_mod_cast (Nat.div_lt_iff_lt_mul hden).1 hhigh

theorem isRounded_units (num : Nat) {den : Nat} (hden : 0 < den) (place : Nat) :
    IsRounded (num / den / 10 ^ place)
      (roundDiv .toEven (num * 10) (den * Nat.pow 10 (place + 1))) := by
  have hrounded := isRounded_roundDiv (num * 10)
    (Nat.mul_pos hden (Nat.pow_pos (by decide) : 0 < 10 ^ (place + 1)))
  have hunits : ((num * 10 : Nat) / (den * 10 ^ (place + 1) : Nat) : ℚ) =
      num / den / 10 ^ place := by
    push_cast
    rw [pow_succ]
    field_simp
  rwa [hunits] at hrounded

/-- A number of so many digits has two of them in front of the place, or is rounded up to three. -/
theorem IsRounded.two_digits {exact : ℚ} {place near : Nat} (hlow : 10 ^ (place + 1) ≤ exact)
    (hhigh : exact < 10 ^ (place + 2)) (hrounded : IsRounded (exact / 10 ^ place) near) :
    10 ≤ near ∧ near ≤ 100 := by
  have hunit : (0 : ℚ) < 10 ^ place := by positivity
  constructor
  · refine (isRounded_natCast 10).mono ?_ hrounded
    rw [le_div_iff₀ hunit, Nat.cast_ofNat, ← pow_succ']
    exact hlow
  · refine hrounded.mono ?_ (isRounded_natCast 100)
    rw [div_le_iff₀ hunit]
    calc exact ≤ 10 ^ (place + 2) := hhigh.le
      _ = (100 : Nat) * 10 ^ place := by
        push_cast
        ring

/-- Two digits in front of a power of ten, for a number rounded to so many units. -/
structure TwoDigits.Written (n : TwoDigits) (exact : ℚ) (place near : Nat) : Prop where
  low : 10 ^ (place + 1) ≤ exact
  high : exact < 10 ^ (place + 2)
  rounded : IsRounded (exact / 10 ^ place) near
  ten_le : 10 ≤ n.digits
  lt_hundred : n.digits < 100
  le_power : place + 1 ≤ n.power
  value : n.digits * 10 ^ (n.power - 1) = near * 10 ^ place

namespace TwoDigits.Written

variable {n : TwoDigits} {exact : ℚ} {place near : Nat}

/-- The power of ten is the one that the two digits stand in front of. -/
theorem between (hwritten : n.Written exact place near) :
    (10 : ℚ) ^ n.power ≤ n.digits * 10 ^ (n.power - 1) ∧
      (n.digits * 10 ^ (n.power - 1) : ℚ) < 10 ^ (n.power + 1) := by
  obtain ⟨below, hbelow⟩ : ∃ below, n.power = below + 1 :=
    ⟨n.power - 1, by have := hwritten.le_power; omega⟩
  have hten : (10 : ℚ) ≤ n.digits := by exact_mod_cast hwritten.ten_le
  have hhundred : (n.digits : ℚ) < 100 := by exact_mod_cast hwritten.lt_hundred
  have hunit : (0 : ℚ) < 10 ^ below := by positivity
  rw [hbelow, Nat.add_sub_cancel]
  constructor
  · calc (10 : ℚ) ^ (below + 1) = 10 * 10 ^ below := pow_succ' 10 below
      _ ≤ n.digits * 10 ^ below := by gcongr
  · calc (n.digits * 10 ^ below : ℚ) < 100 * 10 ^ below := by gcongr
      _ = 10 ^ (below + 1 + 1) := by ring

/-- The rounding is off by at most half a unit of the second digit. -/
theorem abs_sub_le (hwritten : n.Written exact place near) :
    |exact - n.digits * 10 ^ (n.power - 1)| ≤ 10 ^ n.power / 10 / 2 := by
  have hunit : (0 : ℚ) < 10 ^ place := by positivity
  have hvalue : (n.digits * 10 ^ (n.power - 1) : ℚ) = near * 10 ^ place := by
    exact_mod_cast hwritten.value
  have hpower : (10 : ℚ) ^ (place + 1) ≤ 10 ^ n.power :=
    pow_le_pow_right₀ (by norm_num) hwritten.le_power
  rw [pow_succ] at hpower
  rw [hvalue, abs_sub_mul _ _ hunit]
  calc |exact / 10 ^ place - near| * 10 ^ place ≤ 1 / 2 * 10 ^ place :=
        mul_le_mul_of_nonneg_right hwritten.rounded.near hunit.le
    _ ≤ 10 ^ n.power / 10 / 2 := by linarith

end TwoDigits.Written

/-- Three digits after rounding are a hundred units, which are ten of the next place. -/
theorem twoDigits_written {num den : Nat} (hden : 0 < den) (hten : 10 ≤ num / den) :
    ∃ place near, (twoDigits num den).Written (num / den) place near := by
  obtain ⟨place, hpower, hlow, hhigh⟩ := exists_power hden hten
  have hrounded := isRounded_units num hden place
  obtain ⟨hnear, hhundred⟩ := hrounded.two_digits hlow hhigh
  refine ⟨place, roundDiv .toEven (num * 10) (den * Nat.pow 10 (place + 1)), ?_⟩
  simp only [twoDigits, hpower]
  split_ifs with hcarry
  · rw [hcarry] at hrounded ⊢
    exact ⟨hlow, hhigh, hrounded, le_rfl, by norm_num, Nat.le_succ _,
      by rw [Nat.add_sub_cancel]; ring⟩
  · exact ⟨hlow, hhigh, hrounded, hnear, lt_of_le_of_ne hhundred hcarry, le_rfl, rfl⟩

/-! ## Texts -/

/-- A number that a text denotes as a decimal literal. -/
def DenotesNumber (text : String) (number : ℚ) : Prop :=
  ∃ negative magnitude, DecimalText text.toList negative magnitude ∧
    number = signed negative magnitude

theorem DenotesNumber.unique {text : String} {number other : ℚ}
    (hnumber : DenotesNumber text number)
    (hother : DenotesNumber text other) : other = number := by
  obtain ⟨negative, magnitude, htext, rfl⟩ := hnumber
  obtain ⟨negative', magnitude', htext', rfl⟩ := hother
  obtain ⟨rfl, rfl⟩ := htext.unique htext'
  rfl

theorem abs_signed (negative : Bool) (magnitude : ℚ) :
    |signed negative magnitude| = |magnitude| := by
  cases negative <;> simp [signed]

theorem signText_signText (negative : Bool) : SignText (signText negative) negative := by
  cases negative
  · exact .absent
  · exact .minus

/-- The last of the digits of a number stands behind those of its tenth. -/
theorem decimalDigits_div_append_mod {n : Nat} (hten : 10 ≤ n) :
    decimalDigits (n / 10) ++ decimalDigits (n % 10) = decimalDigits n := by
  rw [decimalDigits, decimalDigits, decimalDigits,
    Nat.toDigits_of_lt_base (Nat.mod_lt n (by decide)), @Nat.toDigits_eq_if 10 n (by decide),
    if_neg (by omega)]

theorem TwoDigits.decimalText {n : TwoDigits} {sign : List Char} {negative : Bool}
    (hsign : SignText sign negative) (hten : 10 ≤ n.digits) (hpower : 1 ≤ n.power) :
    DecimalText (sign ++ n.chars) negative (n.digits * 10 ^ (n.power - 1)) := by
  have hall :
      Numeral 10 (decimalDigits (n.digits / 10) ++ decimalDigits (n.digits % 10)) n.digits := by
    rw [decimalDigits_div_append_mod hten]
    exact numeral_decimalDigits n.digits
  have hlength : (decimalDigits (n.digits % 10)).length = 1 := by
    rw [decimalDigits, Nat.toDigits_of_lt_base (Nat.mod_lt _ (by decide)), List.length_singleton]
  have htail : ExponentText ('e' :: decimalDigits n.power) n.power := by
    have hpositional := Json.exponentText_decimalDigits Layout.plain n.power
    rwa [if_neg (by omega)] at hpositional
  have htext := DecimalText.intro hsign (.point (decimalDigits (n.digits % 10)))
    (by simp [decimalDigits_ne_nil]) hall htail
  have hexponent : ((n.power : Int) - (decimalDigits (n.digits % 10)).length) =
      ((n.power - 1 : Nat) : Int) := by omega
  rw [hexponent, zpow_natCast] at htext
  simpa [TwoDigits.chars] using htext

/-- A finite double is written as a sign and the text of a quotient. -/
theorem exists_quotient_chars {x : Float} (hx : isFinite x = true) :
    ∃ (negative : Bool) (num den : Nat), 0 < den ∧ toRat x = signed negative (num / den) ∧
      integerText x = String.ofList (signText negative ++ integerChars num den) ∧
      twoDigitText x = String.ofList (signText negative ++ (twoDigits num den).chars) := by
  have hvalue := value?_eq_toRat hx
  rw [value?] at hvalue
  cases hparts : parts x with
  | nan => rw [hparts] at hvalue; cases hvalue
  | infinite negative => rw [hparts] at hvalue; cases hvalue
  | finite negative mantissa exponent =>
    rw [hparts, Parts.value?, Option.some.injEq] at hvalue
    refine ⟨negative, mantissa * 2 ^ exponent.toNat, 2 ^ (-exponent).toNat, Nat.two_pow_pos _, ?_,
      ?_, ?_⟩
    · rw [← hvalue, ← pow_toNat_div]
      push_cast
      rw [mul_div_assoc]
    · rw [integerText, hparts]
      rfl
    · rw [twoDigitText, hparts]
      rfl

end TimingReport.Number
