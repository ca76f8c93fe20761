import TimingReport.Proofs.Number.Bits
import TimingReport.Proofs.Number.Grid

/-!
# The nearest double

Every finite double is a rational number.  The nearest one to a rational number has no
double nearer to it, and an even pattern if another one is as near; together with the
sign, which a zero keeps, that leaves one double.
-/

namespace TimingReport.Number

/-- The number `±magnitude`. -/
def signed (negative : Bool) (magnitude : ℚ) : ℚ := if negative then -magnitude else magnitude

/-- The number that finite parts stand for. -/
def Parts.value? : Parts → Option ℚ
  | .finite negative mantissa exponent => some (signed negative (mantissa * 2 ^ exponent))
  | .infinite _ => none
  | .nan => none

/-- The number that a finite double is. -/
def value? (x : Float) : Option ℚ := (parts x).value?

/-- Whether the sign of a double is set. -/
def isNegative (x : Float) : Bool := decide (signPattern ≤ x.toBits.toNat)

/-- The double is finite, none is nearer to the exact number, and another number that is
as near has the odd pattern. -/
def IsNearest (exact : ℚ) (x : Float) : Prop :=
  ∃ value, value? x = some value ∧
    ∀ other otherValue, value? other = some otherValue →
      |exact - value| ≤ |exact - otherValue| ∧
        (|exact - value| = |exact - otherValue| → otherValue = value ∨ Even x.toBits.toNat)

theorem abs_signed_sub_signed (negative : Bool) (left right : ℚ) :
    |signed negative left - signed negative right| = |left - right| := by
  cases negative with
  | false => rfl
  | true =>
    rw [signed, signed, if_pos rfl, if_pos rfl, neg_sub_neg, abs_sub_comm]

theorem abs_signed_sub_signed_not (negative : Bool) {left right : ℚ} (hleft : 0 ≤ left)
    (hright : 0 ≤ right) :
    |signed negative left - signed (!negative) right| = left + right := by
  cases negative with
  | false =>
    simp only [signed, Bool.not_false, if_true, Bool.false_eq_true, if_false]
    rw [sub_neg_eq_add, abs_of_nonneg (by linarith)]
  | true =>
    simp only [signed, Bool.not_true, if_true, Bool.false_eq_true, if_false]
    rw [abs_of_nonpos (by linarith)]
    ring

theorem minExponent_le (pattern : Nat) : minExponent ≤ (magnitudeParts pattern).2 := by
  simp only [magnitudeParts]
  by_cases hfield : pattern / fractionSize = 0
  · rw [if_pos hfield]
  · rw [if_neg hfield]
    simp only [fractionSize, minExponent] at *
    omega

/-- The magnitude of a pattern as a number. -/
def magnitudeValue (pattern : Nat) : ℚ := scaled pattern * 2 ^ minExponent

theorem magnitudeValue_nonneg (pattern : Nat) : 0 ≤ magnitudeValue pattern := by
  rw [magnitudeValue]
  positivity

theorem magnitudeValue_strictMono : StrictMono magnitudeValue := fun _ _ hlt =>
  mul_lt_mul_of_pos_right (Nat.cast_lt.2 (scaled_strictMono hlt)) (by positivity)

theorem magnitudeParts_eq (pattern : Nat) :
    ((magnitudeParts pattern).1 * 2 ^ (magnitudeParts pattern).2 : ℚ) =
      magnitudeValue pattern := by
  have hexponent : (magnitudeParts pattern).2 =
      (((magnitudeParts pattern).2 - minExponent).toNat : Int) + minExponent := by
    rw [Int.toNat_of_nonneg (Int.sub_nonneg.2 (minExponent_le pattern)), Int.sub_add_cancel]
  rw [magnitudeValue, scaled, Nat.cast_mul, Nat.cast_pow, Nat.cast_ofNat, mul_assoc,
    ← zpow_natCast (2 : ℚ), ← zpow_add₀ (by norm_num), ← hexponent]

theorem parts_ofPattern (negative : Bool) {magnitude : Nat}
    (hfinite : magnitude < infinityPattern) :
    parts (ofPattern negative magnitude) =
      .finite negative (magnitudeParts magnitude).1 (magnitudeParts magnitude).2 := by
  have hsmall : magnitude < signPattern := by
    simp only [infinityPattern, signPattern] at *
    omega
  rw [parts, toNat_toBits_ofPattern negative hfinite.le]
  cases negative with
  | false =>
    simp only [partsOfPattern, Bool.false_eq_true, if_false, Nat.mod_eq_of_lt hsmall,
      if_pos hfinite, decide_eq_false (not_le.2 hsmall)]
  | true =>
    simp only [partsOfPattern, if_true, Nat.add_mod_left, Nat.mod_eq_of_lt hsmall, if_pos hfinite,
      Nat.le_add_right, decide_true]

theorem value?_ofPattern (negative : Bool) {magnitude : Nat}
    (hfinite : magnitude < infinityPattern) :
    value? (ofPattern negative magnitude) =
      some (signed negative (magnitudeValue magnitude)) := by
  rw [value?, parts_ofPattern negative hfinite, Parts.value?, magnitudeParts_eq]

theorem isNegative_ofPattern (negative : Bool) {magnitude : Nat}
    (hnumber : magnitude ≤ infinityPattern) :
    isNegative (ofPattern negative magnitude) = negative := by
  rw [isNegative, toNat_toBits_ofPattern negative hnumber]
  cases negative with
  | false =>
    simp only [infinityPattern, signPattern] at *
    simp
    omega
  | true => simp

/-- A double that is a number has a sign and a magnitude. -/
theorem exists_ofPattern {x : Float} {value : ℚ} (hvalue : value? x = some value) :
    ∃ magnitude, magnitude < infinityPattern ∧ x = ofPattern (isNegative x) magnitude := by
  have hbits : x.toBits.toNat < 2 ^ 64 := x.toBits.toNat_lt
  have hfinite : x.toBits.toNat % signPattern < infinityPattern := by
    by_contra hlarge
    rw [value?, parts, partsOfPattern] at hvalue
    simp only [if_neg hlarge] at hvalue
    split at hvalue <;> simp [Parts.value?] at hvalue
  refine ⟨_, hfinite, Float.toBits_inj.1 (UInt64.toNat_inj.1 ?_)⟩
  rw [toNat_toBits_ofPattern _ hfinite.le, isNegative]
  by_cases hsign : signPattern ≤ x.toBits.toNat
  · rw [decide_eq_true hsign, if_pos rfl]
    simp only [signPattern] at *
    omega
  · rw [decide_eq_false hsign, if_neg Bool.false_ne_true]
    simp only [signPattern] at *
    omega

/-! ## The double nearest to a quotient -/

/-- The quotients that are rounded to a finite double lie below the number half way from
the largest one to `2 ^ 1024`. -/
def roundingLimit : ℚ := 2 ^ 1024 - 2 ^ 970

theorem roundingLimit_eq : roundingLimit = (2 ^ 53 - 1 / 2) * 2 ^ topScale * 2 ^ minExponent := by
  have hproduct : (2 ^ topScale * 2 ^ minExponent : ℚ) = 2 ^ 971 := by
    rw [← zpow_natCast, ← zpow_natCast, ← zpow_add₀ (by norm_num)]
    rfl
  have hlarge : (2 : ℚ) ^ 1024 = 2 ^ 53 * 2 ^ 971 := pow_add 2 53 971
  have hhalf : (2 : ℚ) ^ 971 = 2 ^ 970 * 2 := pow_succ 2 970
  rw [mul_assoc, hproduct, roundingLimit, hlarge]
  rw [hhalf]
  generalize (2 : ℚ) ^ 970 = step
  ring

theorem nearestPattern_lt_iff (num : Nat) {den : Nat} (hden : 0 < den) :
    nearestPattern num den < infinityPattern ↔ (num / den : ℚ) < roundingLimit := by
  obtain ⟨scale, mantissa, hpattern, hrounds⟩ := exists_roundsTo num hden
  have hunit : (0 : ℚ) < 2 ^ minExponent := by positivity
  rw [hpattern, min_lt_iff, or_iff_right (lt_irrefl _), hrounds.lt_infinityPattern_iff,
    div_lt_iff₀ hunit, roundingLimit_eq]

theorem nearestPattern_le (num den : Nat) : nearestPattern num den ≤ infinityPattern := by
  rw [nearestPattern]
  split
  · exact Nat.zero_le _
  · exact min_le_left _ _

theorem isFinite_iff_value? (x : Float) : isFinite x = true ↔ (value? x).isSome = true := by
  rw [isFinite, value?]
  cases parts x <;> simp [Parts.value?]

theorem isNegative_nearest (negative : Bool) (num den : Nat) :
    isNegative (nearest negative num den) = negative :=
  isNegative_ofPattern negative (nearestPattern_le num den)

theorem value?_ofPattern_infinity (negative : Bool) :
    value? (ofPattern negative infinityPattern) = none := by
  rw [value?, parts, toNat_toBits_ofPattern negative le_rfl]
  cases negative <;> rfl

theorem isFinite_nearest_iff (negative : Bool) (num : Nat) {den : Nat} (hden : 0 < den) :
    isFinite (nearest negative num den) = true ↔ (num / den : ℚ) < roundingLimit := by
  rw [← nearestPattern_lt_iff num hden, isFinite_iff_value?, nearest]
  rcases (nearestPattern_le num den).lt_or_eq with hfinite | hinfinite
  · rw [value?_ofPattern negative hfinite]
    simp [hfinite]
  · rw [hinfinite, value?_ofPattern_infinity]
    simp

theorem even_toBits_ofPattern (negative : Bool) {magnitude : Nat}
    (hmagnitude : magnitude ≤ infinityPattern) (heven : Even magnitude) :
    Even (ofPattern negative magnitude).toBits.toNat := by
  rw [toNat_toBits_ofPattern negative hmagnitude]
  cases negative with
  | false => exact heven
  | true => exact (show Even signPattern by decide).add heven

/-- The magnitude that a quotient is rounded to is nearest among those of all doubles. -/
theorem nearestPattern_minimal (num : Nat) {den : Nat} (hden : 0 < den)
    (hfinite : nearestPattern num den < infinityPattern) (pattern : Nat) :
    |(num / den : ℚ) - magnitudeValue (nearestPattern num den)| ≤
        |(num / den : ℚ) - magnitudeValue pattern| ∧
      (|(num / den : ℚ) - magnitudeValue (nearestPattern num den)| =
          |(num / den : ℚ) - magnitudeValue pattern| →
        pattern = nearestPattern num den ∨ Even (nearestPattern num den)) := by
  obtain ⟨scale, mantissa, hpattern, hrounds⟩ := exists_roundsTo num hden
  have hrounded : nearestPattern num den = scale * fractionSize + mantissa := by omega
  have hunit : (0 : ℚ) < 2 ^ minExponent := by positivity
  obtain ⟨hle, htie⟩ := hrounds.minimal pattern
  rw [magnitudeValue, magnitudeValue, abs_sub_mul _ _ hunit, abs_sub_mul _ _ hunit, hrounded]
  exact ⟨mul_le_mul_of_nonneg_right hle hunit.le,
    fun heq => htie (mul_right_cancel₀ hunit.ne' heq)⟩

theorem nearestPattern_zero (den : Nat) : nearestPattern 0 den = 0 := rfl

theorem magnitudeValue_zero : magnitudeValue 0 = 0 := by
  simp [magnitudeValue, scaled, magnitudeParts]

/-- Two magnitudes are no further apart than their sum, and as far only if one of them is
zero. -/
theorem abs_sub_le_add {left right : ℚ} (hleft : 0 ≤ left) (hright : 0 ≤ right) :
    |left - right| ≤ left + right ∧ (|left - right| = left + right → left = 0 ∨ right = 0) := by
  refine ⟨abs_le.2 ⟨by linarith, by linarith⟩, fun hsum => ?_⟩
  rcases abs_cases (left - right) with h | h
  · right
    linarith
  · left
    linarith

/-- Reading a quotient gives the double that is nearest to it. -/
theorem isNearest_nearest (negative : Bool) (num : Nat) {den : Nat} (hden : 0 < den)
    (hlimit : (num / den : ℚ) < roundingLimit) :
    IsNearest (signed negative (num / den)) (nearest negative num den) := by
  have hfinite := (nearestPattern_lt_iff num hden).2 hlimit
  refine ⟨_, value?_ofPattern negative hfinite, fun other otherValue hother => ?_⟩
  obtain ⟨pattern, hpattern, hotherPattern⟩ := exists_ofPattern hother
  generalize isNegative other = otherNegative at hotherPattern
  subst hotherPattern
  rw [value?_ofPattern otherNegative hpattern, Option.some.injEq] at hother
  subst hother
  obtain ⟨hle, htie⟩ := nearestPattern_minimal num hden hfinite pattern
  have heven := even_toBits_ofPattern negative hfinite.le
  rw [abs_signed_sub_signed]
  by_cases hsign : otherNegative = negative
  · subst hsign
    rw [abs_signed_sub_signed]
    refine ⟨hle, fun heq => (htie heq).imp (fun hsame => ?_) heven⟩
    rw [hsame]
  · obtain rfl : otherNegative = !negative := by
      cases otherNegative <;> cases negative <;> simp at hsign ⊢
    have hquotient : (0 : ℚ) ≤ num / den := div_nonneg num.cast_nonneg den.cast_nonneg
    have hmagnitude := magnitudeValue_nonneg pattern
    rw [abs_signed_sub_signed_not negative hquotient hmagnitude]
    obtain ⟨htriangle, hapart⟩ := abs_sub_le_add hquotient hmagnitude
    refine ⟨hle.trans htriangle, fun heq => ?_⟩
    refine (htie (le_antisymm hle (by linarith))).imp (fun hsame => ?_) heven
    have hzero : magnitudeValue pattern = 0 := by
      refine (hapart (by rw [← heq, hsame])).elim (fun hexact => ?_) id
      have hnum : num = 0 := by
        rcases div_eq_zero_iff.1 hexact with h | h
        · exact_mod_cast h
        · exact absurd h (Nat.cast_ne_zero.2 hden.ne')
      rw [hsame, hnum, nearestPattern_zero, magnitudeValue_zero]
    rw [← hsame, hzero]
    cases negative <;> simp [signed]

/-- A number that a double is, is rounded to itself. -/
theorem IsNearest.value?_eq {exact : ℚ} {x y : Float} (hx : IsNearest exact x)
    (hy : value? y = some exact) : value? x = some exact := by
  obtain ⟨value, hvalue, hminimal⟩ := hx
  have hle := (hminimal y exact hy).1
  rw [sub_self, abs_zero, abs_nonpos_iff, sub_eq_zero] at hle
  rw [hvalue, hle]

/-! ## There is only one nearest double of each sign -/

/-- Among the doubles of one sign it is the magnitude that is nearest. -/
theorem IsNearest.magnitude {negative : Bool} {exact : ℚ} {magnitude : Nat}
    (hfinite : magnitude < infinityPattern)
    (hnearest : IsNearest (signed negative exact) (ofPattern negative magnitude))
    {pattern : Nat} (hpattern : pattern < infinityPattern) :
    |exact - magnitudeValue magnitude| ≤ |exact - magnitudeValue pattern| ∧
      (|exact - magnitudeValue magnitude| = |exact - magnitudeValue pattern| →
        pattern = magnitude ∨ Even magnitude) := by
  obtain ⟨value, hvalue, hminimal⟩ := hnearest
  obtain rfl := Option.some.inj ((value?_ofPattern negative hfinite).symm.trans hvalue)
  obtain ⟨hle, htie⟩ := hminimal _ _ (value?_ofPattern negative hpattern)
  rw [abs_signed_sub_signed, abs_signed_sub_signed] at hle htie
  refine ⟨hle, fun heq => (htie heq).imp (fun hsame => ?_) fun heven => ?_⟩
  · apply magnitudeValue_strictMono.injective
    cases negative with
    | false => exact hsame
    | true => exact neg_injective hsame
  · rw [toNat_toBits_ofPattern negative hfinite.le] at heven
    cases negative with
    | false => exact heven
    | true => exact (Nat.even_add.1 heven).1 (by decide)

/-- Of two magnitudes that are equally near, both with an even pattern, neither is
nearest: there is another one between them. -/
theorem IsNearest.not_lt {negative : Bool} {exact : ℚ} {lower upper : Nat}
    (hupper : upper < infinityPattern)
    (hlowerNearest : IsNearest (signed negative exact) (ofPattern negative lower))
    (hupperNearest : IsNearest (signed negative exact) (ofPattern negative upper)) :
    ¬lower < upper := by
  intro hlt
  have hlower : lower < infinityPattern := hlt.trans hupper
  obtain ⟨hlowerLe, hlowerTie⟩ := hlowerNearest.magnitude hlower hupper
  obtain ⟨hupperLe, hupperTie⟩ := hupperNearest.magnitude hupper hlower
  have hsame := le_antisymm hlowerLe hupperLe
  obtain ⟨lowerHalf, hlowerEven⟩ := (hlowerTie hsame).resolve_left hlt.ne'
  obtain ⟨upperHalf, hupperEven⟩ := (hupperTie hsame.symm).resolve_left hlt.ne
  have hbetween : lower + 1 < upper := by omega
  have hnext := (hlowerNearest.magnitude hlower (hbetween.trans hupper)).1
  have hbelow := magnitudeValue_strictMono (Nat.lt_succ_self lower)
  have habove := magnitudeValue_strictMono hbetween
  rcases abs_cases (exact - magnitudeValue lower) with h | h <;>
    rcases abs_cases (exact - magnitudeValue upper) with h' | h' <;>
      rcases abs_cases (exact - magnitudeValue (lower + 1)) with h'' | h'' <;>
        simp only [Nat.succ_eq_add_one] at hbelow <;> linarith

theorem IsNearest.unique {exact : ℚ} {x y : Float} (hx : IsNearest exact x)
    (hy : IsNearest exact y) (hsign : isNegative x = isNegative y) : x = y := by
  obtain ⟨xValue, hxValue, -⟩ := id hx
  obtain ⟨yValue, hyValue, -⟩ := id hy
  obtain ⟨xPattern, hxPattern, hxEq⟩ := exists_ofPattern hxValue
  obtain ⟨yPattern, hyPattern, hyEq⟩ := exists_ofPattern hyValue
  rw [hsign] at hxEq
  generalize isNegative y = negative at hxEq hyEq
  subst hxEq hyEq
  have hexact : exact = signed negative (signed negative exact) := by
    cases negative <;> simp [signed]
  rw [hexact] at hx hy
  rcases lt_trichotomy xPattern yPattern with hlt | rfl | hgt
  · exact absurd hlt (hx.not_lt hyPattern hy)
  · rfl
  · exact absurd hgt (hy.not_lt hxPattern hx)

end TimingReport.Number
