import TimingReport.BoxSummary
import TimingReport.Proofs.Number.Value

/-!
# Where quartiles are

The place of a quartile is computed in doubles as well: one less than the number of samples
is rounded, multiplied by so many quarters and rounded again.  The place stays among the
samples, the places of two quartiles have a sample at or between them unless there are only
two samples, and a place between two samples counts these in quarters.
-/

namespace TimingReport

open Number
open BoxSummary (quantilePlace placeBelow placeAbove)

/-- A percentage that stands for so many quarters. -/
structure Quarters (part : Nat) (percent : Float) : Prop where
  part_pos : 0 < part
  part_lt : part < 4
  finite : isFinite (percent / 100) = true
  value : toRat (percent / 100) = part / 4
  infinite : percent / 100 * infinity false = infinity false

theorem toRat_of_rank {x : Float} {scale mantissa : Nat}
    (hrank : rank x = (scale * fractionSize + mantissa : Nat)) (hmantissa : mantissa ≤ 2 ^ 53)
    (hscale : scale = 0 ∨ 2 ^ 52 ≤ mantissa) :
    toRat x = mantissa * 2 ^ (scale + minExponent) := by
  rw [toRat, hrank, units_natCast, scaled_add hmantissa hscale, zpow_add₀ (by norm_num),
    zpow_natCast]
  push_cast
  ring

theorem quarters_one : Quarters 1 25 where
  part_pos := by decide
  part_lt := by decide
  finite := rfl
  value := by
    rw [@toRat_of_rank _ 1020 (2 ^ 52) rfl (by decide) (.inr le_rfl), minExponent]
    norm_num
  infinite := rfl

theorem quarters_two : Quarters 2 50 where
  part_pos := by decide
  part_lt := by decide
  finite := rfl
  value := by
    rw [@toRat_of_rank _ 1021 (2 ^ 52) rfl (by decide) (.inr le_rfl), minExponent]
    norm_num
  infinite := rfl

theorem quarters_three : Quarters 3 75 where
  part_pos := by decide
  part_lt := by decide
  finite := rfl
  value := by
    rw [@toRat_of_rank _ 1021 (3 * 2 ^ 51) rfl (by decide) (.inr (by decide)),
      minExponent]
    norm_num
  infinite := rfl

/-! ## The number of samples as a double -/

theorem isFinite_ofInteger_iff (n : Nat) :
    isFinite (ofInteger n) = true ↔ (n : ℚ) < roundingLimit := by
  have hnearest := isFinite_nearest_iff (decide ((n : Int) < 0)) n one_pos
  rwa [Nat.cast_one, div_one] at hnearest

theorem pow_lt_roundingLimit : (2 ^ 64 : ℚ) < roundingLimit := by
  have hstep : (2 : ℚ) ^ 1024 = 2 ^ 970 * 2 ^ 54 := pow_add 2 970 54
  have hlarge : (2 : ℚ) ^ 64 ≤ 2 ^ 970 := pow_le_pow_right₀ (by norm_num) (by norm_num)
  rw [roundingLimit, hstep]
  generalize (2 : ℚ) ^ 970 = step at hlarge
  linarith

theorem isFinite_ofInteger {n : Nat} (hn : n ≤ 2 ^ 64) : isFinite (ofInteger n) = true := by
  rw [isFinite_ofInteger_iff]
  have hcast : (n : ℚ) ≤ 2 ^ 64 := by exact_mod_cast hn
  exact hcast.trans_lt pow_lt_roundingLimit

theorem toRat_ofInteger_eq {n : Nat} (hn : n ≤ 2 ^ 53) : toRat (ofInteger n) = n := by
  rw [toRat_ofInteger, (isValue_natCast hn).nearestValue_eq]

/-- Quarters are exact up to the same number of them. -/
theorem isValue_quarters {n : Nat} (hn : n ≤ 2 ^ 53) : IsValue (n / 4) := by
  have hvalue := @isValue_mul_zpow n (-2) hn (by decide) (by decide)
  rwa [show (2 : ℚ) ^ (-2 : Int) = 1 / 4 by norm_num, mul_one_div] at hvalue

/-- A rounded count is an integer. -/
theorem exists_nearestValue_natCast (n : Nat) : ∃ rounded : Nat, nearestValue n = rounded := by
  by_cases hsmall : n ≤ 2 ^ 53
  · exact ⟨n, (isValue_natCast hsmall).nearestValue_eq⟩
  · have hvalue : IsValue (2 ^ 53 : Nat) := isValue_natCast le_rfl
    have hlarge : ((2 ^ 53 : Nat) : ℚ) ≤ nearestValue n :=
      hvalue.le_nearestValue (by exact_mod_cast (not_le.1 hsmall).le)
    exact (isValue_nearestValue _).exists_eq_natCast (le_trans (by norm_num) hlarge)

/-! ## Places -/

section Places

variable {part last : Nat} {percent : Float}

theorem isFinite_quantilePlace (hpercent : Quarters part percent)
    (hlast : isFinite (ofInteger last) = true) :
    isFinite (quantilePlace percent (last + 1)) = true ∧
      toRat (quantilePlace percent (last + 1)) = nearestValue (part * nearestValue last / 4) := by
  have hproduct :
      toRat (percent / 100) * toRat (ofInteger last) = part * nearestValue last / 4 := by
    rw [hpercent.value, toRat_ofInteger]
    ring
  have hpart : (part / 4 : ℚ) ≤ 1 := by
    rw [div_le_one (by norm_num)]
    exact_mod_cast hpercent.part_lt.le
  rw [quantilePlace, Nat.add_sub_cancel, toRat_mul hpercent.finite hlast, hproduct]
  refine ⟨isFinite_mul hpercent.finite hlast hlast ?_, rfl⟩
  rw [abs_mul, hpercent.value, abs_of_nonneg (show (0 : ℚ) ≤ part / 4 by positivity)]
  exact mul_le_of_le_one_left (abs_nonneg _) hpart

/-- The place of a quartile as a number. -/
def placeValue (part last : Nat) : ℚ := nearestValue (part * nearestValue last / 4)

theorem placeValue_mono {part' : Nat} (hle : part ≤ part') :
    placeValue part last ≤ placeValue part' last := by
  obtain ⟨rounded, hrounded⟩ := exists_nearestValue_natCast last
  apply nearestValue_mono
  rw [hrounded]
  have hcast : (part : ℚ) ≤ part' := by exact_mod_cast hle
  gcongr

/-- A place is a multiple of one quarter: where it is rounded, it is a multiple of a half. -/
theorem exists_placeValue_eq (part last : Nat) : ∃ n : Nat, placeValue part last = n / 4 := by
  obtain ⟨rounded, hrounded⟩ := exists_nearestValue_natCast last
  rw [placeValue, hrounded, ← Nat.cast_mul]
  by_cases hsmall : part * rounded ≤ 2 ^ 53
  · exact ⟨part * rounded, (isValue_quarters hsmall).nearestValue_eq⟩
  · have hlarge : ((2 ^ 51 : Nat) : ℚ) ≤ nearestValue ((part * rounded : Nat) / 4) := by
      apply (isValue_natCast (by decide)).le_nearestValue
      have hcast : ((2 ^ 53 : Nat) : ℚ) ≤ (part * rounded : Nat) := by
        exact_mod_cast (not_le.1 hsmall).le
      rw [le_div_iff₀ (by norm_num)]
      exact le_trans (by norm_num) hcast
    obtain ⟨n, hn⟩ := @IsValue.exists_eq_mul _ (-1) (isValue_nearestValue _) (by decide)
      (le_trans (by norm_num) hlarge)
    have hnonneg : 0 ≤ n := by
      rw [hn] at hlarge
      have : (0 : ℚ) ≤ n := by
        norm_num at hlarge
        linarith
      exact_mod_cast this
    obtain ⟨half, rfl⟩ := Int.eq_ofNat_of_zero_le hnonneg
    refine ⟨2 * half, ?_⟩
    rw [hn]
    push_cast
    ring

/-- A place is between the integers that the exact place is between. -/
theorem placeValue_mem (hpart : part < 4) (hlast : last ≤ 2 ^ 53) :
    ((part * last / 4 : Nat) : ℚ) ≤ placeValue part last ∧
      placeValue part last ≤ ((part * last + 3) / 4 : Nat) := by
  have hproduct : part * last ≤ 3 * last := Nat.mul_le_mul_right _ (by omega)
  rw [placeValue, (isValue_natCast hlast).nearestValue_eq, ← Nat.cast_mul]
  generalize part * last = product at *
  constructor
  · apply (isValue_natCast (by omega)).le_nearestValue
    rw [le_div_iff₀ (by norm_num)]
    exact_mod_cast Nat.div_mul_le_self product 4
  · apply (isValue_natCast (by omega)).nearestValue_le
    rw [div_le_iff₀ (by norm_num)]
    have hle : product ≤ (product + 3) / 4 * 4 := by omega
    exact_mod_cast hle

/-- With many samples, the places of the median and of the third quartile are integers. -/
theorem exists_placeValue_eq_natCast (hpart : 2 ≤ part) (hlast : 2 ^ 53 < last) :
    ∃ n : Nat, placeValue part last = n := by
  have hrounded : ((2 ^ 53 : Nat) : ℚ) ≤ nearestValue last :=
    (isValue_natCast le_rfl).le_nearestValue (by exact_mod_cast hlast.le)
  have hpart : (2 : ℚ) ≤ part := by exact_mod_cast hpart
  have hlarge : ((2 ^ 52 : Nat) : ℚ) ≤ placeValue part last := by
    apply (isValue_natCast (by decide)).le_nearestValue
    rw [le_div_iff₀ (by norm_num)]
    calc ((2 ^ 52 : Nat) * 4 : ℚ) = 2 * (2 ^ 53 : Nat) := by norm_num
      _ ≤ part * nearestValue last := by gcongr
  exact (isValue_nearestValue _).exists_eq_natCast (le_trans (by norm_num) hlarge)

/-- A count of many samples lies between two neighbouring values, and three quarters of the
upper one are no more than the lower one. -/
theorem placeValue_le_of_large (hpart : part < 4) (hlast : isFinite (ofInteger last) = true)
    (hlarge : 2 ^ 53 < last) : placeValue part last ≤ last := by
  have hlog : 53 ≤ last.log2 := (Nat.le_log2 (by omega)).2 hlarge.le
  obtain ⟨scale, hscale⟩ : ∃ scale, last.log2 = 52 + scale := ⟨last.log2 - 52, by omega⟩
  have htop : scale ≤ 971 := by
    have hlimit : (last : ℚ) < (2 ^ 1024 : Nat) := by
      refine ((isFinite_ofInteger_iff last).1 hlast).trans_le ?_
      rw [roundingLimit, Nat.cast_pow, Nat.cast_ofNat]
      exact sub_le_self _ (by positivity)
    have := (Nat.log2_lt (by omega)).2 (Nat.cast_lt.1 hlimit)
    omega
  have hunit : 0 < 2 ^ scale := Nat.two_pow_pos _
  have hlow : 2 ^ 52 ≤ last / 2 ^ scale := by
    rw [Nat.le_div_iff_mul_le hunit, ← pow_add, ← hscale]
    exact Nat.log2_self_le (by omega)
  have hhigh : last / 2 ^ scale < 2 ^ 53 := by
    rw [Nat.div_lt_iff_lt_mul hunit, ← pow_add, show 53 + scale = last.log2 + 1 by omega]
    exact Nat.lt_log2_self
  have hbelow : last / 2 ^ scale * 2 ^ scale ≤ last := Nat.div_mul_le_self _ _
  have habove : last ≤ (last / 2 ^ scale + 1) * 2 ^ scale := by
    rw [Nat.add_mul, one_mul]
    exact (Nat.lt_div_mul_add hunit).le
  generalize last / 2 ^ scale = mantissa at hlow hhigh hbelow habove
  have hvalue : ∀ mantissa : Nat, mantissa ≤ 2 ^ 53 → IsValue (mantissa * 2 ^ scale) := by
    intro mantissa hmantissa
    have hvalue := @isValue_mul_zpow mantissa scale hmantissa
      ((show minExponent ≤ 0 by decide).trans (Int.natCast_nonneg _)) (by omega)
    rwa [zpow_natCast] at hvalue
  have hrounded : nearestValue last ≤ (mantissa + 1 : Nat) * 2 ^ scale :=
    (hvalue _ hhigh).nearestValue_le (by exact_mod_cast habove)
  have hplace : placeValue part last ≤ mantissa * 2 ^ scale := by
    apply (hvalue mantissa hhigh.le).nearestValue_le
    have hpart : (part : ℚ) ≤ 3 := by exact_mod_cast Nat.le_of_lt_succ hpart
    have hthree : (3 * (mantissa + 1 : Nat) : ℚ) ≤ 4 * mantissa := by
      have hthree : 3 * (mantissa + 1) ≤ 4 * mantissa := by omega
      exact_mod_cast hthree
    have hnonneg : 0 ≤ nearestValue last := by
      obtain ⟨rounded, hrounded⟩ := exists_nearestValue_natCast last
      rw [hrounded]
      positivity
    calc part * nearestValue last / 4
        ≤ 3 * ((mantissa + 1 : Nat) * 2 ^ scale) / 4 := by gcongr
      _ = 3 * (mantissa + 1 : Nat) * 2 ^ scale / 4 := by ring
      _ ≤ 4 * mantissa * 2 ^ scale / 4 := by gcongr
      _ = mantissa * 2 ^ scale := by ring
  exact hplace.trans (by exact_mod_cast hbelow)

theorem placeValue_le (hpart : part < 4) (hlast : isFinite (ofInteger last) = true) :
    placeValue part last ≤ last := by
  by_cases hsmall : last ≤ 2 ^ 53
  · have hproduct : part * last ≤ 3 * last := Nat.mul_le_mul_right _ (by omega)
    have hle : (part * last + 3) / 4 ≤ last := by omega
    exact (placeValue_mem hpart hsmall).2.trans (by exact_mod_cast hle)
  · exact placeValue_le_of_large hpart hlast (not_le.1 hsmall)

/-- With three samples or more, an integer is at or between the places of two quartiles. -/
theorem exists_between {part' : Nat} (hpart : 0 < part) (hlt : part < part') (hpart' : part' < 4)
    (hlast : 2 ≤ last) :
    ∃ n : Nat, placeValue part last ≤ n ∧ (n : ℚ) ≤ placeValue part' last := by
  by_cases hsmall : last ≤ 2 ^ 53
  · refine ⟨(part * last + 3) / 4, (placeValue_mem (by omega) hsmall).2, ?_⟩
    have hle : (part * last + 3) / 4 ≤ part' * last / 4 := by
      have hproduct : (part + 1) * last ≤ part' * last := Nat.mul_le_mul_right _ hlt
      obtain rfl | rfl : part = 1 ∨ part = 2 := by omega
      · omega
      · omega
    exact le_trans (by exact_mod_cast hle) (placeValue_mem hpart' hsmall).1
  · obtain ⟨n, hn⟩ := exists_placeValue_eq_natCast (show 2 ≤ part' by omega) (not_le.1 hsmall)
    exact ⟨n, hn ▸ placeValue_mono hlt.le, hn.ge⟩

/-! ## The samples next to a place -/

theorem quantilePlace_of_infinite (hpercent : Quarters part percent)
    (hlast : ¬isFinite (ofInteger last) = true) :
    quantilePlace percent (last + 1) = infinity false := by
  have hcount : ofInteger last = infinity false := by
    have hlimit := mt (isFinite_ofInteger_iff last).2 hlast
    have hpattern := mt (nearestPattern_lt_iff last one_pos).1 (by rwa [Nat.cast_one, div_one])
    have hsign : decide ((last : Int) < 0) = false := decide_eq_false (by omega)
    rw [ofInteger, hsign, Int.natAbs_natCast, nearest,
      le_antisymm (nearestPattern_le _ _) (not_lt.1 hpattern), infinity]
  rw [quantilePlace, Nat.add_sub_cancel, hcount, hpercent.infinite]

theorem placeBelow_infinity : placeBelow (infinity false) = maxWord64.toNat := rfl

theorem placeAbove_infinity : placeAbove (infinity false) = maxWord64.toNat := rfl

/-- A place in quarters tells which samples are below and above it. -/
theorem exists_places (hpercent : Quarters part percent)
    (hlast : isFinite (ofInteger last) = true) :
    ∃ n : Nat, placeValue part last = n / 4 ∧
      placeBelow (quantilePlace percent (last + 1)) = min maxWord64.toNat (n / 4) ∧
      placeAbove (quantilePlace percent (last + 1)) = min maxWord64.toNat ((n + 3) / 4) := by
  obtain ⟨hfinite, hplace⟩ := isFinite_quantilePlace hpercent hlast
  obtain ⟨n, hn⟩ := exists_placeValue_eq part last
  have hfloor : ⌊(n / (4 : Nat) : ℚ)⌋ = (n / 4 : Nat) := Rat.floor_natCast_div_natCast n 4
  have hceil := ceil_natCast_div n (show 0 < 4 by decide)
  rw [placeValue] at hn
  refine ⟨n, hn, ?_, ?_⟩
  · rw [placeBelow, clampedInteger_down hfinite, hplace, hn, ← Nat.cast_ofNat (n := 4), hfloor,
      maxWord64]
    omega
  · rw [placeAbove, clampedInteger_up hfinite, hplace, hn, ← Nat.cast_ofNat (n := 4), hceil,
      maxWord64]
    split <;> omega

theorem placeAbove_le (hpercent : Quarters part percent) (last : Nat) :
    placeBelow (quantilePlace percent (last + 1)) ≤ placeAbove (quantilePlace percent (last + 1)) ∧
      placeAbove (quantilePlace percent (last + 1)) ≤ last := by
  by_cases hlast : isFinite (ofInteger last) = true
  · obtain ⟨n, hn, hbelow, habove⟩ := exists_places hpercent hlast
    have hle := placeValue_le hpercent.part_lt hlast
    rw [hn, div_le_iff₀ (by norm_num)] at hle
    have hle : n ≤ last * 4 := by exact_mod_cast hle
    rw [hbelow, habove]
    omega
  · have hlarge : 2 ^ 64 < last := not_le.1 (mt isFinite_ofInteger hlast)
    rw [quantilePlace_of_infinite hpercent hlast, placeBelow_infinity, placeAbove_infinity,
      maxWord64]
    omega

/-- With three samples or more, the samples next to the places of two quartiles do not
overlap. -/
theorem placeAbove_le_placeBelow {part' : Nat} {percent' : Float}
    (hpercent : Quarters part percent) (hpercent' : Quarters part' percent')
    (hlt : part < part') (hlast : 2 ≤ last) :
    placeAbove (quantilePlace percent (last + 1)) ≤
      placeBelow (quantilePlace percent' (last + 1)) := by
  by_cases hfinite : isFinite (ofInteger last) = true
  · obtain ⟨n, hn, -, habove⟩ := exists_places hpercent hfinite
    obtain ⟨n', hn', hbelow, -⟩ := exists_places hpercent' hfinite
    obtain ⟨between, hlow, hhigh⟩ :=
      exists_between hpercent.part_pos hlt hpercent'.part_lt hlast
    rw [hn, div_le_iff₀ (by norm_num)] at hlow
    rw [hn', le_div_iff₀ (by norm_num)] at hhigh
    have hlow : n ≤ between * 4 := by exact_mod_cast hlow
    have hhigh : between * 4 ≤ n' := by exact_mod_cast hhigh
    rw [habove, hbelow]
    omega
  · rw [quantilePlace_of_infinite hpercent hfinite, quantilePlace_of_infinite hpercent' hfinite,
      placeBelow_infinity, placeAbove_infinity]

theorem natCast_div_four (n : Nat) : (n / 4 : ℚ) = (n / 4 : Nat) + (n % 4 : Nat) / 4 := by
  have hdivision : (4 * (n / 4 : Nat) + (n % 4 : Nat) : ℚ) = n := by
    exact_mod_cast Nat.div_add_mod n 4
  linarith

/-- What a place has beyond the sample below it is exact. -/
theorem toRat_quantilePlace_sub (hpercent : Quarters part percent)
    (hlast : isFinite (ofInteger last) = true) {n : Nat} (hn : placeValue part last = n / 4)
    (hsmall : n < 2 ^ 54) :
    isFinite (quantilePlace percent (last + 1) - ofInteger (n / 4 : Nat)) = true ∧
      toRat (quantilePlace percent (last + 1) - ofInteger (n / 4 : Nat)) = (n % 4 : Nat) / 4 := by
  obtain ⟨hfinite, hplace⟩ := isFinite_quantilePlace hpercent hlast
  have hinteger : isFinite (ofInteger (n / 4 : Nat)) = true := isFinite_ofInteger (by omega)
  have hdifference : toRat (quantilePlace percent (last + 1)) - toRat (ofInteger (n / 4 : Nat)) =
      (n % 4 : Nat) / 4 := by
    rw [hplace, ← placeValue, hn, toRat_ofInteger_eq (by omega), natCast_div_four n]
    ring
  constructor
  · apply isFinite_sub hfinite hinteger hfinite
    rw [hdifference, hplace, ← placeValue, hn, natCast_div_four n, abs_of_nonneg (by positivity),
      abs_of_nonneg (by positivity)]
    exact le_add_of_nonneg_left (by positivity)
  · rw [toRat_sub hfinite hinteger, hdifference, (isValue_quarters (by omega)).nearestValue_eq]

/-- Between two samples, a place counts the upper one in quarters. -/
theorem exists_weight (hpercent : Quarters part percent)
    (hapart : placeBelow (quantilePlace percent (last + 1)) ≠
      placeAbove (quantilePlace percent (last + 1))) :
    ∃ weight : Nat, 0 < weight ∧ weight < 4 ∧
      isFinite (quantilePlace percent (last + 1) -
        ofInteger (placeBelow (quantilePlace percent (last + 1)))) = true ∧
      toRat (quantilePlace percent (last + 1) -
        ofInteger (placeBelow (quantilePlace percent (last + 1)))) = weight / 4 ∧
      placeValue part last = placeBelow (quantilePlace percent (last + 1)) + weight / 4 := by
  by_cases hlast : isFinite (ofInteger last) = true
  · obtain ⟨hfinite, hplace⟩ := isFinite_quantilePlace hpercent hlast
    obtain ⟨n, hn, hbelow, habove⟩ := exists_places hpercent hlast
    rw [hbelow, habove, maxWord64] at hapart
    have hrest : n % 4 ≠ 0 := by omega
    -- From there on a place is an integer.
    have hsmall : n < 2 ^ 54 := by
      by_contra hlarge
      have hvalue : (2 ^ 52 : ℚ) ≤ placeValue part last := by
        have hcast : (2 ^ 54 : ℚ) ≤ n := by exact_mod_cast not_lt.1 hlarge
        rw [hn, le_div_iff₀ (by norm_num)]
        exact le_trans (by norm_num) hcast
      obtain ⟨whole, hwhole⟩ := (isValue_nearestValue _).exists_eq_natCast hvalue
      have heq : (n : ℚ) = whole * 4 := by
        rw [← hwhole, ← placeValue, hn]
        ring
      have heq : n = whole * 4 := by exact_mod_cast heq
      omega
    have hlower : placeBelow (quantilePlace percent (last + 1)) = n / 4 := by
      rw [hbelow, maxWord64]
      omega
    obtain ⟨hweight, hvalue⟩ := toRat_quantilePlace_sub hpercent hlast hn hsmall
    rw [hlower]
    exact ⟨n % 4, Nat.pos_of_ne_zero hrest, Nat.mod_lt _ (by decide), hweight, hvalue,
      hn.trans (natCast_div_four n)⟩
  · rw [quantilePlace_of_infinite hpercent hlast, placeBelow_infinity,
      placeAbove_infinity] at hapart
    exact absurd rfl hapart

/-- With two samples, a place is as many quarters from the first one to the second. -/
theorem placeValue_one (hpart : part < 4) : placeValue part 1 = part / 4 := by
  have hone : nearestValue (1 : Nat) = (1 : Nat) := (isValue_natCast (by decide)).nearestValue_eq
  rw [placeValue, hone, Nat.cast_one, mul_one, (isValue_quarters (by omega)).nearestValue_eq]

end Places

end TimingReport
