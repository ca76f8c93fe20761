import TimingReport.Proofs.Box.Order

/-!
# Quartiles of up to `2 ^ 51` samples

The place of a quartile is a number of quarters, and up to `2 ^ 53` of these are exact in doubles.
So for up to `2 ^ 51` samples nothing is rounded until samples are interpolated: the samples
next to a place are those next to the exact place, and the weight is what the place has beyond
the lower one.
-/

namespace TimingReport

open Number
open BoxSummary (quantile quantilePlace placeBelow placeAbove)

/-- The quartiles and their percentages. -/
def quartilePercents : List (Nat × Float) := [(1, 25), (2, 50), (3, 75)]

/-! ## Places -/

section Places

variable {part last : Nat} {percent : Float}

theorem quarters_of_mem (hmem : (part, percent) ∈ quartilePercents) : Quarters part percent := by
  simp only [quartilePercents, List.mem_cons, Prod.mk.injEq, List.not_mem_nil, or_false] at hmem
  rcases hmem with ⟨rfl, rfl⟩ | ⟨rfl, rfl⟩ | ⟨rfl, rfl⟩
  · exact quarters_one
  · exact quarters_two
  · exact quarters_three

theorem placeValue_eq (hpart : part < 4) (hlast : last < 2 ^ 51) :
    placeValue part last = (part * last : Nat) / 4 := by
  have hproduct : part * last ≤ 3 * last := Nat.mul_le_mul_right _ (by omega)
  have hcount : IsValue last := isValue_natCast (by omega)
  have hplace : IsValue ((part * last : Nat) / 4) := isValue_quarters (by omega)
  rw [placeValue, hcount.nearestValue_eq, ← Nat.cast_mul, hplace.nearestValue_eq]

theorem natFloor_div_four (n : Nat) : ⌊(n / 4 : ℚ)⌋₊ = n / 4 := by
  rw [← Nat.cast_ofNat (n := 4), Nat.floor_div_eq_div]

theorem natCeil_div_four (n : Nat) : ⌈(n / 4 : ℚ)⌉₊ = (n + 3) / 4 := by
  have hceil := ceil_natCast_div n (show 0 < 4 by decide)
  rw [Nat.cast_ofNat] at hceil
  rw [← Int.ceil_toNat, hceil, Int.toNat_natCast]
  split <;> omega

/-- The samples next to a place are those next to the exact place. -/
theorem places_eq (hpercent : Quarters part percent) (hlast : last < 2 ^ 51) :
    placeBelow (quantilePlace percent (last + 1)) = ⌊((part * last : Nat) / 4 : ℚ)⌋₊ ∧
      placeAbove (quantilePlace percent (last + 1)) = ⌈((part * last : Nat) / 4 : ℚ)⌉₊ := by
  have hfinite : isFinite (ofInteger last) = true := isFinite_ofInteger (by omega)
  obtain ⟨n, hn, hbelow, habove⟩ := exists_places hpercent hfinite
  obtain rfl : part * last = n := by
    rw [placeValue_eq hpercent.part_lt hlast, div_left_inj' (by norm_num)] at hn
    exact_mod_cast hn
  have hproduct : part * last ≤ 3 * last :=
    Nat.mul_le_mul_right _ (Nat.le_of_lt_succ hpercent.part_lt)
  rw [hbelow, habove, natFloor_div_four, natCeil_div_four, maxWord64]
  omega

end Places

/-- The place of a quartile is exact, and so are the samples next to it, which are never beyond
the last one, and the weight of the upper one.  Where the place is a whole number, the quartile is
the sample at the place. -/
theorem quartile_exact {part : Nat} {percent : Float} {samples : Array Float}
    (hpercent : (part, percent) ∈ quartilePercents) (hfew : 2 ≤ samples.size)
    (hmany : samples.size ≤ 2 ^ 51) :
    let product := part * (samples.size - 1)
    let place := quantilePlace percent samples.size
    let lower := placeBelow place
    let upper := placeAbove place
    let weight := place - ofInteger lower
    isFinite place = true ∧ toRat place = product / 4 ∧
      lower = ⌊(product / 4 : ℚ)⌋₊ ∧ upper = ⌈(product / 4 : ℚ)⌉₊ ∧
      lower ≤ upper ∧ upper ≤ samples.size - 1 ∧
      isFinite weight = true ∧ toRat weight = (product % 4 : Nat) / 4 ∧
      ∃ (_ : lower < samples.size) (_ : upper < samples.size),
        quantile samples percent =
          if 4 ∣ product then samples[lower]
          else samples[lower] * (1 - weight) + samples[upper] * weight := by
  intro product place lower upper weight
  have hquarters := quarters_of_mem hpercent
  have hsize : samples.size - 1 + 1 = samples.size := Nat.sub_add_cancel (by omega)
  have hlast : samples.size - 1 < 2 ^ 51 := by omega
  have hcount : isFinite (ofInteger (samples.size - 1 : Nat)) = true :=
    isFinite_ofInteger (by omega)
  have hexact : placeValue part (samples.size - 1) = (product : Nat) / 4 :=
    placeValue_eq hquarters.part_lt hlast
  have hproduct : product ≤ 3 * (samples.size - 1) :=
    Nat.mul_le_mul_right _ (Nat.le_of_lt_succ hquarters.part_lt)
  obtain ⟨hfinite, hvalue⟩ := isFinite_quantilePlace hquarters hcount
  obtain ⟨hlower, hupper⟩ := places_eq hquarters hlast
  obtain ⟨hweight, hrest⟩ := toRat_quantilePlace_sub hquarters hcount hexact (by omega)
  obtain ⟨hle, hinside⟩ := placeAbove_le hquarters (samples.size - 1)
  rw [hsize] at hfinite hvalue hlower hupper hweight hrest hle hinside
  have hquantile : quantile samples percent = if lower = upper then samples.getD lower 0
      else samples.getD lower 0 * (1 - weight) + samples.getD upper 0 * weight := if_neg (by omega)
  -- Samples are interpolated unless the two places agree, and these agree if no quarter is left.
  have hwhole : lower = upper ↔ 4 ∣ product := by
    rw [show lower = _ from hlower, show upper = _ from hupper, natFloor_div_four, natCeil_div_four]
    omega
  rw [← natFloor_div_four, ← hlower] at hweight hrest
  have hupperLt : upper < samples.size := lt_of_le_of_lt hinside (by omega)
  have hlowerLt : lower < samples.size := lt_of_le_of_lt hle hupperLt
  refine ⟨hfinite, hvalue.trans hexact, hlower, hupper, hle, hinside, hweight, hrest, hlowerLt,
    hupperLt, ?_⟩
  rw [hquantile, Array.getElem_eq_getD 0, Array.getElem_eq_getD 0]
  exact if_congr hwhole rfl rfl

/-- The third quartile of five samples is the fourth of them; that of six is three quarters of
the way from the fourth to the fifth. -/
theorem quartile_exact_third :
    let place := quantilePlace 75 6
    let weight := place - ofInteger 3
    quantile #[1, 2, 4, 8, 16] 75 = 8 ∧
      placeBelow place = 3 ∧ placeAbove place = 4 ∧ toRat weight = 3 / 4 ∧
      quantile #[1, 2, 4, 8, 16, 32] 75 = 8 * (1 - weight) + 16 * weight := by
  have hthird : (3, 75) ∈ quartilePercents := by simp [quartilePercents]
  obtain ⟨-, -, hplace, -, -, -, -, -, _, _, hfive⟩ :=
    @quartile_exact 3 75 #[1, 2, 4, 8, 16] hthird (by decide) (by decide)
  obtain ⟨-, -, hlower, hupper, -, -, -, hrest, _, _, hsix⟩ :=
    @quartile_exact 3 75 #[1, 2, 4, 8, 16, 32] hthird (by decide) (by decide)
  rw [natFloor_div_four] at hplace hlower
  rw [natCeil_div_four] at hupper
  simp only [hplace, hlower, hupper] at hfive hrest hsix
  exact ⟨hfive, hlower, hupper, hrest, hsix⟩

end TimingReport
