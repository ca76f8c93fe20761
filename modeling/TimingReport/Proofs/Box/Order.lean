import TimingReport.Proofs.Box.Mixture
import TimingReport.Proofs.Box.Places

/-!
# The order of the five numbers

The quartiles of a column are mixtures of neighbouring samples.  They are in order as long
as halves are exact and, if there are only two samples, these are not neighbouring doubles.
Otherwise rounding can move one of them past another.
-/

namespace TimingReport

open Number
open BoxSummary (quantilePlace placeBelow placeAbove quantile sortedSamples sampleLe)

/-- A double is twice another one. -/
def HasHalf (x : Float) : Prop := ∃ half, isFinite half = true ∧ half + half = x

theorem even_units_rank {x : Float} (hx : HasHalf x) : Even (units (rank x)) := by
  obtain ⟨half, hhalf, rfl⟩ := hx
  rw [rank_add hhalf hhalf, ← two_mul]
  generalize units (rank half) = n
  by_cases hsmall : (2 * n).natAbs ≤ 2 ^ 53
  · have hdouble : IsDouble (2 * n) := by
      apply isDouble_of_natAbs
      have hmagnitude := @isDouble_mul_pow (2 * n).natAbs 0 hsmall (by decide)
      rwa [pow_zero, mul_one] at hmagnitude
    have hexact : (2 * n : ℚ) = (2 * n : Int) := by push_cast; ring
    rw [hexact, hdouble.units_rounded]
    exact even_two_mul n
  · -- Twice the half is so large that every double around is even.
    have hlarge : (2 ^ 52 * 2 ^ 1 : Int) ≤ |units (rounded (2 * n))| := by
      have hdouble : IsDouble (2 ^ 53 : Nat) := by
        simpa using @isDouble_mul_pow (2 ^ 53) 0 le_rfl (by decide)
      rcases Int.le_total 0 n with hnonneg | hneg
      · have hle := @IsDouble.le_units_rounded _ (2 * n) hdouble
          (by exact_mod_cast (show ((2 ^ 53 : Nat) : Int) ≤ 2 * n by omega))
        exact le_trans (by norm_num at hle ⊢; exact hle) (le_abs_self _)
      · have hle := @IsDouble.units_rounded_le _ (2 * n) hdouble.neg
          (by exact_mod_cast (show 2 * n ≤ -((2 ^ 53 : Nat) : Int) by omega))
        exact le_trans (by norm_num at hle ⊢; omega) (neg_le_abs _)
    obtain ⟨quotient, hquotient⟩ := dvd_units hlarge
    rw [hquotient, pow_one]
    exact even_two_mul quotient

theorem toRat_one : toRat 1 = 1 := by
  rw [@toRat_of_rank _ 1022 (2 ^ 52) rfl (by decide) (.inr le_rfl), minExponent]
  norm_num

theorem rank_mul_quarters {x factor : Float} {part : Nat} (hx : isFinite x = true)
    (hfactor : isFinite factor = true) (hpart : part ≤ 4) (hvalue : toRat factor = part / 4) :
    isFinite (x * factor) = true ∧ rank (x * factor) = share part (rank x) := by
  have hshare : rank (x * factor) = share part (rank x) := by
    rw [rank_mul hx hfactor, mul_assoc, ← toRat, hvalue, share]
  have hfinite := isFinite_iff.1 hx
  rw [isFinite_iff, hshare]
  exact ⟨(natAbs_share_le hpart hfinite.le).trans_lt hfinite, rfl⟩

/-- A mixture of doubles has the rank of the mixture of their ranks. -/
theorem rank_mixture {x y weight : Float} {part : Nat} (hx : isFinite x = true)
    (hy : isFinite y = true) (hweight : isFinite weight = true) (hpart : part ≤ 4)
    (hvalue : toRat weight = part / 4) :
    rank (x * (1 - weight) + y * weight) = mixture part (rank x) (rank y) := by
  have hone : isFinite 1 = true := rfl
  have hrest : toRat 1 - toRat weight = (4 - part : Nat) / 4 := by
    rw [toRat_one, hvalue, Nat.cast_sub hpart]
    push_cast
    ring
  have hrestFinite : isFinite (1 - weight) = true := by
    apply isFinite_sub hone hweight hone
    rw [hrest, toRat_one, abs_of_nonneg (by positivity), abs_one, div_le_one (by norm_num)]
    exact_mod_cast Nat.sub_le 4 part
  have hrestValue : toRat (1 - weight) = (4 - part : Nat) / 4 := by
    rw [toRat_sub hone hweight, hrest, (isValue_quarters (by omega)).nearestValue_eq]
  have hlow := rank_mul_quarters hx hrestFinite (Nat.sub_le 4 part) hrestValue
  have hhigh := rank_mul_quarters hy hweight hpart hvalue
  rw [rank_add hlow.1 hhigh.1, hlow.2, hhigh.2, mixture]

/-- Ascending finite samples with halves. -/
structure Samples (samples : Array Float) : Prop where
  finite : ∀ i, i < samples.size → isFinite (samples.getD i 0) = true
  even : ∀ i, i < samples.size → Even (units (rank (samples.getD i 0)))
  mono : ∀ i j, i ≤ j → j < samples.size → rank (samples.getD i 0) ≤ rank (samples.getD j 0)

namespace Samples

variable {samples : Array Float} {part last : Nat} {percent : Float}

/-- Where a place is a sample, that sample is the quantile. -/
theorem quantile_of_eq (hsize : samples.size = last + 1) (hlast : 1 ≤ last)
    (heq : placeBelow (quantilePlace percent (last + 1)) =
      placeAbove (quantilePlace percent (last + 1))) :
    quantile samples percent =
      samples.getD (placeBelow (quantilePlace percent (last + 1))) 0 := by
  rw [quantile, if_neg (by omega), hsize, if_pos heq]

/-- Where a place is between two samples, the quantile is a mixture of these. -/
theorem rank_quantile (hfinite : ∀ i, i < samples.size → isFinite (samples.getD i 0) = true)
    (hpercent : Quarters part percent) (hsize : samples.size = last + 1) (hlast : 1 ≤ last)
    (hapart : placeBelow (quantilePlace percent (last + 1)) ≠
      placeAbove (quantilePlace percent (last + 1))) :
    ∃ weight : Nat, 0 < weight ∧ weight < 4 ∧
      placeValue part last = placeBelow (quantilePlace percent (last + 1)) + weight / 4 ∧
      rank (quantile samples percent) =
        mixture weight (rank (samples.getD (placeBelow (quantilePlace percent (last + 1))) 0))
          (rank (samples.getD (placeAbove (quantilePlace percent (last + 1))) 0)) := by
  obtain ⟨hle, habove⟩ := placeAbove_le hpercent last
  obtain ⟨weight, hpositive, hlt, hweight, hvalue, hplace⟩ := exists_weight hpercent hapart
  refine ⟨weight, hpositive, hlt, hplace, ?_⟩
  rw [quantile, if_neg (by omega), hsize, if_neg hapart]
  exact rank_mixture (hfinite _ (by omega)) (hfinite _ (by omega)) hweight hlt.le hvalue

theorem quantile_mem (hsamples : Samples samples) (hpercent : Quarters part percent)
    (hsize : samples.size = last + 1) (hlast : 1 ≤ last) :
    rank (samples.getD (placeBelow (quantilePlace percent (last + 1))) 0) ≤
        rank (quantile samples percent) ∧
      rank (quantile samples percent) ≤
        rank (samples.getD (placeAbove (quantilePlace percent (last + 1))) 0) := by
  obtain ⟨hle, habove⟩ := placeAbove_le hpercent last
  by_cases hapart : placeBelow (quantilePlace percent (last + 1)) =
      placeAbove (quantilePlace percent (last + 1))
  · rw [quantile_of_eq hsize hlast hapart, ← hapart]
    exact ⟨le_rfl, le_rfl⟩
  · obtain ⟨weight, hpositive, hlt, -, hrank⟩ :=
      rank_quantile hsamples.finite hpercent hsize hlast hapart
    have hlow : placeBelow (quantilePlace percent (last + 1)) < samples.size := by omega
    have hhigh : placeAbove (quantilePlace percent (last + 1)) < samples.size := by omega
    rw [hrank]
    apply mixture_mem (hsamples.mono _ _ hle hhigh) (isFinite_iff.1 (hsamples.finite _ hlow))
      (isFinite_iff.1 (hsamples.finite _ hhigh))
    obtain rfl | rfl | rfl : weight = 1 ∨ weight = 2 ∨ weight = 3 := by omega
    · exact .inl rfl
    · exact .inr (.inl ⟨rfl, hsamples.even _ hlow, hsamples.even _ hhigh⟩)
    · exact .inr (.inr rfl)

/-- The quantiles of finite samples are finite. -/
theorem isFinite_quantile (hfinite : ∀ i, i < samples.size → isFinite (samples.getD i 0) = true)
    (hpercent : Quarters part percent) (hsize : samples.size = last + 1) :
    isFinite (quantile samples percent) = true := by
  rcases Nat.eq_zero_or_pos last with rfl | hlast
  · rw [quantile, if_pos hsize]
    exact hfinite 0 (by omega)
  · obtain ⟨hle, habove⟩ := placeAbove_le hpercent last
    have hlow := hfinite (placeBelow (quantilePlace percent (last + 1))) (by omega)
    have hhigh := hfinite (placeAbove (quantilePlace percent (last + 1))) (by omega)
    by_cases hapart : placeBelow (quantilePlace percent (last + 1)) =
        placeAbove (quantilePlace percent (last + 1))
    · rwa [quantile_of_eq hsize hlast hapart]
    · obtain ⟨weight, hpositive, hlt, -, hrank⟩ :=
        rank_quantile hfinite hpercent hsize hlast hapart
      rw [isFinite_iff, hrank]
      exact natAbs_mixture_lt (isFinite_iff.1 hlow) (isFinite_iff.1 hhigh) (by omega)

/-- The quartiles of three samples or more have a sample at or between them. -/
theorem quantile_le_quantile {part' : Nat} {percent' : Float} (hsamples : Samples samples)
    (hpercent : Quarters part percent) (hpercent' : Quarters part' percent') (hlt : part < part')
    (hsize : samples.size = last + 1) (hlast : 2 ≤ last) :
    rank (quantile samples percent) ≤ rank (quantile samples percent') := by
  have hlow := (hsamples.quantile_mem hpercent hsize (by omega)).2
  have hhigh := (hsamples.quantile_mem hpercent' hsize (by omega)).1
  obtain ⟨hle, habove⟩ := placeAbove_le hpercent' last
  have hbetween := hsamples.mono _ _ (placeAbove_le_placeBelow hpercent hpercent' hlt hlast)
    (by omega)
  exact hlow.trans (hbetween.trans hhigh)

/-- The quartiles of two samples are mixtures by the very quarters. -/
theorem rank_quantile_pair
    (hfinite : ∀ i, i < samples.size → isFinite (samples.getD i 0) = true)
    (hpercent : Quarters part percent) (hsize : samples.size = 2) :
    rank (quantile samples percent) =
      mixture part (rank (samples.getD 0 0)) (rank (samples.getD 1 0)) := by
  obtain ⟨n, hn, hbelow, habove⟩ :=
    exists_places hpercent (isFinite_ofInteger (show 1 ≤ 2 ^ 64 by decide))
  have hpositive := hpercent.part_pos
  have hpart := hpercent.part_lt
  obtain rfl : n = part := by
    rw [placeValue_one hpart, div_left_inj' (by norm_num)] at hn
    exact_mod_cast hn.symm
  have hlower : placeBelow (quantilePlace percent (1 + 1)) = 0 := by omega
  have hupper : placeAbove (quantilePlace percent (1 + 1)) = 1 := by
    rw [habove, maxWord64]
    omega
  obtain ⟨weight, -, -, hplace, hrank⟩ :=
    rank_quantile hfinite hpercent hsize le_rfl (by omega)
  obtain rfl : weight = n := by
    rw [hn, hlower, Nat.cast_zero, zero_add, div_left_inj' (by norm_num)] at hplace
    exact_mod_cast hplace.symm
  rw [hrank, hlower, hupper]

/-- The order of the quartiles of two samples.  Halves are exact, and what the other two
lose is less than what they differ from the median by. -/
theorem quantile_le_quantile_pair (hsamples : Samples samples) (hsize : samples.size = 2)
    (hgap : rank (samples.getD 0 0) = rank (samples.getD 1 0) ∨
      rank (samples.getD 0 0) + 2 ≤ rank (samples.getD 1 0)) :
    rank (quantile samples 25) ≤ rank (quantile samples 50) ∧
      rank (quantile samples 50) ≤ rank (quantile samples 75) := by
  have hlowFinite := isFinite_iff.1 (hsamples.finite 0 (by omega))
  have hhighFinite := isFinite_iff.1 (hsamples.finite 1 (by omega))
  have hlowEven := hsamples.even 0 (by omega)
  have hhighEven := hsamples.even 1 (by omega)
  rw [rank_quantile_pair hsamples.finite quarters_one hsize,
    rank_quantile_pair hsamples.finite quarters_two hsize,
    rank_quantile_pair hsamples.finite quarters_three hsize]
  rcases hgap with hsame | hapart
  · rw [← hsame, mixture_self hlowFinite (.inl rfl),
      mixture_self hlowFinite (.inr (.inl ⟨rfl, hlowEven⟩)),
      mixture_self hlowFinite (.inr (.inr rfl))]
    exact ⟨le_rfl, le_rfl⟩
  · exact ⟨mixture_one_le_two hapart hlowFinite hhighFinite hlowEven hhighEven,
      mixture_two_le_three hapart hlowFinite hhighFinite hlowEven hhighEven⟩

theorem quantile_bounds (hsamples : Samples samples) (hpercent : Quarters part percent)
    (hsize : samples.size = last + 1) :
    isFinite (quantile samples percent) = true ∧
      rank (samples.getD 0 0) ≤ rank (quantile samples percent) ∧
      rank (quantile samples percent) ≤ rank (samples.getD last 0) := by
  rcases Nat.eq_zero_or_pos last with rfl | hlast
  · rw [quantile, if_pos hsize]
    exact ⟨hsamples.finite 0 (by omega), le_rfl, le_rfl⟩
  · obtain ⟨hle, habove⟩ := placeAbove_le hpercent last
    obtain ⟨hlow, hhigh⟩ := hsamples.quantile_mem hpercent hsize hlast
    exact ⟨isFinite_quantile hsamples.finite hpercent hsize,
      (hsamples.mono _ _ (Nat.zero_le _) (by omega)).trans hlow,
      hhigh.trans (hsamples.mono _ _ habove (by omega))⟩

theorem quartiles_ordered (hsamples : Samples samples) (hsize : samples.size = last + 1)
    (hgap : last = 1 → rank (samples.getD 0 0) = rank (samples.getD 1 0) ∨
      rank (samples.getD 0 0) + 2 ≤ rank (samples.getD 1 0)) :
    rank (quantile samples 25) ≤ rank (quantile samples 50) ∧
      rank (quantile samples 50) ≤ rank (quantile samples 75) := by
  by_cases hsingle : last = 0
  · have hquantile : ∀ percent, quantile samples percent = samples.getD 0 0 := fun percent =>
      if_pos (by omega)
    rw [hquantile, hquantile, hquantile]
    exact ⟨le_rfl, le_rfl⟩
  by_cases hpair : last = 1
  · exact hsamples.quantile_le_quantile_pair (by omega) (hgap hpair)
  · exact ⟨hsamples.quantile_le_quantile quarters_one quarters_two (by decide) hsize (by omega),
      hsamples.quantile_le_quantile quarters_two quarters_three (by decide) hsize (by omega)⟩

end Samples

/-! ## Columns -/

theorem orderKey_eq (x : Float) : orderKey x = if isNegative x then rank x - 1 else rank x := by
  have hsize : x.toBits.toNat < 2 ^ 64 := x.toBits.toNat_lt
  by_cases hsign : signPattern ≤ x.toBits.toNat
  · rw [orderKey, rank, isNegative, decide_eq_true hsign]
    exact if_pos hsign
  · rw [orderKey, rank, isNegative, decide_eq_false hsign, if_neg Bool.false_ne_true,
      if_neg Bool.false_ne_true, Nat.mod_eq_of_lt (not_le.1 hsign)]
    exact if_neg hsign

theorem rank_le_of_orderKey_le {x y : Float} (hle : orderKey x ≤ orderKey y) :
    rank x ≤ rank y := by
  have hx := rank_eq x
  have hy := rank_eq y
  rw [orderKey_eq, orderKey_eq] at hle
  cases hxSign : isNegative x <;> cases hySign : isNegative y <;>
    simp only [hxSign, hySign, apply_signOf_false, apply_signOf_true, if_true,
      Bool.false_eq_true, if_false] at hx hy hle <;> omega

theorem sortedSamples_of_isFinite {values : List Float}
    (hfinite : ∀ x ∈ values, isFinite x = true) :
    sortedSamples values = values.mergeSort sampleLe := by
  have hnumbers : values.filter (fun x => !x.isNaN) = values := by
    rw [List.filter_eq_self]
    intro x hx
    rw [isNaN_eq_false_of_isFinite (hfinite x hx)]
    rfl
  rw [sortedSamples, hnumbers]

theorem perm_sortedSamples {values : List Float} (hfinite : ∀ x ∈ values, isFinite x = true) :
    (sortedSamples values).Perm values :=
  sortedSamples_of_isFinite hfinite ▸ List.mergeSort_perm values sampleLe

theorem ascending_sortedSamples (values : List Float) :
    (sortedSamples values).Pairwise fun x y => orderKey x ≤ orderKey y := by
  have hsorted := @List.pairwise_mergeSort _ sampleLe
    (fun x y z hxy hyz => by
      simp only [sampleLe, decide_eq_true_eq] at *
      omega)
    (fun x y => by
      simp only [sampleLe, Bool.or_eq_true, decide_eq_true_eq]
      omega)
    (values.filter (fun x => !x.isNaN))
  exact hsorted.imp of_decide_eq_true

theorem pairwise_sortedSamples (values : List Float) :
    (sortedSamples values).Pairwise fun x y => rank x ≤ rank y :=
  (ascending_sortedSamples values).imp rank_le_of_orderKey_le

/-- A column has a box exactly if it holds a number. -/
theorem ofSamples_eq_some_iff {tag : String} {values : List Float} {box : BoxSummary} :
    BoxSummary.ofSamples tag values = some box ↔
      sortedSamples values ≠ [] ∧ BoxSummary.ofSorted tag (sortedSamples values) = box := by
  rw [BoxSummary.ofSamples]
  by_cases hempty : sortedSamples values = [] <;> simp [hempty]

theorem ofSamples_of_isFinite (tag : String) {values : List Float} (hvalues : values ≠ [])
    (hfinite : ∀ x ∈ values, isFinite x = true) :
    BoxSummary.ofSamples tag values = some (BoxSummary.ofSorted tag (sortedSamples values)) := by
  refine ofSamples_eq_some_iff.2 ⟨fun hempty => hvalues ?_, rfl⟩
  have hperm := perm_sortedSamples hfinite
  rw [hempty] at hperm
  exact hperm.nil_eq.symm

theorem getD_toArray {sorted : List Float} {i : Nat} (hi : i < sorted.length) :
    sorted.toArray.getD i 0 = sorted[i] := by
  simp [hi]

theorem getD_toArray_mem {sorted : List Float} {i : Nat} (hi : i < sorted.toArray.size) :
    sorted.toArray.getD i 0 ∈ sorted := by
  rw [List.size_toArray] at hi
  rw [getD_toArray hi]
  exact List.getElem_mem hi

/-- The places of a column that holds a number, and the samples at them. -/
theorem exists_last_sortedSamples {values : List Float} (hvalues : values ≠ [])
    (hfinite : ∀ x ∈ values, isFinite x = true) :
    ∃ last, values.length = last + 1 ∧ (sortedSamples values).toArray.size = last + 1 ∧
      ∀ i, i ≤ last → (sortedSamples values).toArray.getD i 0 ∈ values := by
  have hperm := perm_sortedSamples hfinite
  obtain ⟨last, hlast⟩ := Nat.exists_eq_succ_of_ne_zero (mt List.length_eq_zero_iff.1 hvalues)
  have hsize : (sortedSamples values).toArray.size = last + 1 := by
    rw [List.size_toArray, hperm.length_eq, hlast]
  exact ⟨last, hlast, hsize, fun i hi => hperm.mem_iff.1 (getD_toArray_mem (by omega))⟩

theorem samples_sortedSamples {values : List Float} (hfinite : ∀ x ∈ values, isFinite x = true)
    (hhalf : ∀ x ∈ values, HasHalf x) : Samples (sortedSamples values).toArray := by
  have hperm := perm_sortedSamples hfinite
  constructor
  · exact fun i hi => hfinite _ (hperm.mem_iff.1 (getD_toArray_mem hi))
  · exact fun i hi => even_units_rank (hhalf _ (hperm.mem_iff.1 (getD_toArray_mem hi)))
  · intro i j hle hj
    rw [List.size_toArray] at hj
    rw [getD_toArray hj, getD_toArray (hle.trans_lt hj)]
    rcases hle.eq_or_lt with rfl | hlt
    · exact le_rfl
    · exact List.pairwise_iff_getElem.1 (pairwise_sortedSamples values) i j _ hj hlt

/-- The five numbers of a column are in order, unless it has samples that are not twice a
double, or nothing but two neighbouring doubles. -/
theorem ofSamples_ordered (tag : String) {values : List Float} (hvalues : values ≠ [])
    (hfinite : ∀ x ∈ values, isFinite x = true) (hhalf : ∀ x ∈ values, HasHalf x)
    (hpair : values.length = 2 → ∀ x ∈ values, ∀ y ∈ values, x < y →
      ∃ z, isFinite z = true ∧ x < z ∧ z < y) :
    ∃ box, BoxSummary.ofSamples tag values = some box ∧
      box.min ≤ box.q1 ∧ box.q1 ≤ box.median ∧ box.median ≤ box.q3 ∧ box.q3 ≤ box.max ∧
      box.min ∈ values ∧ box.max ∈ values ∧ ∀ x ∈ values, box.min ≤ x ∧ x ≤ box.max := by
  have hsamples := samples_sortedSamples hfinite hhalf
  obtain ⟨last, hlast, hsize, hitem⟩ := exists_last_sortedSamples hvalues hfinite
  have hgap : last = 1 →
      rank ((sortedSamples values).toArray.getD 0 0) =
          rank ((sortedSamples values).toArray.getD 1 0) ∨
        rank ((sortedSamples values).toArray.getD 0 0) + 2 ≤
          rank ((sortedSamples values).toArray.getD 1 0) := by
    intro hone
    have hle := hsamples.mono 0 1 (by decide) (by omega)
    have hlow := hitem 0 (by omega)
    have hhigh := hitem 1 (by omega)
    rcases hle.eq_or_lt with hsame | hlt
    · exact .inl hsame
    · obtain ⟨z, hz, hlowZ, hzHigh⟩ := hpair (by omega) _ hlow _ hhigh
        ((lt_iff_rank_lt (hfinite _ hlow) (hfinite _ hhigh)).2 hlt)
      rw [lt_iff_rank_lt (hfinite _ hlow) hz] at hlowZ
      rw [lt_iff_rank_lt hz (hfinite _ hhigh)] at hzHigh
      exact .inr (by omega)
  obtain ⟨hfirst, hsecond⟩ := hsamples.quartiles_ordered hsize hgap
  obtain ⟨hq1, hminQ1, -⟩ := hsamples.quantile_bounds quarters_one hsize
  obtain ⟨hmedian, -, -⟩ := hsamples.quantile_bounds quarters_two hsize
  obtain ⟨hq3, -, hq3Max⟩ := hsamples.quantile_bounds quarters_three hsize
  have hmin := hfinite _ (hitem 0 (Nat.zero_le _))
  have hmax := hfinite _ (hitem last le_rfl)
  have hmaxIndex : (sortedSamples values).length - 1 = last := by
    rw [← List.size_toArray, hsize, Nat.add_sub_cancel]
  refine ⟨_, ofSamples_of_isFinite tag hvalues hfinite, ?_, ?_, ?_, ?_, ?_, ?_, ?_⟩
  · exact (le_iff_rank_le hmin hq1).2 hminQ1
  · exact (le_iff_rank_le hq1 hmedian).2 hfirst
  · exact (le_iff_rank_le hmedian hq3).2 hsecond
  · simp only [BoxSummary.ofSorted, hmaxIndex]
    exact (le_iff_rank_le hq3 hmax).2 hq3Max
  · exact hitem 0 (Nat.zero_le _)
  · simp only [BoxSummary.ofSorted, hmaxIndex]
    exact hitem last le_rfl
  · intro x hx
    obtain ⟨i, hi, rfl⟩ :=
      List.getElem_of_mem ((perm_sortedSamples hfinite).mem_iff.2 hx)
    simp only [BoxSummary.ofSorted, hmaxIndex]
    have hlow := hsamples.mono 0 i (Nat.zero_le _) (by omega)
    have hhigh := hsamples.mono i last (by omega) (by omega)
    rw [getD_toArray hi] at hlow hhigh
    exact ⟨(le_iff_rank_le hmin (hfinite _ hx)).2 hlow,
      (le_iff_rank_le (hfinite _ hx) hmax).2 hhigh⟩

theorem ofSamples_ordered_one_three :
    ∃ box, BoxSummary.ofSamples "a" [1, 3] = some box ∧
      box.min ≤ box.q1 ∧ box.q1 ≤ box.median ∧ box.median ≤ box.q3 ∧ box.q3 ≤ box.max ∧
      box.min ∈ [1, 3] ∧ box.max ∈ [1, 3] ∧ ∀ x ∈ [1, 3], box.min ≤ x ∧ x ≤ box.max := by
  apply ofSamples_ordered "a" (List.cons_ne_nil _ _)
  · decide +kernel
  · rw [List.forall_mem_cons, List.forall_mem_singleton]
    exact ⟨⟨0.5, by decide +kernel, by decide +kernel⟩, ⟨1.5, by decide +kernel, by decide +kernel⟩⟩
  · intro _ x hx y hy hlt
    refine ⟨2, by decide +kernel, ?_⟩
    have hends : ∀ x ∈ [1, 3], ∀ y ∈ [1, 3], x < y → x < 2 ∧ (2 : Float) < y := by decide +kernel
    exact hends x hx y hy hlt

/-! ## Columns out of order -/

theorem ofSamples_of_pairwise (tag : String) {values : List Float} (hvalues : values ≠ [])
    (hfinite : ∀ x ∈ values, isFinite x = true)
    (hsorted : values.Pairwise fun x y => sampleLe x y = true) :
    BoxSummary.ofSamples tag values = some (BoxSummary.ofSorted tag values) := by
  have hsame : sortedSamples values = values := by
    rw [sortedSamples_of_isFinite hfinite, List.mergeSort_of_pairwise hsorted]
  rw [ofSamples_eq_some_iff, hsame]
  exact ⟨hvalues, rfl⟩

/-- Of these two neighbouring doubles, the upper one becomes the first quartile and the lower
one the third.  No sample is within the whiskers, and both are outliers. -/
theorem ofSamples_neighbours :
    ∃ box, BoxSummary.ofSamples "a" [9007199254740989, 9007199254740990] = some box ∧
      box.q1 = 9007199254740990 ∧ box.median = 9007199254740990 ∧
      box.q3 = 9007199254740989 ∧ box.outliers = [9007199254740989, 9007199254740990] := by
  refine ⟨_, ofSamples_of_pairwise _ (List.cons_ne_nil _ _) ?_ ?_, ?_⟩
  · decide +kernel
  · decide +kernel
  · decide +kernel

/-- The smallest positive double has no half, so the median of two of it is zero. -/
theorem ofSamples_smallest :
    ∃ box, BoxSummary.ofSamples "a" [5e-324, 5e-324] = some box ∧
      box.min = 5e-324 ∧ box.median = 0 := by
  refine ⟨_, ofSamples_of_pairwise _ (List.cons_ne_nil _ _) ?_ ?_, ?_⟩
  · decide +kernel
  · decide +kernel
  · decide +kernel

end TimingReport
