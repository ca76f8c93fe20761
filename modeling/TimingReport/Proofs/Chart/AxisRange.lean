import TimingReport.Chart.Axis
import TimingReport.Proofs.Box.Parts
import TimingReport.Proofs.Box.Spread

/-!
# The range of the vertical axis

A range without a bound holds zero and all samples, and the room beyond the data is too large
to be lost when it is rounded, so the ends of the range differ.  Infinite samples make an end
of the range infinite and leave the chart without an axis.
-/

namespace TimingReport

open Number

namespace Chart

/-- A range that a vertical axis can be drawn for, and that values can be pinned to. -/
structure Range.Drawable (range : Range) : Prop where
  low_finite : isFinite range.low = true
  high_finite : isFinite range.high = true
  ordered : range.low < range.high

def Range.Holds (range : Range) (x : Float) : Prop := range.low ≤ x ∧ x ≤ range.high

/-! ## The least and the greatest -/

section Extremes

variable {x y : Float}

theorem lesser_spec (hx : x.isNaN = false) (hy : y.isNaN = false) :
    (lesser x y).isNaN = false ∧ rank (lesser x y) ≤ rank x ∧ rank (lesser x y) ≤ rank y := by
  rw [lesser]
  split
  · next hlt => exact ⟨hy, ((lt_iff_rank_lt_of_isNaN hy hx).1 hlt).le, le_rfl⟩
  · next hge => exact ⟨hx, le_rfl, not_lt.1 (mt (lt_iff_rank_lt_of_isNaN hy hx).2 hge)⟩

theorem greater_spec (hx : x.isNaN = false) (hy : y.isNaN = false) :
    (greater x y).isNaN = false ∧ rank x ≤ rank (greater x y) ∧ rank y ≤ rank (greater x y) := by
  rw [greater]
  split
  · next hlt => exact ⟨hy, ((lt_iff_rank_lt_of_isNaN hx hy).1 hlt).le, le_rfl⟩
  · next hge => exact ⟨hx, le_rfl, not_lt.1 (mt (lt_iff_rank_lt_of_isNaN hx hy).2 hge)⟩

/-- Choosing the more extreme of two numbers again and again gives one that is more extreme
than all. -/
theorem foldl_extreme {choose : Float → Float → Float} {R : Int → Int → Prop}
    (hrefl : ∀ rank, R rank rank) (htrans : ∀ {a b c}, R a b → R b c → R a c)
    (hchoose : ∀ {x y : Float}, x.isNaN = false → y.isNaN = false →
      (choose x y).isNaN = false ∧ R (rank (choose x y)) (rank x) ∧ R (rank (choose x y)) (rank y))
    {start : Float} (hstart : start.isNaN = false) {xs : List Float}
    (hxs : ∀ x ∈ xs, x.isNaN = false) :
    (xs.foldl choose start).isNaN = false ∧ R (rank (xs.foldl choose start)) (rank start) ∧
      ∀ x ∈ xs, R (rank (xs.foldl choose start)) (rank x) := by
  induction xs generalizing start with
  | nil => exact ⟨hstart, hrefl _, fun x hx => absurd hx List.not_mem_nil⟩
  | cons x xs ih =>
    obtain ⟨hnumber, hchosenStart, hchosen⟩ := hchoose hstart (hxs x List.mem_cons_self)
    obtain ⟨hfold, hfoldChosen, hrest⟩ :=
      ih hnumber fun other hother => hxs other (List.mem_cons_of_mem _ hother)
    refine ⟨hfold, htrans hfoldChosen hchosenStart, ?_⟩
    rw [List.forall_mem_cons]
    exact ⟨htrans hfoldChosen hchosen, hrest⟩

end Extremes

/-! ## Room beyond the data -/

/-- What the room beyond the data is a part of. -/
def spanOf (least greatest : Float) : Float :=
  if least < greatest then greatest - least else greater greatest.abs 1

/-- The range that holds zero and two numbers, with room beyond them. -/
def paddedRange (least greatest : Float) : Range :=
  let room := spanOf least greatest * slack
  let low := if least < 0 then least - room else least
  ⟨low, greater greatest low + room⟩

theorem fittedRange_eq (boxes : List BoxSummary) :
    fittedRange boxes = paddedRange ((boxes.map BoxSummary.min).foldl lesser 0)
      ((boxes.map BoxSummary.max).foldl greater leastFinite) := rfl

theorem isFinite_slack : isFinite slack = true := rfl

theorem toRat_slack_mem : 1 / 32 ≤ toRat slack ∧ toRat slack ≤ 1 := by
  rw [@toRat_of_rank _ 1017 7205759403792794 rfl (by decide) (.inr (by decide)),
    minExponent]
  norm_num

theorem rank_room {span : Float} (hspan : isFinite span = true) :
    rank (span * slack) = rounded (units (rank span) * toRat slack) := by
  rw [rank_mul hspan isFinite_slack, mul_assoc, ← toRat]

/-- From one on, a span is so large that its 32nd part is a double. -/
theorem units_le_room {span : Float} (hspan : isFinite span = true) (hone : rank 1 ≤ rank span) :
    (units (rank span) : ℚ) ≤ 32 * units (rank (span * slack)) := by
  have hlarge : (2 ^ 52 * 2 ^ 5 : Int) ≤ units (rank span) := by
    have hfive : ((5 * fractionSize + 2 ^ 52 : Nat) : Int) ≤ rank 1 := by decide +kernel
    have hunits := units_strictMono.monotone (hfive.trans hone)
    rwa [units_natCast, scaled_add (by decide) (.inr le_rfl)] at hunits
  obtain ⟨part, hpart⟩ := dvd_units (hlarge.trans (le_abs_self _))
  have hdouble : IsDouble part :=
    isDouble_of_mul (isFinite_iff.1 hspan) (hpart.trans (mul_comm _ _))
  have hcast : (units (rank span) : ℚ) = 32 * part := by
    rw [hpart]
    push_cast
    norm_num
  have hnonneg : (0 : ℚ) ≤ part := by
    have hpositive : (0 : ℚ) ≤ units (rank span) := by exact_mod_cast le_trans (by norm_num) hlarge
    linarith
  have hle : (part : ℚ) ≤ units (rank span) * toRat slack := by
    calc (part : ℚ) = 32 * part * (1 / 32) := by ring
      _ ≤ units (rank span) * toRat slack := by
        rw [hcast]
        exact mul_le_mul_of_nonneg_left toRat_slack_mem.1 (by positivity)
  have hroom : (part : ℚ) ≤ units (rank (span * slack)) := by
    rw [rank_room hspan]
    exact_mod_cast hdouble.le_units_rounded hle
  rw [hcast]
  linarith

theorem abs_units_room_le {span : Float} (hspan : isFinite span = true) :
    |(units (rank (span * slack)) : ℚ)| ≤ 2 * |(units (rank span) : ℚ)| := by
  obtain ⟨hlow, hhigh⟩ := toRat_slack_mem
  rw [rank_room hspan]
  calc |(units (rounded (units (rank span) * toRat slack)) : ℚ)|
      ≤ 2 * |units (rank span) * toRat slack| := abs_units_rounded_le _
    _ = 2 * (|(units (rank span) : ℚ)| * toRat slack) := by
      rw [abs_mul, abs_of_nonneg (show 0 ≤ toRat slack by linarith)]
    _ ≤ 2 * |(units (rank span) : ℚ)| := by
      gcongr
      exact mul_le_of_le_one_right (abs_nonneg _) hhigh

/-! ## Padded ranges -/

section Padded

variable {least greatest : Float}

/-- Where the least number is not below the greatest, the span is at least one and at least
the magnitude of the greatest. -/
theorem le_rank_spanOf (hgreatest : isFinite greatest = true) (hlt : ¬least < greatest) :
    rank 1 ≤ rank (spanOf least greatest) ∧ |rank greatest| ≤ rank (spanOf least greatest) := by
  have habs := rank_abs hgreatest
  have hnumber : greatest.abs.isNaN = false := by
    rw [isNaN_eq_false_iff, habs, Int.natAbs_abs]
    exact (isFinite_iff.1 hgreatest).le
  obtain ⟨-, hmagnitude, hone⟩ := greater_spec hnumber (show Float.isNaN 1 = false from rfl)
  rw [spanOf, if_neg hlt]
  exact ⟨hone, habs ▸ hmagnitude⟩

theorem rank_spanOf_nonneg (hleast : isFinite least = true) (hgreatest : isFinite greatest = true) :
    0 ≤ rank (spanOf least greatest) := by
  by_cases hlt : least < greatest
  · rw [spanOf, if_pos hlt]
    have hle := ((lt_iff_rank_lt hleast hgreatest).1 hlt).le
    exact (nonNegative_sub hleast hgreatest hle).rank_nonneg
  · exact (show 0 ≤ rank 1 by decide +kernel).trans (le_rank_spanOf hgreatest hlt).1

/-- Data that are finite together with everything that their range is computed from. -/
structure FinitelyPadded (least greatest : Float) : Prop where
  least_finite : isFinite least = true
  greatest_finite : isFinite greatest = true
  span_finite : isFinite (spanOf least greatest) = true
  low_finite : isFinite (paddedRange least greatest).low = true
  high_finite : isFinite (paddedRange least greatest).high = true
  rank_least : rank least ≤ 0

/-- A range with finite ends has finite data, since no operation gets back from infinity. -/
theorem finitelyPadded (hleast : least.isNaN = false) (hgreatest : greatest.isNaN = false)
    (hzero : rank least ≤ 0) (hbottom : rank leastFinite ≤ rank greatest)
    (hlow : isFinite (paddedRange least greatest).low = true)
    (hhigh : isFinite (paddedRange least greatest).high = true) :
    FinitelyPadded least greatest := by
  have hspan := (isFinite_of_isFinite_mul (isFinite_of_isFinite_add hhigh).2).1
  have hleastFinite : isFinite least = true := by
    by_cases hnegative : least < 0
    · rw [paddedRange, if_pos hnegative] at hlow
      exact (isFinite_of_isFinite_sub hlow).1
    · rwa [paddedRange, if_neg hnegative] at hlow
  refine ⟨hleastFinite, ?_, hspan, hlow, hhigh, hzero⟩
  by_cases hlt : least < greatest
  · rw [spanOf, if_pos hlt] at hspan
    exact (isFinite_of_isFinite_sub hspan).1
  · have hle := not_lt.1 (mt (lt_iff_rank_lt_of_isNaN hleast hgreatest).2 hlt)
    have hbottomRank : rank leastFinite = 1 - infinityPattern := rfl
    rw [isFinite_iff]
    omega

namespace FinitelyPadded

variable (hpadded : FinitelyPadded least greatest)

include hpadded

theorem room : NonNegative (spanOf least greatest * slack) :=
  nonNegative_mul hpadded.span_finite isFinite_slack
    (rank_spanOf_nonneg hpadded.least_finite hpadded.greatest_finite) (by decide +kernel)

theorem low_le : rank (paddedRange least greatest).low ≤ rank least := by
  rw [← le_iff_rank_le hpadded.low_finite hpadded.least_finite]
  by_cases hnegative : least < 0
  · rw [paddedRange, if_pos hnegative]
    exact hpadded.room.sub_le hpadded.least_finite
  · rw [paddedRange, if_neg hnegative]
    exact (le_iff_rank_le hpadded.least_finite hpadded.least_finite).2 le_rfl

theorem le_high : rank greatest ≤ rank (paddedRange least greatest).high := by
  have hpinned := (isFinite_of_isFinite_add hpadded.high_finite).1
  obtain ⟨-, hle, -⟩ := greater_spec (isNaN_eq_false_of_isFinite hpadded.greatest_finite)
    (isNaN_eq_false_of_isFinite hpadded.low_finite)
  exact hle.trans ((le_iff_rank_le hpinned hpadded.high_finite).1 (hpadded.room.le_add hpinned))

theorem abs_units_least_le (hlt : ¬least < greatest) :
    |(units (rank least) : ℚ)| ≤ units (rank (spanOf least greatest)) := by
  have hle := not_lt.1 (mt (lt_iff_rank_lt hpadded.least_finite hpadded.greatest_finite).2 hlt)
  have hzero := hpadded.rank_least
  obtain ⟨-, hmagnitude⟩ := le_rank_spanOf hpadded.greatest_finite hlt
  rw [abs_of_nonpos (hle.trans hzero)] at hmagnitude
  have hneg := units_strictMono.monotone (show -rank least ≤ rank (spanOf least greatest) by omega)
  have hzeroUnits := units_strictMono.monotone hzero
  rw [units_neg] at hneg
  rw [units_zero] at hzeroUnits
  rw [abs_of_nonpos (by exact_mod_cast hzeroUnits)]
  exact_mod_cast hneg

/-- What the lower end is away from zero is a small multiple of the span. -/
theorem abs_units_low_le (hlt : ¬least < greatest) :
    |(units (rank (paddedRange least greatest).low) : ℚ)| ≤
      6 * units (rank (spanOf least greatest)) := by
  have hleast := hpadded.abs_units_least_le hlt
  by_cases hnegative : least < 0
  · have hroom := abs_units_room_le hpadded.span_finite
    have hrank : rank (paddedRange least greatest).low = rounded
        (units (rank least) - units (rank (spanOf least greatest * slack))) := by
      rw [paddedRange, if_pos hnegative]
      exact rank_sub hpadded.least_finite (isFinite_of_isFinite_add hpadded.high_finite).2
    rw [abs_of_nonneg ((abs_nonneg _).trans hleast)] at hroom
    rw [hrank]
    calc |(units (rounded (units (rank least) -
          units (rank (spanOf least greatest * slack)))) : ℚ)|
        ≤ 2 * |(units (rank least) : ℚ) - units (rank (spanOf least greatest * slack))| :=
          abs_units_rounded_le _
      _ ≤ 2 *
        (|(units (rank least) : ℚ)| + |(units (rank (spanOf least greatest * slack)) : ℚ)|) := by
        gcongr
        exact abs_sub _ _
      _ ≤ 6 * units (rank (spanOf least greatest)) := by linarith
  · rw [paddedRange, if_neg hnegative]
    linarith [abs_nonneg (units (rank least) : ℚ)]

/-- The ends of a range differ: either its data do, or the room is too large a part of the
lower end to be lost. -/
theorem low_lt_high :
    rank (paddedRange least greatest).low < rank (paddedRange least greatest).high := by
  by_cases hlt : least < greatest
  · calc rank (paddedRange least greatest).low
        ≤ rank least := hpadded.low_le
      _ < rank greatest := (lt_iff_rank_lt hpadded.least_finite hpadded.greatest_finite).1 hlt
      _ ≤ rank (paddedRange least greatest).high := hpadded.le_high
  · obtain ⟨hone, -⟩ := le_rank_spanOf hpadded.greatest_finite hlt
    obtain ⟨hpinned, hroom⟩ := isFinite_of_isFinite_add hpadded.high_finite
    have hspanUnits : (64 : ℚ) ≤ units (rank (spanOf least greatest)) := by
      have hunits := units_strictMono.monotone ((show 64 ≤ rank 1 by decide +kernel).trans hone)
      exact_mod_cast hunits
    have hroomUnits := units_le_room hpadded.span_finite hone
    have hlowUnits := hpadded.abs_units_low_le hlt
    have hkept := @lt_rounded_add _ (units (rank (spanOf least greatest * slack)))
      (isFinite_iff.1 hpadded.low_finite) (by linarith) (by linarith)
    obtain ⟨-, -, hpinnedLe⟩ := greater_spec (isNaN_eq_false_of_isFinite hpadded.greatest_finite)
      (isNaN_eq_false_of_isFinite hpadded.low_finite)
    have hpinnedUnits : (units (rank (paddedRange least greatest).low) : ℚ) ≤
        units (rank (greater greatest (paddedRange least greatest).low)) := by
      exact_mod_cast units_strictMono.monotone hpinnedLe
    calc rank (paddedRange least greatest).low
        < rounded (units (rank (paddedRange least greatest).low) +
            units (rank (spanOf least greatest * slack))) := hkept
      _ ≤ rounded (units (rank (greater greatest (paddedRange least greatest).low)) +
            units (rank (spanOf least greatest * slack))) := rounded_mono (by linarith)
      _ = rank (paddedRange least greatest).high := (rank_add hpinned hroom).symm

end FinitelyPadded

end Padded

/-! ## The axis -/

section Axis

variable {boxes : List BoxSummary}
  (hboxes : ∀ box ∈ boxes, ∃ tag values, BoxSummary.ofSamples tag values = some box)

include hboxes

/-- A fitted range with finite ends holds zero and what lies between the least and the greatest
sample of a box. -/
theorem fittedRange_spec (hlow : isFinite (fittedRange boxes).low = true)
    (hhigh : isFinite (fittedRange boxes).high = true) :
    (fittedRange boxes).Drawable ∧ (fittedRange boxes).low ≤ 0 ∧
      ∀ box ∈ boxes, ∀ x : Float, x.isNaN = false → rank box.min ≤ rank x →
        rank x ≤ rank box.max → (fittedRange boxes).Holds x := by
  have hminima : ∀ x ∈ boxes.map BoxSummary.min, x.isNaN = false := by
    rw [List.forall_mem_map]
    intro box hbox
    obtain ⟨tag, values, hmade⟩ := hboxes box hbox
    exact (covers_of_ofSamples hmade).min_isNumber
  have hmaxima : ∀ x ∈ boxes.map BoxSummary.max, x.isNaN = false := by
    rw [List.forall_mem_map]
    intro box hbox
    obtain ⟨tag, values, hmade⟩ := hboxes box hbox
    exact (covers_of_ofSamples hmade).max_isNumber
  obtain ⟨hleastNumber, hleastZero, hleastBoxes⟩ := foldl_extreme le_refl le_trans lesser_spec
    (show Float.isNaN 0 = false by decide +kernel) hminima
  obtain ⟨hgreatestNumber, hgreatestBottom, hgreatestBoxes⟩ :=
    @foldl_extreme greater (fun a b => b ≤ a) le_refl (fun hab hbc => hbc.trans hab) greater_spec _
      (show leastFinite.isNaN = false by decide +kernel) _ hmaxima
  rw [fittedRange_eq] at hlow hhigh ⊢
  have hzeroRank : rank 0 = 0 := by decide +kernel
  rw [hzeroRank] at hleastZero
  have hpadded := finitelyPadded hleastNumber hgreatestNumber hleastZero hgreatestBottom hlow hhigh
  have hlowNumber := isNaN_eq_false_of_isFinite hlow
  have hhighNumber := isNaN_eq_false_of_isFinite hhigh
  refine ⟨⟨hlow, hhigh, ?_⟩, ?_, fun box hbox x hnumber hmin hmax => ⟨?_, ?_⟩⟩
  · exact (lt_iff_rank_lt hlow hhigh).2 hpadded.low_lt_high
  · rw [le_iff_rank_le hlow (by decide +kernel), hzeroRank]
    exact hpadded.low_le.trans hleastZero
  · rw [le_iff_rank_le_of_isNaN hlowNumber hnumber]
    exact hpadded.low_le.trans ((hleastBoxes _ (List.mem_map_of_mem hbox)).trans hmin)
  · rw [le_iff_rank_le_of_isNaN hnumber hhighNumber]
    exact hmax.trans ((hgreatestBoxes _ (List.mem_map_of_mem hbox)).trans hpadded.le_high)

/-- An axis has finite ends, and the lower one is below the upper one.  Without a bound it
begins at zero or below and holds all samples.  There is none exactly if the bound is not
finite and positive, or if there is no bound and an end of the fitted range is infinite. -/
theorem axisRange_meaning (bound : Option Float) :
    (∀ range, axisRange boxes bound = .ok range → range.Drawable ∧
      (bound = none → range.low ≤ 0 ∧ ∀ box ∈ boxes,
        (∀ tag values, BoxSummary.ofSamples tag values = some box →
          ∀ x ∈ values, x.isNaN = false → range.Holds x) ∧
        ∀ x ∈ box.outliers, range.Holds x)) ∧
    ((∃ fault, axisRange boxes bound = .error fault) ↔
      (∃ limit, bound = some limit ∧ ¬(isFinite limit = true ∧ 0 < limit)) ∨
        bound = none ∧ ¬(isFinite (fittedRange boxes).low = true ∧
          isFinite (fittedRange boxes).high = true)) := by
  cases bound with
  | some limit =>
    by_cases hlimit : isFinite limit = true ∧ 0 < limit
    · have haxis : axisRange boxes (some limit) = .ok ⟨0, limit⟩ := by
        simp [axisRange, hlimit]
      rw [haxis]
      refine ⟨?_, by simp [hlimit]⟩
      rintro range ⟨⟩
      have hzero : isFinite 0 = true := by decide +kernel
      exact ⟨⟨hzero, hlimit.1, hlimit.2⟩, fun hnone => absurd hnone (by simp)⟩
    · have haxis : axisRange boxes (some limit) = .error (.badBound limit) := by
        simp [axisRange, hlimit]
      rw [haxis]
      exact ⟨fun range hrange => (by cases hrange), by simpa using hlimit⟩
  | none =>
    by_cases hfinite : isFinite (fittedRange boxes).low = true ∧
        isFinite (fittedRange boxes).high = true
    · have haxis : axisRange boxes none = .ok (fittedRange boxes) := by
        simp [axisRange, hfinite]
      obtain ⟨hdrawable, hzero, hholds⟩ := fittedRange_spec hboxes hfinite.1 hfinite.2
      rw [haxis]
      refine ⟨?_, by simp [hfinite]⟩
      rintro range ⟨⟩
      refine ⟨hdrawable, fun _ => ⟨hzero, fun box hbox => ⟨?_, ?_⟩⟩⟩
      · intro tag values hmade x hx hnumber
        obtain ⟨hmin, hmax⟩ := (covers_of_ofSamples hmade).between x hx hnumber
        exact hholds box hbox x hnumber hmin hmax
      · intro x hx
        obtain ⟨tag, values, hmade⟩ := hboxes box hbox
        obtain ⟨hmem, hnumber⟩ := (covers_of_ofSamples hmade).outlier_mem x hx
        obtain ⟨hmin, hmax⟩ := (covers_of_ofSamples hmade).between x hmem hnumber
        exact hholds box hbox x hnumber hmin hmax
    · have haxis : axisRange boxes none =
          .error (.notFinite (fittedRange boxes).low (fittedRange boxes).high) := by
        simp [axisRange, hfinite]
      rw [haxis]
      exact ⟨fun range hrange => (by cases hrange), by simp [hfinite]⟩

end Axis

/-- All samples are below zero and there is only one of them. -/
theorem axisRange_meaning_below_zero :
    ∃ box, BoxSummary.ofSamples "a" [-3] = some box ∧
      ∃ range, axisRange [box] none = .ok range ∧ range.Drawable ∧ range.Holds (-3) := by
  have hbox : BoxSummary.ofSamples "a" [-3] = some (BoxSummary.ofSorted "a" [-3]) :=
    ofSamples_of_pairwise _ (List.cons_ne_nil _ _) (by decide +kernel) (List.pairwise_singleton _ _)
  obtain ⟨hrange, hfault⟩ := @axisRange_meaning [BoxSummary.ofSorted "a" [-3]]
    (fun box hmem => ⟨"a", [-3], List.mem_singleton.1 hmem ▸ hbox⟩) none
  refine ⟨_, hbox, ?_⟩
  cases haxis : axisRange [BoxSummary.ofSorted "a" [-3]] none with
  | error fault =>
    rcases hfault.1 ⟨fault, haxis⟩ with ⟨limit, hlimit, -⟩ | ⟨-, hinfinite⟩
    · cases hlimit
    · exact absurd (by decide +kernel) hinfinite
  | ok range =>
    obtain ⟨hdrawable, hunbounded⟩ := hrange range haxis
    obtain ⟨-, hholds⟩ := hunbounded rfl
    exact ⟨range, rfl, hdrawable, (hholds _ List.mem_cons_self).1 "a" [-3] hbox (-3)
      List.mem_cons_self (by decide +kernel)⟩

end Chart

end TimingReport
