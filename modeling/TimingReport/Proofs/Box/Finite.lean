import TimingReport.Proofs.Box.Order

/-!
# Boxes of finite samples

Quantiles of finite samples are mixtures of two of them and stay in the range of doubles.  Whatever
the fences are, a whisker ends at a sample or at a quartile, so every number of a box is finite.
-/

namespace TimingReport

open TimingReport.Number
open TimingReport.BoxSummary

/-- All numbers of a box. -/
def BoxSummary.numbers (box : BoxSummary) : List Float :=
  [box.min, box.q1, box.median, box.q3, box.max, box.whiskerLow, box.whiskerHigh] ++ box.outliers

/-- The statistics of finite samples are finite. -/
theorem isFinite_of_mem_ofSorted {tag : String} {sorted : List Float} (hsorted : sorted ≠ [])
    (hfinite : ∀ x ∈ sorted, isFinite x = true) :
    ∀ x ∈ (BoxSummary.ofSorted tag sorted).numbers, isFinite x = true := by
  obtain ⟨last, hlast⟩ := Nat.exists_eq_succ_of_ne_zero (mt List.length_eq_zero_iff.1 hsorted)
  have hsample : ∀ i, i < sorted.toArray.size → isFinite (sorted.toArray.getD i 0) = true :=
    fun i hi => hfinite _ (getD_toArray_mem hi)
  have hsize : sorted.toArray.size = last + 1 := by rw [List.size_toArray, hlast]
  have hq1 := Samples.isFinite_quantile hsample quarters_one hsize
  have hmedian := Samples.isFinite_quantile hsample quarters_two hsize
  have hq3 := Samples.isFinite_quantile hsample quarters_three hsize
  have hfound : ∀ (values : List Float) (within : Float → Bool) (quartile : Float),
      (∀ x ∈ values, isFinite x = true) → isFinite quartile = true →
      isFinite ((values.find? within).getD quartile) = true := by
    intro values within quartile hvalues hquartile
    cases hfind : values.find? within with
    | none => exact hquartile
    | some x => exact hvalues x (List.mem_of_find?_eq_some hfind)
  intro x hx
  simp only [BoxSummary.numbers, BoxSummary.ofSorted, List.mem_append, List.mem_cons,
    List.not_mem_nil, or_false] at hx
  rcases hx with (rfl | rfl | rfl | rfl | rfl | rfl | rfl) | houtlier
  · exact hsample 0 (by omega)
  · exact hq1
  · exact hmedian
  · exact hq3
  · exact hsample _ (by omega)
  · exact hfound _ _ _ hfinite hq1
  · exact hfound _ _ _ (fun x hx => hfinite x (List.mem_reverse.1 hx)) hq3
  · exact hfinite x (List.mem_of_mem_filter houtlier)

theorem isFinite_of_mem_numbers {tag : String} {values : List Float} {box : BoxSummary}
    (hfinite : ∀ x ∈ values, isFinite x = true)
    (hbox : BoxSummary.ofSamples tag values = some box) :
    ∀ x ∈ box.numbers, isFinite x = true := by
  obtain ⟨hsorted, rfl⟩ := ofSamples_eq_some_iff.1 hbox
  exact isFinite_of_mem_ofSorted hsorted fun x hx =>
    hfinite x ((perm_sortedSamples hfinite).mem_iff.1 hx)

end TimingReport
