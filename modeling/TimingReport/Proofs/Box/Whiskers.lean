import TimingReport.Proofs.Box.Spread

/-!
# Where whiskers end

A whisker ends at the first sample that a search meets on the near side of its fence.  Both
searches meet one, and the whiskers have a sample between them, as soon as one sample lies
between the fences.  A sample between the quartiles does, and three samples or more have one
there; two samples may both be beyond the fences if they are few doubles apart.
-/

namespace TimingReport

open Number
open BoxSummary (whiskerReach quantile quantilePlace placeAbove sortedSamples)

namespace BoxSummary

/-- The lower whisker ends at the least sample that is not below. -/
def lowFence (box : BoxSummary) : Float := box.q1 - whiskerReach * (box.q3 - box.q1)

/-- The upper whisker ends at the greatest sample that is not above. -/
def highFence (box : BoxSummary) : Float := box.q3 + whiskerReach * (box.q3 - box.q1)

/-- Both searches hit a sample, so the whiskers end at samples.  They are in order, and some
sample is no outlier. -/
structure WhiskersHit (values : List Float) (box : BoxSummary) : Prop where
  low : ∃ x ∈ values, box.lowFence ≤ x
  high : ∃ x ∈ values, x ≤ box.highFence
  low_mem : box.whiskerLow ∈ values
  high_mem : box.whiskerHigh ∈ values
  ordered : box.whiskerLow ≤ box.whiskerHigh
  inside : ∃ x ∈ values, x ∉ box.outliers

theorem whiskersHit_congr {values others : List Float} (hmem : ∀ x, x ∈ values ↔ x ∈ others)
    (box : BoxSummary) : WhiskersHit values box ↔ WhiskersHit others box := by
  constructor <;> rintro ⟨hlow, hhigh, hlowMem, hhighMem, hordered, hinside⟩ <;> constructor <;>
    simp_all

end BoxSummary

/-! ## Searching sorted samples -/

/-- The first hit of a search is related to every item that would be a hit. -/
theorem getD_find?_spec {α : Type*} {R : α → α → Prop} (hrefl : ∀ x, R x x) {items : List α}
    (hsorted : items.Pairwise R) (within : α → Bool) {x : α} (hx : x ∈ items)
    (hwithin : within x = true) (other : α) :
    (items.find? within).getD other ∈ items ∧
      within ((items.find? within).getD other) = true ∧
      R ((items.find? within).getD other) x := by
  obtain ⟨first, hfind⟩ : ∃ first, items.find? within = some first :=
    Option.isSome_iff_exists.1 (List.find?_isSome.2 ⟨x, hx, hwithin⟩)
  rw [hfind, Option.getD_some]
  refine ⟨List.mem_of_find?_eq_some hfind, List.find?_some hfind, ?_⟩
  obtain ⟨-, before, after, rfl, hbefore⟩ := List.find?_eq_some_iff_append.1 hfind
  rcases List.mem_append.1 hx with hx | hx
  · exact absurd hwithin (by simpa using hbefore x hx)
  · rcases List.mem_cons.1 hx with rfl | hx
    · exact hrefl x
    · exact (List.pairwise_cons.1 (List.pairwise_append.1 hsorted).2.1).1 x hx

section Searches

variable {tag : String} {sorted : List Float} {box : BoxSummary} {x : Float}
  (hbox : BoxSummary.ofSorted tag sorted = box)
  (hsorted : sorted.Pairwise fun x y => rank x ≤ rank y)

include hbox hsorted

theorem whiskerLow_spec (hx : x ∈ sorted) (hfence : box.lowFence ≤ x) :
    box.whiskerLow ∈ sorted ∧ box.lowFence ≤ box.whiskerLow ∧ rank box.whiskerLow ≤ rank x := by
  have hsearch := getD_find?_spec (fun x => le_refl (rank x)) hsorted
    (fun x => decide (box.lowFence ≤ x)) hx (decide_eq_true hfence) box.q1
  subst hbox
  rwa [decide_eq_true_iff] at hsearch

theorem whiskerHigh_spec (hx : x ∈ sorted) (hfence : x ≤ box.highFence) :
    box.whiskerHigh ∈ sorted ∧ box.whiskerHigh ≤ box.highFence ∧
      rank x ≤ rank box.whiskerHigh := by
  have hsearch := getD_find?_spec (fun x => le_refl (rank x)) (List.pairwise_reverse.2 hsorted)
    (fun x => decide (x ≤ box.highFence)) (List.mem_reverse.2 hx) (decide_eq_true hfence) box.q3
  subst hbox
  rwa [List.mem_reverse, decide_eq_true_iff] at hsearch

omit hsorted in
/-- A sample is no outlier exactly if it lies between the whiskers. -/
theorem not_mem_outliers_iff (hx : x ∈ sorted) :
    x ∉ box.outliers ↔ ¬x < box.whiskerLow ∧ ¬box.whiskerHigh < x := by
  subst hbox
  rw [← not_or, not_iff_not, ← decide_eq_true_iff (p := x < _), ← decide_eq_true_iff (p := _ < x),
    ← Bool.or_eq_true]
  exact List.mem_filter.trans (and_iff_right hx)

/-- Both searches hit, and some sample is no outlier, exactly if some sample lies between the
fences. -/
theorem whiskersHit_ofSorted_iff (hfinite : ∀ x ∈ sorted, isFinite x = true) :
    box.WhiskersHit sorted ↔ ∃ x ∈ sorted, box.lowFence ≤ x ∧ x ≤ box.highFence := by
  constructor
  · intro hhit
    obtain ⟨x, hx, hinside⟩ := hhit.inside
    obtain ⟨lowest, hlowest, hlowFence⟩ := hhit.low
    obtain ⟨highest, hhighest, hhighFence⟩ := hhit.high
    obtain ⟨hlowMem, hlow, -⟩ := whiskerLow_spec hbox hsorted hlowest hlowFence
    obtain ⟨hhighMem, hhigh, -⟩ := whiskerHigh_spec hbox hsorted hhighest hhighFence
    rw [not_mem_outliers_iff hbox hx, lt_iff_rank_lt (hfinite _ hx) (hfinite _ hlowMem),
      lt_iff_rank_lt (hfinite _ hhighMem) (hfinite _ hx), not_lt, not_lt] at hinside
    exact ⟨x, hx,
      le_trans_of_le hlow ((le_iff_rank_le (hfinite _ hlowMem) (hfinite _ hx)).2 hinside.1),
      le_trans_of_le ((le_iff_rank_le (hfinite _ hx) (hfinite _ hhighMem)).2 hinside.2) hhigh⟩
  · rintro ⟨x, hx, hlow, hhigh⟩
    obtain ⟨hlowMem, -, hlowLe⟩ := whiskerLow_spec hbox hsorted hx hlow
    obtain ⟨hhighMem, -, hhighLe⟩ := whiskerHigh_spec hbox hsorted hx hhigh
    refine ⟨⟨x, hx, hlow⟩, ⟨x, hx, hhigh⟩, hlowMem, hhighMem, ?_, x, hx, ?_⟩
    · exact (le_iff_rank_le (hfinite _ hlowMem) (hfinite _ hhighMem)).2 (hlowLe.trans hhighLe)
    · rw [not_mem_outliers_iff hbox hx, lt_iff_rank_lt (hfinite _ hx) (hfinite _ hlowMem),
        lt_iff_rank_lt (hfinite _ hhighMem) (hfinite _ hx), not_lt, not_lt]
      exact ⟨hlowLe, hhighLe⟩

end Searches

/-! ## A sample between the fences -/

/-- A sample between the quartiles is between the fences. -/
theorem between_fences {q1 q3 x : Float} (hq1 : isFinite q1 = true) (hq3 : isFinite q3 = true)
    (hx : isFinite x = true) (hlow : rank q1 ≤ rank x) (hhigh : rank x ≤ rank q3) :
    q1 - whiskerReach * (q3 - q1) ≤ x ∧ x ≤ q3 + whiskerReach * (q3 - q1) := by
  have hreach := nonNegative_reach hq1 hq3 (hlow.trans hhigh)
  exact ⟨le_trans_of_le (hreach.sub_le hq1) ((le_iff_rank_le hq1 hx).2 hlow),
    le_trans_of_le ((le_iff_rank_le hx hq3).2 hhigh) (hreach.le_add hq3)⟩

/-- One sample, or three and more, have one of them at or between the quartiles. -/
theorem Samples.exists_between_quartiles {samples : Array Float} (hsamples : Samples samples)
    {last : Nat} (hsize : samples.size = last + 1) (hlast : last ≠ 1) :
    ∃ i, i < samples.size ∧ rank (quantile samples 25) ≤ rank (samples.getD i 0) ∧
      rank (samples.getD i 0) ≤ rank (quantile samples 75) := by
  rcases Nat.eq_zero_or_pos last with rfl | hpositive
  · refine ⟨0, by omega, ?_⟩
    rw [quantile, if_pos hsize, quantile, if_pos hsize]
    exact ⟨le_rfl, le_rfl⟩
  · obtain ⟨-, hq1⟩ := hsamples.quantile_mem quarters_one hsize hpositive
    obtain ⟨hq3, -⟩ := hsamples.quantile_mem quarters_three hsize hpositive
    obtain ⟨-, habove⟩ := placeAbove_le quarters_one last
    obtain ⟨hle, hbelow⟩ := placeAbove_le quarters_three last
    refine ⟨placeAbove (quantilePlace 25 (last + 1)), by omega, hq1, le_trans ?_ hq3⟩
    exact hsamples.mono _ _
      (placeAbove_le_placeBelow quarters_one quarters_three (by decide) (by omega)) (by omega)

/-- Of two samples that are equal or far apart, the lower one is between the fences. -/
theorem Samples.pair_between_fences {samples : Array Float}
    (hfinite : ∀ i, i < samples.size → isFinite (samples.getD i 0) = true)
    (hsize : samples.size = 2)
    (hgap : rank (samples.getD 0 0) = rank (samples.getD 1 0) ∨
      rank (samples.getD 0 0) + 64 ≤ rank (samples.getD 1 0)) :
    quantile samples 25 - whiskerReach * (quantile samples 75 - quantile samples 25) ≤
        samples.getD 0 0 ∧
      samples.getD 0 0 ≤
        quantile samples 75 + whiskerReach * (quantile samples 75 - quantile samples 25) := by
  have hlow := hfinite 0 (by omega)
  have hhigh := hfinite 1 (by omega)
  have hq1 := isFinite_quantile hfinite quarters_one hsize
  have hq3 := isFinite_quantile hfinite quarters_three hsize
  have hq1Rank := rank_quantile_pair hfinite quarters_one hsize
  have hq3Rank := rank_quantile_pair hfinite quarters_three hsize
  rcases hgap with hsame | hfar
  · rw [← hsame, mixture_self (isFinite_iff.1 hlow) (by tauto)] at hq1Rank hq3Rank
    exact between_fences hq1 hq3 hlow hq1Rank.le hq3Rank.ge
  · obtain ⟨hbelow, habove⟩ := fences_of_far hlow hhigh hfar hq1 hq3 hq1Rank hq3Rank
    exact ⟨hbelow, le_trans_of_le ((le_iff_rank_le hlow hhigh).2 (by omega)) habove⟩

/-! ## Columns -/

/-- Both whiskers of finite samples end where their searches hit if and only if a sample lies
between the fences.  There is one unless some sample is not twice a double, or the column is
nothing but two different doubles less than 64 steps apart. -/
theorem ofSamples_whiskersHit (tag : String) {values : List Float} (hvalues : values ≠ [])
    (hfinite : ∀ x ∈ values, isFinite x = true) :
    ∃ box, BoxSummary.ofSamples tag values = some box ∧
      (box.WhiskersHit values ↔ ∃ x ∈ values, box.lowFence ≤ x ∧ x ≤ box.highFence) ∧
      (values.length ≠ 2 → (∀ x ∈ values, HasHalf x) → box.WhiskersHit values) ∧
      (values.length = 2 → (∀ x ∈ values, ∀ y ∈ values, x < y → rank x + 64 ≤ rank y) →
        box.WhiskersHit values) := by
  have hmem : ∀ x, x ∈ values ↔ x ∈ sortedSamples values :=
    fun x => (perm_sortedSamples hfinite).mem_iff.symm
  have hsorted := pairwise_sortedSamples values
  obtain ⟨last, hlast, hsize, hitem⟩ := exists_last_sortedSamples hvalues hfinite
  have hsample : ∀ i, i < (sortedSamples values).toArray.size →
      isFinite ((sortedSamples values).toArray.getD i 0) = true :=
    fun i hi => hfinite _ (hitem i (by omega))
  obtain ⟨box, hbox⟩ : ∃ box, BoxSummary.ofSorted tag (sortedSamples values) = box := ⟨_, rfl⟩
  have hiff : box.WhiskersHit values ↔
      ∃ x ∈ values, box.lowFence ≤ x ∧ x ≤ box.highFence := by
    simp only [BoxSummary.whiskersHit_congr hmem, hmem]
    exact whiskersHit_ofSorted_iff hbox hsorted fun x hx => hfinite x ((hmem x).2 hx)
  refine ⟨box, ?_, hiff, ?_, ?_⟩
  · rw [ofSamples_of_isFinite tag hvalues hfinite, hbox]
  · intro hcount hhalf
    obtain ⟨i, hi, hlow, hhigh⟩ :=
      (samples_sortedSamples hfinite hhalf).exists_between_quartiles hsize (by omega)
    subst hbox
    exact hiff.2 ⟨_, hitem i (by omega), between_fences
      (Samples.isFinite_quantile hsample quarters_one hsize)
      (Samples.isFinite_quantile hsample quarters_three hsize) (hsample i hi) hlow hhigh⟩
  · intro hcount hfar
    have htwo : (sortedSamples values).toArray.size = 2 := by omega
    subst hbox
    refine hiff.2 ⟨_, hitem 0 (by omega), Samples.pair_between_fences hsample htwo ?_⟩
    have hfirst := hsample 0 (by omega)
    have hsecond := hsample 1 (by omega)
    rw [List.size_toArray] at htwo
    have hle := List.pairwise_iff_getElem.1 hsorted 0 1 (by omega) (by omega) (by decide)
    rw [← getD_toArray, ← getD_toArray] at hle
    rcases hle.eq_or_lt with hsame | hlt
    · exact .inl hsame
    · exact .inr (hfar _ (hitem 0 (by omega)) _ (hitem 1 (by omega))
        ((lt_iff_rank_lt hfirst hsecond).2 hlt))

theorem ofSamples_whiskersHit_few :
    (∃ box, BoxSummary.ofSamples "a" [1, 3] = some box ∧ box.WhiskersHit [1, 3]) ∧
      ∃ box, BoxSummary.ofSamples "a" [1, 2, 64] = some box ∧ box.WhiskersHit [1, 2, 64] := by
  constructor
  · obtain ⟨box, hbox, -, -, hhit⟩ :=
      @ofSamples_whiskersHit "a" [1, 3] (List.cons_ne_nil _ _) (by decide +kernel)
    exact ⟨box, hbox, hhit rfl (by decide +kernel)⟩
  · obtain ⟨box, hbox, -, hhit, -⟩ :=
      @ofSamples_whiskersHit "a" [1, 2, 64] (List.cons_ne_nil _ _) (by decide +kernel)
    refine ⟨box, hbox, hhit (by decide) ?_⟩
    rw [List.forall_mem_cons, List.forall_mem_cons, List.forall_mem_singleton]
    exact ⟨⟨0.5, by decide +kernel, by decide +kernel⟩, ⟨1, by decide +kernel, by decide +kernel⟩,
      ⟨32, by decide +kernel, by decide +kernel⟩⟩

/-- The first quartile of these two neighbouring doubles is the upper one and the third the
lower one.  Both searches miss, and the whiskers that take the place of a hit are the wrong
way around. -/
theorem ofSamples_searches_miss :
    ∃ box, BoxSummary.ofSamples "a" [9007199254740989, 9007199254740990] = some box ∧
      (∀ x ∈ [9007199254740989, 9007199254740990], ¬box.lowFence ≤ x ∧ ¬x ≤ box.highFence) ∧
      box.whiskerHigh < box.whiskerLow ∧
      box.outliers = [9007199254740989, 9007199254740990] := by
  refine ⟨_, ofSamples_of_pairwise _ (List.cons_ne_nil _ _) ?_ ?_, ?_⟩
  · decide +kernel
  · decide +kernel
  · decide +kernel

end TimingReport
