import TimingReport.Proofs.Box.Finite
import TimingReport.Proofs.Number.Infinite

/-!
# The parts of a column

The whiskers of a box divide its samples: in ascending order, those below the whiskers come
first, then those between them, and those above them last.  A sample is in one part only, so
none is lost and none is counted twice, even where the whiskers have changed places.
-/

namespace TimingReport

open Number
open BoxSummary (sortedSamples)

/-! ## The ends of a column -/

theorem mem_sortedSamples {values : List Float} {x : Float} :
    x ∈ sortedSamples values ↔ x ∈ values ∧ x.isNaN = false := by
  rw [sortedSamples, List.mem_mergeSort, List.mem_filter, Bool.not_eq_true']

theorem min_ofSorted (tag : String) {sorted : List Float} (hsorted : sorted ≠ []) :
    (BoxSummary.ofSorted tag sorted).min = sorted.head hsorted := by
  rw [List.head_eq_getElem]
  exact getD_toArray (List.length_pos_iff.2 hsorted)

theorem max_ofSorted (tag : String) {sorted : List Float} (hsorted : sorted ≠ []) :
    (BoxSummary.ofSorted tag sorted).max = sorted.getLast hsorted := by
  rw [List.getLast_eq_getElem]
  exact getD_toArray (Nat.sub_lt (List.length_pos_iff.2 hsorted) one_pos)

/-- What a box says about its samples, finite or not. -/
structure BoxSummary.Covers (box : BoxSummary) (values : List Float) : Prop where
  min_isNumber : box.min.isNaN = false
  max_isNumber : box.max.isNaN = false
  between : ∀ x ∈ values, x.isNaN = false → rank box.min ≤ rank x ∧ rank x ≤ rank box.max
  outlier_mem : ∀ x ∈ box.outliers, x ∈ values ∧ x.isNaN = false

theorem covers_of_ofSamples {tag : String} {values : List Float} {box : BoxSummary}
    (hbox : BoxSummary.ofSamples tag values = some box) : box.Covers values := by
  obtain ⟨hnonempty, rfl⟩ := ofSamples_eq_some_iff.1 hbox
  have hsorted := pairwise_sortedSamples values
  refine ⟨?_, ?_, fun x hx hnumber => ?_, fun x hx => ?_⟩
  · rw [min_ofSorted tag hnonempty]
    exact (mem_sortedSamples.1 (List.head_mem _)).2
  · rw [max_ofSorted tag hnonempty]
    exact (mem_sortedSamples.1 (List.getLast_mem _)).2
  · have hmem := mem_sortedSamples.2 ⟨hx, hnumber⟩
    rw [min_ofSorted tag hnonempty, max_ofSorted tag hnonempty]
    exact ⟨hsorted.rel_head_of_rel_head_head hmem le_rfl,
      hsorted.rel_getLast_of_rel_getLast_getLast hmem le_rfl⟩
  · exact mem_sortedSamples.1 (List.mem_of_mem_filter hx)

/-! ## Dividing sorted items -/

/-- Sorted items are divided by a test that only leading items pass. -/
theorem exists_leading {α : Type} {R : α → α → Prop} {items : List α} (hsorted : items.Pairwise R)
    (passes : α → Bool)
    (hleading : ∀ x ∈ items, ∀ y ∈ items, R x y → passes y = true → passes x = true) :
    ∃ front back, items = front ++ back ∧ (∀ x ∈ front, passes x = true) ∧
      ∀ x ∈ back, passes x = false := by
  induction items with
  | nil => exact ⟨[], [], rfl, by simp, by simp⟩
  | cons x rest ih =>
    obtain ⟨hx, hrest⟩ := List.pairwise_cons.1 hsorted
    cases hpasses : passes x with
    | true =>
      obtain ⟨front, back, hsplit, hfront, hback⟩ := ih hrest fun y hy z hz =>
        hleading y (List.mem_cons_of_mem x hy) z (List.mem_cons_of_mem x hz)
      exact ⟨x :: front, back, congrArg (x :: ·) hsplit,
        List.forall_mem_cons.2 ⟨hpasses, hfront⟩, hback⟩
    | false =>
      refine ⟨[], x :: rest, rfl, by simp, List.forall_mem_cons.2 ⟨hpasses, fun y hy => ?_⟩⟩
      rw [← Bool.not_eq_true] at hpasses ⊢
      exact mt (hleading x List.mem_cons_self y (List.mem_cons_of_mem x hy) (hx y hy)) hpasses

/-- Sorted items are divided by two tests, one that only leading items pass and one that only
trailing items do. -/
theorem exists_parts {α : Type} {R : α → α → Prop} {items : List α} (hsorted : items.Pairwise R)
    (below above : α → Bool)
    (hbelow : ∀ x ∈ items, ∀ y ∈ items, R x y → below y = true → below x = true)
    (habove : ∀ x ∈ items, ∀ y ∈ items, R x y → above x = true → above y = true) :
    ∃ lows inside highs, items = lows ++ (inside ++ highs) ∧
      (∀ x ∈ lows, below x = true) ∧ (∀ x ∈ inside, below x = false ∧ above x = false) ∧
      (∀ x ∈ highs, above x = true) ∧
      items.filter (fun x => below x || above x) = lows ++ highs := by
  obtain ⟨lows, upper, rfl, hlows, hupper⟩ := exists_leading hsorted below hbelow
  have hleading : ∀ x ∈ upper, ∀ y ∈ upper, R x y → (!above y) = true → (!above x) = true := by
    intro x hx y hy hxy
    rw [Bool.not_eq_true', Bool.not_eq_true', ← Bool.not_eq_true, ← Bool.not_eq_true]
    exact mt (habove x (List.mem_append_right lows hx) y (List.mem_append_right lows hy) hxy)
  obtain ⟨inside, highs, rfl, hinside, hhighs⟩ :=
    exists_leading (List.pairwise_append.1 hsorted).2.1 (fun x => !above x) hleading
  simp only [Bool.not_eq_true', Bool.not_eq_false'] at hinside hhighs
  have hbetween : ∀ x ∈ inside, below x = false ∧ above x = false := fun x hx =>
    ⟨hupper x (List.mem_append_left highs hx), hinside x hx⟩
  refine ⟨lows, inside, highs, rfl, hlows, hbetween, hhighs, ?_⟩
  have hkeptLows : lows.filter (fun x => below x || above x) = lows :=
    List.filter_eq_self.2 fun x hx => by rw [hlows x hx, Bool.true_or]
  have hdropped : inside.filter (fun x => below x || above x) = [] :=
    List.filter_eq_nil_iff.2 fun x hx => by simp [hbetween x hx]
  have hkeptHighs : highs.filter (fun x => below x || above x) = highs :=
    List.filter_eq_self.2 fun x hx => by rw [hhighs x hx, Bool.or_true]
  rw [List.filter_append, List.filter_append, hkeptLows, hdropped, hkeptHighs, List.nil_append]

/-- The whiskers divide the samples, and the outer parts are the outliers. -/
theorem exists_parts_ofSorted (tag : String) {sorted : List Float} {box : BoxSummary}
    (hbox : BoxSummary.ofSorted tag sorted = box) (hnonempty : sorted ≠ [])
    (hfinite : ∀ x ∈ sorted, isFinite x = true)
    (hsorted : sorted.Pairwise fun x y => rank x ≤ rank y) :
    ∃ lows inside highs, sorted = lows ++ (inside ++ highs) ∧
      (∀ x ∈ lows, x < box.whiskerLow) ∧
      (∀ x ∈ inside, box.whiskerLow ≤ x ∧ x ≤ box.whiskerHigh) ∧
      (∀ x ∈ highs, box.whiskerHigh < x) ∧
      box.outliers = lows ++ highs := by
  have hnumbers := @isFinite_of_mem_ofSorted tag sorted hnonempty hfinite
  rw [hbox] at hnumbers
  have hlow : isFinite box.whiskerLow = true := hnumbers _ (by simp [BoxSummary.numbers])
  have hhigh : isFinite box.whiskerHigh = true := hnumbers _ (by simp [BoxSummary.numbers])
  have hbelow : ∀ x ∈ sorted, ∀ y ∈ sorted, rank x ≤ rank y →
      decide (y < box.whiskerLow) = true → decide (x < box.whiskerLow) = true := by
    intro x hx y hy hle hlt
    rw [decide_eq_true_iff, lt_iff_rank_lt (hfinite y hy) hlow] at hlt
    rw [decide_eq_true_iff, lt_iff_rank_lt (hfinite x hx) hlow]
    exact hle.trans_lt hlt
  have habove : ∀ x ∈ sorted, ∀ y ∈ sorted, rank x ≤ rank y →
      decide (box.whiskerHigh < x) = true → decide (box.whiskerHigh < y) = true := by
    intro x hx y hy hle hlt
    rw [decide_eq_true_iff, lt_iff_rank_lt hhigh (hfinite x hx)] at hlt
    rw [decide_eq_true_iff, lt_iff_rank_lt hhigh (hfinite y hy)]
    exact hlt.trans_le hle
  obtain ⟨lows, inside, highs, hsplit, hlows, hinside, hhighs, houtliers⟩ :=
    exists_parts hsorted _ _ hbelow habove
  refine ⟨lows, inside, highs, hsplit, fun x hx => of_decide_eq_true (hlows x hx), ?_,
    fun x hx => of_decide_eq_true (hhighs x hx), ?_⟩
  · intro x hx
    have hxFinite := hfinite x (by simp [hsplit, hx])
    obtain ⟨hnotBelow, hnotAbove⟩ := hinside x hx
    rw [decide_eq_false_iff_not, lt_iff_rank_lt hxFinite hlow, not_lt] at hnotBelow
    rw [decide_eq_false_iff_not, lt_iff_rank_lt hhigh hxFinite, not_lt] at hnotAbove
    exact ⟨(le_iff_rank_le hlow hxFinite).2 hnotBelow, (le_iff_rank_le hxFinite hhigh).2 hnotAbove⟩
  · rw [← houtliers, ← hbox]
    rfl

/-! ## Columns -/

/-- The samples of a column in ascending order are those below the whiskers, those between them
and those above them.  The first and the last part are the outliers, and the box counts all
three. -/
theorem ofSamples_parts (tag : String) {values : List Float} (hvalues : values ≠ [])
    (hfinite : ∀ x ∈ values, isFinite x = true) :
    ∃ box lows inside highs, BoxSummary.ofSamples tag values = some box ∧
      (lows ++ (inside ++ highs)).Perm values ∧
      (lows ++ (inside ++ highs)).Pairwise (fun x y => orderKey x ≤ orderKey y) ∧
      box.outliers = lows ++ highs ∧
      (∀ x ∈ lows, x < box.whiskerLow) ∧
      (∀ x ∈ inside, box.whiskerLow ≤ x ∧ x ≤ box.whiskerHigh) ∧
      (∀ x ∈ highs, box.whiskerHigh < x) ∧
      box.count = lows.length + inside.length + highs.length ∧
      box.min ∈ values ∧ box.max ∈ values ∧ (∀ x ∈ values, box.min ≤ x ∧ x ≤ box.max) ∧
      box.outliers.Pairwise (· ≤ ·) := by
  have hbox := ofSamples_of_isFinite tag hvalues hfinite
  obtain ⟨hnonempty, -⟩ := ofSamples_eq_some_iff.1 hbox
  have hperm := perm_sortedSamples hfinite
  have hsample : ∀ x ∈ sortedSamples values, isFinite x = true :=
    fun x hx => hfinite x (hperm.mem_iff.1 hx)
  have hsorted := pairwise_sortedSamples values
  have hcovers := covers_of_ofSamples hbox
  have hmin : (BoxSummary.ofSorted tag (sortedSamples values)).min ∈ values := by
    rw [min_ofSorted tag hnonempty, ← hperm.mem_iff]
    exact List.head_mem _
  have hmax : (BoxSummary.ofSorted tag (sortedSamples values)).max ∈ values := by
    rw [max_ofSorted tag hnonempty, ← hperm.mem_iff]
    exact List.getLast_mem _
  obtain ⟨lows, inside, highs, hsplit, hlows, hinside, hhighs, houtliers⟩ :=
    exists_parts_ofSorted tag rfl hnonempty hsample hsorted
  refine ⟨_, lows, inside, highs, hbox, hsplit ▸ hperm, hsplit ▸ ascending_sortedSamples values,
    houtliers, hlows, hinside, hhighs, ?_, hmin, hmax, fun x hx => ?_, ?_⟩
  · have hlength := congrArg List.length hsplit
    rwa [List.length_append, List.length_append, ← Nat.add_assoc] at hlength
  · obtain ⟨hbelow, habove⟩ := hcovers.between x hx (isNaN_eq_false_of_isFinite (hfinite x hx))
    exact ⟨(le_iff_rank_le (hfinite _ hmin) (hfinite x hx)).2 hbelow,
      (le_iff_rank_le (hfinite x hx) (hfinite _ hmax)).2 habove⟩
  · refine (hsorted.filter _).imp_of_mem fun {x y} hx hy hle => ?_
    exact (le_iff_rank_le (hsample x (List.mem_of_mem_filter hx))
      (hsample y (List.mem_of_mem_filter hy))).2 hle

/-- A sample on either side of the whiskers is an outlier, and both zeros lie between them. -/
theorem ofSamples_parts_both_sides :
    ∃ (box : BoxSummary) (lows inside highs : List Float),
      BoxSummary.ofSamples "a" [-70, -0, 0, 1, 1, 2, 90] = some box ∧
      (∀ x ∈ lows, x < box.whiskerLow) ∧ (∀ x ∈ highs, box.whiskerHigh < x) ∧
      box.outliers = lows ++ highs ∧ lows ++ highs = [-70, 90] ∧ inside.length = 5 := by
  have hvalues : ∀ x ∈ [-70, -0, 0, 1, 1, 2, 90], isFinite x = true := by decide +kernel
  have hsorted := ofSamples_of_pairwise "a" (List.cons_ne_nil _ _) hvalues (by decide +kernel)
  obtain ⟨box, lows, inside, highs, hbox, -, -, houtliers, hlows, -, hhighs, hcount, -⟩ :=
    ofSamples_parts "a" (List.cons_ne_nil _ _) hvalues
  obtain rfl := Option.some.inj (hsorted.symm.trans hbox)
  have hpair : (BoxSummary.ofSorted "a" [-70, -0, 0, 1, 1, 2, 90]).outliers = [-70, 90] := by
    decide +kernel
  rw [houtliers] at hpair
  have hlength := congrArg List.length hpair
  rw [List.length_append] at hlength
  refine ⟨_, lows, inside, highs, hbox, hlows, hhighs, houtliers, hpair, ?_⟩
  simp only [BoxSummary.ofSorted, List.length_cons, List.length_nil] at hcount hlength
  omega

end TimingReport
