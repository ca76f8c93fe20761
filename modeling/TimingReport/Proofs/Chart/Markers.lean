import Mathlib.Tactic.IntervalCases
import TimingReport.Proofs.Chart.Layers

/-!
# Marks for outliers

A circle reaches no further than its radius, so an outlier that lies on the axis changes the picture
around its own place only, and one that lies beyond the axis changes nothing.
-/

namespace TimingReport

namespace Chart

/-! ## What drawing changes -/

/-- The images differ at pixels that are marked only. -/
def ChangesOnly (marks : Int → Int → Prop) (before after : Image) : Prop :=
  ∀ x y, ¬ marks x y → after.pixel? x y = before.pixel? x y

namespace ChangesOnly

variable {marks : Int → Int → Prop} {before between after : Image}

theorem refl (marks : Int → Int → Prop) (image : Image) : ChangesOnly marks image image :=
  fun _ _ _ => rfl

theorem trans (hfirst : ChangesOnly marks before between)
    (hsecond : ChangesOnly marks between after) : ChangesOnly marks before after :=
  fun x y hmarks => (hsecond x y hmarks).trans (hfirst x y hmarks)

theorem mono {more : Int → Int → Prop} (hchanges : ChangesOnly marks before after)
    (hmore : ∀ x y, marks x y → more x y) : ChangesOnly more before after :=
  fun x y hmarks => hchanges x y fun hmark => hmarks (hmore x y hmark)

/-- Steps that change marked pixels only do so together. -/
theorem foldl {α : Type} {draw : Image → α → Image} {items : List α}
    (hdraw : ∀ item ∈ items, ∀ image, ChangesOnly marks image (draw image item)) (image : Image) :
    ChangesOnly marks image (items.foldl draw image) := by
  induction items generalizing image with
  | nil => exact .refl marks image
  | cons item rest ih =>
    rw [List.foldl_cons]
    refine (hdraw item List.mem_cons_self image).trans (ih (fun other hother => ?_) _)
    exact hdraw other (List.mem_cons_of_mem _ hother)

end ChangesOnly

/-- The pixel is not further than this from the point, in its column nor in its row. -/
def Near (center : Point) (reach : Nat) (x y : Int) : Prop :=
  (x - center.x).natAbs ≤ reach ∧ (y - center.y).natAbs ≤ reach

instance (center : Point) (reach : Nat) (x y : Int) : Decidable (Near center reach x y) :=
  inferInstanceAs (Decidable (_ ∧ _))

theorem touch_changesOnly (image : Image) (colour : Colour) (touch : Touch) :
    ChangesOnly (fun x y => x = touch.point.x ∧ y = touch.point.y) image
      (image.touch colour touch) := by
  intro x y hother
  rw [not_and_or] at hother
  rw [Image.touch]
  split
  · exact Image.pixel?_modify_of_ne image hother _
  · split
    · rfl
    · exact Image.pixel?_modify_of_ne image hother _

/-! ## Circles -/

/-- The pixels of a circle lie around its middle as those of any other. -/
theorem circleTouches_eq_map (center : Point) (radius : Nat) (offset : Int) :
    circleTouches center radius offset = (circleTouches ⟨0, 0⟩ radius offset).map fun touch =>
      ⟨⟨center.x + touch.point.x, center.y + touch.point.y⟩, touch.opacity⟩ := by
  simp [circleTouches, sub_eq_add_neg]

/-- Small circles reach as far as their radius. -/
theorem near_of_mem_circle {radius : Nat} (hpositive : 1 ≤ radius) (hsmall : radius ≤ 4)
    {center : Point} {touch : Touch} (htouch : touch ∈ circle center radius) :
    Near center radius touch.point.x touch.point.y := by
  have hmiddle : ∀ touch ∈ circle ⟨0, 0⟩ radius,
      Near ⟨0, 0⟩ radius touch.point.x touch.point.y := by
    interval_cases radius <;> decide +kernel
  obtain ⟨offset, hoffset, htouch⟩ := List.mem_flatMap.1 htouch
  rw [circleTouches_eq_map] at htouch
  obtain ⟨around, haround, rfl⟩ := List.mem_map.1 htouch
  have hnear := hmiddle around (List.mem_flatMap.2 ⟨offset, hoffset, haround⟩)
  simpa [Near] using hnear

theorem circle_changesOnly {radius : Nat} (hpositive : 1 ≤ radius) (hsmall : radius ≤ 4)
    (image : Image) (colour : Colour) (center : Point) :
    ChangesOnly (Near center radius) image
      (image.touchAll colour (circle center radius)) := by
  refine .foldl (fun touch htouch image => ?_) image
  refine (touch_changesOnly image colour touch).mono fun x y hpixel => ?_
  rw [hpixel.1, hpixel.2]
  exact near_of_mem_circle hpositive hsmall htouch

/-- Beyond the reach of its markers, a chart is as its layers are. -/
theorem image_changesOnly {chart : Chart} (hpen : chart.lineWidth = 1)
    (hpositive : 1 ≤ chart.markerRadius) (hsmall : chart.markerRadius ≤ 4)
    (library : Library) :
    ChangesOnly (fun x y => ∃ center ∈ chart.markers, Near center chart.markerRadius x y)
      ((chart.ground library).cover chart.layers) (chart.image library) := by
  refine .foldl (fun center hcenter image => ?_) _
  rw [mark, if_pos hpen]
  exact (circle_changesOnly hpositive hsmall image .black center).mono
    fun x y hnear => ⟨center, hcenter, hnear⟩

end Chart

/-! ## Without some outliers -/

/-- The box with some of its outliers only. -/
def BoxSummary.keepOutliers (keep : Float → Bool) (box : BoxSummary) : BoxSummary :=
  { box with outliers := box.outliers.filter keep }

namespace Chart

/-- The chart of the boxes with some of their outliers only. -/
def keepOutliers (keep : Float → Bool) (chart : Chart) : Chart :=
  { chart with boxes := chart.boxes.map (BoxSummary.keepOutliers keep) }

section

variable (chart : Chart) (keep : Float → Bool)

theorem point_keepOutliers : (chart.keepOutliers keep).point = chart.point := by
  funext x y
  simp only [point, keepOutliers, List.length_map]

theorem placedBoxes_keepOutliers :
    (chart.keepOutliers keep).placedBoxes = chart.placedBoxes.map fun placed =>
      (placed.1, placed.2.keepOutliers keep) := by
  simp [placedBoxes, keepOutliers, List.zipIdx_map, Function.comp_def]

/-- Outliers are in none of the layers. -/
theorem layers_keepOutliers : (chart.keepOutliers keep).layers = chart.layers := by
  have hpoint := point_keepOutliers chart keep
  have hpin : (chart.keepOutliers keep).pin = chart.pin := rfl
  simp only [layers, placedBoxes_keepOutliers, List.flatMap_map, frame, rectangle, whiskers, median,
    upright, crossbar, hpoint, hpin]
  simp [keepOutliers, BoxSummary.keepOutliers]

theorem markers_keepOutliers :
    (chart.keepOutliers keep).markers = chart.placedBoxes.flatMap fun placed =>
      (placed.2.outliers.filter fun value => chart.shows value && keep value).map
        (chart.point placed.1) := by
  have hpoint := point_keepOutliers chart keep
  have hshows : (chart.keepOutliers keep).shows = chart.shows := rfl
  simp only [markers, placedBoxes_keepOutliers, List.flatMap_map, hpoint, hshows,
    BoxSummary.keepOutliers, List.filter_filter]

/-- The axes are drawn by what a box is called, not by its outliers. -/
theorem ground_keepOutliers (library : Library) :
    (chart.keepOutliers keep).ground library = chart.ground library := by
  have htext : boxLabel (chart.boxes.map (BoxSummary.keepOutliers keep)) =
      boxLabel chart.boxes := by
    funext x
    simp only [boxLabel, boxLabel?, List.getElem?_map, Option.map_map]
    rfl
  have haxes : (chart.keepOutliers keep).axes? = chart.axes? := by
    simp only [axes?, keepOutliers, List.length_map, htext]
  rw [ground, ground, haxes]
  rfl

/-- Outliers beyond the axis leave no trace. -/
theorem image_keepOutliers_shows (library : Library) :
    (chart.keepOutliers chart.shows).image library = chart.image library := by
  have hmarkers : (chart.keepOutliers chart.shows).markers = chart.markers := by
    rw [markers_keepOutliers]
    simp only [Bool.and_self]
    rfl
  simp only [image, hmarkers, layers_keepOutliers, ground_keepOutliers]
  rfl

/-- Without outliers, there is nothing but the axes and the layers. -/
theorem image_keepOutliers_none (library : Library) :
    (chart.keepOutliers fun _ => false).image library =
      (chart.ground library).cover chart.layers := by
  have hmarkers : (chart.keepOutliers fun _ => false).markers = [] := by
    simp [markers_keepOutliers]
  simp only [image, hmarkers, layers_keepOutliers, ground_keepOutliers]
  rfl

/-- The axis is fitted to the least and the greatest samples, whichever outliers are kept. -/
theorem axisRange_map_keepOutliers (boxes : List BoxSummary) (bound : Option Float) :
    axisRange (boxes.map (BoxSummary.keepOutliers keep)) bound = axisRange boxes bound := by
  have hfitted : fittedRange (boxes.map (BoxSummary.keepOutliers keep)) = fittedRange boxes := by
    simp only [fittedRange, List.map_map]
    rfl
  cases bound <;> simp only [axisRange, hfitted]

/-- A marker stands for an outlier on the axis. -/
theorem exists_marker_iff {marks : Point → Prop} :
    (∃ center ∈ chart.markers, marks center) ↔ chart.SomeBox fun place box =>
      ∃ value ∈ box.outliers, chart.shows value = true ∧ marks (chart.point place value) := by
  rw [← exists_placed_iff]
  simp only [markers, List.mem_flatMap, List.mem_map, List.mem_filter]
  constructor
  · rintro ⟨_, ⟨placed, hplaced, value, ⟨hvalue, hshows⟩, rfl⟩, hmarks⟩
    exact ⟨placed, hplaced, value, hvalue, hshows, hmarks⟩
  · rintro ⟨placed, hplaced, value, hvalue, hshows, hmarks⟩
    exact ⟨_, ⟨placed, hplaced, value, ⟨hvalue, hshows⟩, rfl⟩, hmarks⟩

end

end Chart

end TimingReport
