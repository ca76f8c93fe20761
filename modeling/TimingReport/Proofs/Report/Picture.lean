import Mathlib.Algebra.Order.Round
import Mathlib.Data.Rat.Floor
import TimingReport.Proofs.Chart.Markers
import TimingReport.Proofs.Report.Course
import TimingReport.Report.Reference

/-!
# The picture that a report draws

At low resolutions the pen is one pixel wide, and the picture of a chart without tick labels is told
pixel by pixel: its layers lie as they are named, and outliers mark their own place only.
-/

namespace TimingReport.Report

open Step
open Chart (Image Near)

/-! ## The picture that is drawn -/

section

variable {machine : Machine} {plan : Plan} {boxes : List BoxSummary} {path : String}
  {files : FileStore} {fonts : FontCache}

/-- Drawing the boxes without tick labels succeeds and leaves this picture at the path. -/
def Draws (machine : Machine) (plan : Plan) (boxes : List BoxSummary) (path : String)
    (files : FileStore) (fonts : FontCache) (image : Image) : Prop :=
  ∃ after, (drawChart machine plan boxes path).runOn files fonts = (.ok false, after) ∧
    after.files.read path = .ok (.picture image)

/-- What was drawn had a range, a look for its font and a place for its picture. -/
theorem drawn_of_ok {labeled : Bool} {after : Session}
    (hdraw : (drawChart machine plan boxes path).runOn files fonts = (.ok labeled, after)) :
    ∃ range found location image, ranged plan boxes = .ok range ∧
      fontFound machine files fonts plan.font = .ok found ∧ labeled = found.font.isSome ∧
      chartLocation files path = .ok location ∧
      machine.draw (.ofBoxes machine.library plan range found.font boxes) = .ok image ∧
      after.files.read path = .ok (.picture image) := by
  rw [runOn_eq_exec, exec_drawChart] at hdraw
  dsimp only at hdraw
  cases hrange : ranged plan boxes with
  | error failure => simp [hrange] at hdraw
  | ok range =>
    rw [hrange] at hdraw
    dsimp only at hdraw
    cases hfont : fontFound machine files fonts plan.font with
    | error failure => simp [hfont] at hdraw
    | ok found =>
      rw [hfont] at hdraw
      dsimp only at hdraw
      cases hpictured : pictured machine files path
          (.ofBoxes machine.library plan range found.font boxes) with
      | error failure => simp [hpictured] at hdraw
      | ok placed =>
        obtain ⟨location, image⟩ := placed
        rw [hpictured] at hdraw
        obtain ⟨houtcome, rfl⟩ := Prod.mk.inj hdraw
        obtain ⟨hlocation, hdrawn⟩ := pictured_ok_iff.1 hpictured
        exact ⟨range, found, location, image, rfl, rfl, (Except.ok.inj houtcome).symm, hlocation,
          (drawn_ok_iff.1 hdrawn).1, (placed_of_chartLocation hlocation _).read_eq⟩

/-- A picture without tick labels is the one of its boxes. -/
theorem Draws.pictures {image : Image}
    (hdraws : Draws machine plan boxes path files fonts image) :
    Pictures machine plan none boxes image := by
  obtain ⟨after, hdraw, hread⟩ := hdraws
  obtain ⟨range, found, location, drawn, hrange, -, hlabeled, -, hdrawn, hplaced⟩ :=
    drawn_of_ok hdraw
  have hnone : found.font = none := by simpa using hlabeled.symm
  obtain rfl : image = drawn := Content.picture.inj (Except.ok.inj (hread.symm.trans hplaced))
  exact ⟨range, axisRange_of_ranged hrange, by rwa [hnone] at hdrawn⟩

theorem ranged_map_keepOutliers (keep : Float → Bool) :
    ranged plan (boxes.map (BoxSummary.keepOutliers keep)) = ranged plan boxes := by
  simp only [ranged, List.isEmpty_map, Chart.axisRange_map_keepOutliers]

/-- Boxes without some of their outliers have the range that they have with all, so their chart is
the other chart without these outliers. -/
theorem Draws.image_keepOutliers {range : Chart.Range} {keep : Float → Bool} {image : Image}
    (haxis : Chart.axisRange boxes plan.axisBound = .ok range)
    (hdraws : Draws machine plan (boxes.map (BoxSummary.keepOutliers keep)) path files fonts
      image) :
    ((Chart.ofBoxes machine.library plan range none boxes).keepOutliers keep).image
      machine.library = image := by
  obtain ⟨keptRange, hkept, hdrawn⟩ := hdraws.pictures
  rw [Chart.axisRange_map_keepOutliers, haxis] at hkept
  obtain rfl := Except.ok.inj hkept
  exact (Machine.draw_ok_iff.1 hdrawn).2

/-- A machine that draws everything draws boxes without some of their outliers where it draws
them with all. -/
theorem exists_draws_keepOutliers (hall : machine.DrawsAll) {image : Image}
    (hdraws : Draws machine plan boxes path files fonts image) (keep : Float → Bool) :
    ∃ other, Draws machine plan (boxes.map (BoxSummary.keepOutliers keep)) path files fonts
      other := by
  obtain ⟨after, hdraw, -⟩ := hdraws
  obtain ⟨range, found, location, -, hrange, hfont, hlabeled, hlocation, -, -⟩ :=
    drawn_of_ok hdraw
  obtain ⟨other, hother⟩ := hall.exists_drawn path
    (.ofBoxes machine.library plan range found.font (boxes.map (BoxSummary.keepOutliers keep)))
  have hexec := exec_drawChart machine plan (boxes.map (BoxSummary.keepOutliers keep)) path
    ⟨files, fonts, []⟩
  simp only [ranged_map_keepOutliers, hrange, hfont, ← hlabeled,
    pictured_ok_iff.2 ⟨hlocation, hother⟩] at hexec
  exact ⟨other, _, hexec, (placed_of_chartLocation hlocation _).read_eq⟩

end

/-! ## Low resolutions -/

/-- How far an outlier is marked around its place: three points in whole pixels, at least one. -/
def outlierReach (plan : Plan) : Nat := max 1 (round (3 * (plan.dpi : ℚ) / 72)).toNat

theorem outlierReach_eq (plan : Plan) : outlierReach plan = max 1 ((plan.dpi + 12) / 24) := by
  have hhalf :
      3 * (plan.dpi : ℚ) / 72 + 1 / 2 = ((plan.dpi + 12 : Nat) : ℚ) / ((24 : Nat) : ℚ) := by
    push_cast
    ring
  rw [outlierReach, round_eq, hhalf, Rat.floor_natCast_div_natCast]
  rfl

/-- The pixel is around the place of an outlier that lies on the axis. -/
def NearOutlier (plan : Plan) (chart : Chart) (x y : Int) : Prop :=
  ∃ i, ∃ hi : i < chart.boxes.length, ∃ value ∈ chart.boxes[i].outliers,
    (chart.range.low ≤ value ∧ value ≤ chart.range.high) ∧
      Near ⟨chart.column (Number.ofInteger (i + 1 : Nat)), chart.row value⟩ (outlierReach plan) x y

instance (plan : Plan) (chart : Chart) (x y : Int) : Decidable (NearOutlier plan chart x y) :=
  inferInstanceAs (Decidable (∃ i, ∃ _ : i < chart.boxes.length, _))

section

variable {plan : Plan} (hdpi : plan.dpi < 108) (library : Chart.Library) (range : Chart.Range)
  (font : Option Chart.Font) (boxes : List BoxSummary)

include hdpi

/-- One point is less than one and a half pixels. -/
theorem lineWidth_ofBoxes :
    (Chart.ofBoxes library plan range font boxes).lineWidth = 1 := by
  have hall : ∀ dpi < 108, max 1 (Chart.wholePixels
      (Number.ofInteger (dpi : Nat) / Plan.pointsInInch)) = 1 := by decide +kernel
  exact hall plan.dpi hdpi

theorem markerRadius_ofBoxes :
    (Chart.ofBoxes library plan range font boxes).markerRadius = outlierReach plan := by
  have hall : ∀ dpi < 108, max 1 (Chart.wholePixels
      (3 * (Number.ofInteger (dpi : Nat) / Plan.pointsInInch))) = max 1 ((dpi + 12) / 24) := by
    decide +kernel
  rw [outlierReach_eq]
  exact hall plan.dpi hdpi

/-- Outliers change what is around their places on the axis, and nothing else. -/
theorem image_ofBoxes_changesOnly :
    let chart := Chart.ofBoxes library plan range font boxes
    Chart.ChangesOnly (NearOutlier plan chart) ((chart.ground library).cover chart.layers)
      (chart.image library) := by
  intro chart
  have hpen : chart.lineWidth = 1 := lineWidth_ofBoxes hdpi library range font boxes
  have hradius : chart.markerRadius = outlierReach plan :=
    markerRadius_ofBoxes hdpi library range font boxes
  have hreach := outlierReach_eq plan
  refine (Chart.image_changesOnly hpen (by omega) (by omega) library).mono fun x y hnear => ?_
  obtain ⟨i, hi, value, hvalue, hshows, hnear⟩ := chart.exists_marker_iff.1 hnear
  rw [hradius] at hnear
  exact ⟨i, hi, value, hvalue, by simpa [Chart.shows] using hshows, hnear⟩

end

/-! ## The picture -/

section

variable {machine : Machine} {plan : Plan} {boxes : List BoxSummary} {path : String}
  {files : FileStore} {fonts : FontCache} {after : Session}

/-- Without outliers on the axis, the picture of boxes that were drawn at a low resolution and
without tick labels is as wide and high as its plan says, as is told by its file, and each of its
pixels has the colour of the topmost line that it lies on: of a median line, else of the outline,
the whiskers and the caps of a box, else of the frame; and it is white if it lies on none. -/
theorem drawChart_pixels
    (hdraw : (drawChart machine plan boxes path).runOn files fonts = (.ok false, after))
    (hdpi : plan.dpi < 108)
    (houtliers : ∀ range, Chart.axisRange boxes plan.axisBound = .ok range →
      ∀ box ∈ boxes, ∀ value ∈ box.outliers, ¬ (range.low ≤ value ∧ value ≤ range.high)) :
    ∃ range, Chart.axisRange boxes plan.axisBound = .ok range ∧
      let chart := Chart.ofBoxes machine.library plan range none boxes
      let image := chart.image machine.library
      after.files.read path = .ok (.picture image) ∧
        (image.width, image.height) = plan.imageSize ∧
        Chart.Png.decode (Content.picture image).bytes = some image.raster ∧
        ∀ x y : Nat, x < plan.imageSize.1 → y < plan.imageSize.2 →
          image.pixel? x y = some (chart.colourAt x y) := by
  obtain ⟨-, -, -, image, -, -, -, -, -, hread⟩ := drawn_of_ok hdraw
  have hpictures := Draws.pictures ⟨after, hdraw, hread⟩
  have hsize := hpictures.size_eq
  have hdecode := hpictures.decode_eq
  obtain ⟨range, haxis, hdrawn⟩ := hpictures
  obtain ⟨-, rfl⟩ := Machine.draw_ok_iff.1 hdrawn
  refine ⟨range, haxis, hread, hsize, hdecode, fun x y hx hy => ?_⟩
  have hnone : ¬ NearOutlier plan (.ofBoxes machine.library plan range none boxes) x y :=
    fun ⟨i, hi, value, hvalue, hshown, _⟩ =>
      houtliers range haxis _ (List.getElem_mem hi) value hvalue hshown
  have hblank : (Image.blank plan.imageSize.1 plan.imageSize.2).pixel? x y = some .white :=
    Image.pixel?_blank ⟨by omega, Int.ofNat_lt.2 hx⟩ ⟨by omega, Int.ofNat_lt.2 hy⟩
  rw [image_ofBoxes_changesOnly hdpi machine.library range none boxes x y hnone,
    Chart.pixel?_cover]
  change ((Image.blank plan.imageSize.1 plan.imageSize.2).pixel? x y).map _ = _
  rw [hblank, Option.map_some,
    Chart.pixelColour_layers (lineWidth_ofBoxes hdpi machine.library range none boxes)]

/-- An outlier beyond the bound does not count, and a median hides its box. -/
theorem drawChart_pixels_median :
    let boxes := [BoxSummary.ofSorted "a" [1, 20, 30, 40, 100]]
    let plan : Plan := { Plan.default with dpi := 8, yMax := 50 }
    let machine := Machine.reference
    let files : FileStore := .empty
    ∃ after image,
      (drawChart machine plan boxes "p.png").runOn files [] = (.ok false, after) ∧
        plan.dpi < 108 ∧
        (∀ box ∈ boxes, ∀ value ∈ box.outliers, ¬ (0 ≤ value ∧ value ≤ 50)) ∧
        after.files.read "p.png" = .ok (.picture image) ∧
        (image.width, image.height) = (40, 40) ∧
        Chart.Png.decode (Content.picture image).bytes = some image.raster ∧
        image.pixel? 10 16 = some Chart.medianOrange ∧
        image.pixel? 10 17 = some Chart.boxBlue ∧
        image.pixel? 1 38 = some .black ∧ image.pixel? 0 39 = some .white := by
  intro boxes plan machine files
  have houtliers : ∀ box ∈ boxes, ∀ value ∈ box.outliers, ¬ (0 ≤ value ∧ value ≤ 50) := by
    decide +kernel
  have haxis : Chart.axisRange boxes plan.axisBound = .ok ⟨0, 50⟩ := if_pos (by decide +kernel)
  have hsize : plan.imageSize = (40, 40) := by decide +kernel
  obtain ⟨after, hdraw⟩ : ∃ after,
      (drawChart machine plan boxes "p.png").runOn files [] = (.ok false, after) :=
    ⟨_, Prod.ext (Fallible.toOption_eq_some_iff.1 (by decide +kernel)) rfl⟩
  obtain ⟨range, hrange, hread, hwhole, hdecode, hpixels⟩ :=
    drawChart_pixels hdraw (by decide) fun range hrange => by
      obtain rfl : ⟨0, 50⟩ = range := Except.ok.inj (haxis.symm.trans hrange)
      exact houtliers
  obtain rfl : ⟨0, 50⟩ = range := Except.ok.inj (haxis.symm.trans hrange)
  rw [hsize] at hwhole hpixels
  refine ⟨after, _, hdraw, by decide, houtliers, hread, hwhole, hdecode, ?_, ?_, ?_, ?_⟩
  · exact (hpixels 10 16 (by decide) (by decide)).trans (by decide +kernel)
  · exact (hpixels 10 17 (by decide) (by decide)).trans (by decide +kernel)
  · exact (hpixels 1 38 (by decide) (by decide)).trans (by decide +kernel)
  · exact (hpixels 0 39 (by decide) (by decide)).trans (by decide +kernel)

/-- Outliers beyond the ends of the axis leave no trace in the picture of boxes that were drawn at a
low resolution and without tick labels: drawn without them, the boxes make the same picture.  Drawn
without any outliers, they make a picture that differs from it around the places of those outliers
only that lie on the axis.  A machine that draws everything draws both. -/
theorem drawChart_outliers
    (hdraw : (drawChart machine plan boxes path).runOn files fonts = (.ok false, after))
    (hdpi : plan.dpi < 108) :
    ∃ range, Chart.axisRange boxes plan.axisBound = .ok range ∧
      let chart := Chart.ofBoxes machine.library plan range none boxes
      let image := chart.image machine.library
      let onAxis := fun value => range.low ≤ value && value ≤ range.high
      let shown := boxes.map (BoxSummary.keepOutliers onAxis)
      let bare := boxes.map (BoxSummary.keepOutliers fun _ => false)
      after.files.read path = .ok (.picture image) ∧
        (∀ other, Draws machine plan shown path files fonts other → other = image) ∧
        (∀ other, Draws machine plan bare path files fonts other →
          ∀ x y : Int, image.pixel? x y ≠ other.pixel? x y → NearOutlier plan chart x y) ∧
        (machine.DrawsAll → (∃ other, Draws machine plan shown path files fonts other) ∧
          ∃ other, Draws machine plan bare path files fonts other) := by
  obtain ⟨-, -, -, image, -, -, -, -, -, hread⟩ := drawn_of_ok hdraw
  have hdraws : Draws machine plan boxes path files fonts image := ⟨after, hdraw, hread⟩
  obtain ⟨range, haxis, hdrawn⟩ := hdraws.pictures
  obtain ⟨-, rfl⟩ := Machine.draw_ok_iff.1 hdrawn
  refine ⟨range, haxis, hread, fun other hother => ?_, fun other hother x y hdiffers => ?_,
    fun hall => ⟨exists_draws_keepOutliers hall hdraws _,
      exists_draws_keepOutliers hall hdraws _⟩⟩
  · rw [← hother.image_keepOutliers haxis]
    exact Chart.image_keepOutliers_shows (.ofBoxes machine.library plan range none boxes) _
  · rw [← hother.image_keepOutliers haxis, Chart.image_keepOutliers_none] at hdiffers
    by_contra hfar
    exact hdiffers (image_ofBoxes_changesOnly hdpi machine.library range none boxes x y hfar)

/-- The one outlier on the axis is drawn, and a pixel away from it is the same without it. -/
theorem drawChart_outliers_one_on_axis :
    let boxes := [BoxSummary.ofSorted "a" [20, 21, 22, 23, 24, 25, 26, 45, 100]]
    let plan : Plan := { Plan.default with dpi := 8, yMax := 50 }
    let machine := Machine.reference
    let files : FileStore := .empty
    ∃ after image bare,
      (drawChart machine plan boxes "p.png").runOn files [] = (.ok false, after) ∧
        plan.dpi < 108 ∧ after.files.read "p.png" = .ok (.picture image) ∧
        Draws machine plan
          (boxes.map (BoxSummary.keepOutliers fun value => 0 ≤ value && value ≤ 50)) "p.png"
          files [] image ∧
        Draws machine plan (boxes.map (BoxSummary.keepOutliers fun _ => false)) "p.png" files []
          bare ∧
        image.pixel? 19 4 = some .black ∧ image.pixel? 19 20 = bare.pixel? 19 20 := by
  intro boxes plan machine files
  have haxis : Chart.axisRange boxes plan.axisBound = .ok ⟨0, 50⟩ := if_pos (by decide +kernel)
  obtain ⟨after, hdraw⟩ : ∃ after,
      (drawChart machine plan boxes "p.png").runOn files [] = (.ok false, after) :=
    ⟨_, Prod.ext (Fallible.toOption_eq_some_iff.1 (by decide +kernel)) rfl⟩
  obtain ⟨range, hrange, hread, hsame, hnear, hdraws⟩ := drawChart_outliers hdraw (by decide)
  obtain rfl : ⟨0, 50⟩ = range := Except.ok.inj (haxis.symm.trans hrange)
  obtain ⟨⟨shown, hshown⟩, bare, hbare⟩ := hdraws Machine.drawsAll_reference
  refine ⟨after, _, bare, hdraw, by decide, hread, hsame shown hshown ▸ hshown, hbare,
    by decide +kernel, ?_⟩
  by_contra hdiffers
  exact absurd (hnear bare hbare 19 20 hdiffers) (by decide +kernel)

end

end TimingReport.Report
