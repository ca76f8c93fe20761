import TimingReport.Chart.Chart

/-!
# The layers of a chart

A chart is painted layer over layer, so the last layer that marks a pixel gives its colour.  With
a pen one pixel wide, what a layer marks is told by the columns and rows of the values it shows:
median lines on top, then boxes with their whiskers, then the frame, and white elsewhere.
-/

namespace TimingReport.Chart

/-! ## Regions over each other -/

/-- One of the regions has the pixel. -/
def Covers (regions : List Region) (x y : Int) : Prop :=
  ∃ region ∈ regions, region.contains x y = true

instance (regions : List Region) (x y : Int) : Decidable (Covers regions x y) :=
  inferInstanceAs (Decidable (∃ region ∈ regions, region.contains x y = true))

theorem covers_cons {region : Region} {regions : List Region} {x y : Int} :
    Covers (region :: regions) x y ↔ region.contains x y = true ∨ Covers regions x y := by
  simp [Covers]

theorem covers_append {front back : List Region} {x y : Int} :
    Covers (front ++ back) x y ↔ Covers front x y ∨ Covers back x y := by
  simp only [Covers, List.mem_append, or_and_right, exists_or]

theorem covers_flatMap {α : Type} {items : List α} {regions : α → List Region} {x y : Int} :
    Covers (items.flatMap regions) x y ↔ ∃ item ∈ items, Covers (regions item) x y := by
  simp only [Covers, List.mem_flatMap]
  constructor
  · rintro ⟨region, ⟨item, hitem, hregion⟩, hcontains⟩
    exact ⟨item, hitem, region, hregion, hcontains⟩
  · rintro ⟨item, hitem, region, hregion, hcontains⟩
    exact ⟨region, ⟨item, hitem, hregion⟩, hcontains⟩

/-- Regions of one colour hide what they cover. -/
theorem pixelColour_append_map (ground : Colour) (layers : List Layer)
    (regions : List Region) (colour : Colour) (x y : Int) :
    pixelColour ground (layers ++ regions.map (⟨·, colour⟩)) x y =
      if Covers regions x y then colour else pixelColour ground layers x y := by
  simp only [pixelColour, List.foldl_append]
  generalize layers.foldl _ ground = below
  induction regions generalizing below with
  | nil => simp [Covers]
  | cons region rest ih =>
    rw [List.map_cons, List.foldl_cons, ih]
    simp only [covers_cons]
    by_cases hrest : Covers rest x y <;> simp [hrest]

/-! ## A pen one pixel wide -/

/-- The place is one of two ends or between them, whichever of them comes first. -/
def Between (start stop place : Int) : Prop := min start stop ≤ place ∧ place ≤ max start stop

instance (start stop place : Int) : Decidable (Between start stop place) :=
  inferInstanceAs (Decidable (_ ∧ _))

theorem between_self {stop place : Int} : Between stop stop place ↔ place = stop := by
  rw [Between]
  omega

/-- The pixel lies on a side of the rectangle between two corners. -/
def OnOutline (p q : Point) (x y : Int) : Prop :=
  ((y = p.y ∨ y = q.y) ∧ Between p.x q.x x) ∨ ((x = p.x ∨ x = q.x) ∧ Between p.y q.y y)

instance (p q : Point) (x y : Int) : Decidable (OnOutline p q x y) :=
  inferInstanceAs (Decidable (_ ∨ _))

theorem covers_stroke {edges : Number.Direction} {p q : Point} {x y : Int} :
    Covers (stroke edges 1 p q) x y ↔ Between p.x q.x x ∧ Between p.y q.y y := by
  simp [Covers, stroke, Region.contains, Region.crossesColumn, Region.crossesRow, Between]

theorem covers_outline {p q : Point} {x y : Int} :
    Covers (outline 1 p q) x y ↔ OnOutline p q x y := by
  simp only [outline, covers_append, covers_stroke, between_self, OnOutline, or_and_right,
    and_comm, or_assoc]

/-! ## What a chart shows -/

section

variable (chart : Chart)

/-- The column of a place on the horizontal axis. -/
def column (place : Float) : Int :=
  let area := chart.area
  let right := Number.ofInteger chart.boxes.length + 0.5
  max (min (scale 0.5 right area.left (area.right - 1) place) area.right) area.left

/-- The row of a value on the vertical axis. -/
def row (value : Float) : Int :=
  let area := chart.area
  let range := chart.range
  max (min (scale range.low range.high (area.bottom - 1) area.top value) area.bottom)
    area.top

theorem point_eq (place value : Float) :
    chart.point place value = ⟨chart.column place, chart.row value⟩ := rfl

/-- The pixel lies on the frame around all boxes. -/
def OnFrame (x y : Int) : Prop :=
  OnOutline ⟨chart.column 0.5, chart.row chart.range.low⟩
    ⟨chart.column (Number.ofInteger chart.boxes.length + 0.5), chart.row chart.range.high⟩ x y

/-- The pixel lies on the outline of a box, on one of its whiskers or on the cap of one. -/
def OnBox (place : Float) (box : BoxSummary) (x y : Int) : Prop :=
  OnOutline ⟨chart.column (place - boxArm), chart.row (chart.pin box.q1)⟩
      ⟨chart.column (place + boxArm), chart.row (chart.pin box.q3)⟩ x y ∨
    (x = chart.column place ∧
      (Between (chart.row (chart.pin box.q1)) (chart.row (chart.pin box.whiskerLow)) y ∨
        Between (chart.row (chart.pin box.q3)) (chart.row (chart.pin box.whiskerHigh)) y)) ∨
    ((y = chart.row (chart.pin box.whiskerLow) ∨ y = chart.row (chart.pin box.whiskerHigh)) ∧
      Between (chart.column (place - capArm)) (chart.column (place + capArm)) x)

/-- The pixel lies on the median line of a box. -/
def OnMedian (place : Float) (box : BoxSummary) (x y : Int) : Prop :=
  y = chart.row (chart.pin box.median) ∧
    Between (chart.column (place - boxArm)) (chart.column (place + boxArm)) x

instance (x y : Int) : Decidable (chart.OnFrame x y) :=
  inferInstanceAs (Decidable (OnOutline _ _ _ _))

instance (place : Float) (box : BoxSummary) (x y : Int) : Decidable (chart.OnBox place box x y) :=
  inferInstanceAs (Decidable (_ ∨ _))

instance (place : Float) (box : BoxSummary) (x y : Int) :
    Decidable (chart.OnMedian place box x y) :=
  inferInstanceAs (Decidable (_ ∧ _))

/-- It holds of a box and its place; boxes stand at `1`, `2` and so on. -/
def SomeBox (marks : Float → BoxSummary → Prop) : Prop :=
  ∃ i, ∃ hi : i < chart.boxes.length, marks (Number.ofInteger (i + 1 : Nat)) chart.boxes[i]

instance (marks : Float → BoxSummary → Prop) [∀ place box, Decidable (marks place box)] :
    Decidable (chart.SomeBox marks) :=
  inferInstanceAs (Decidable (∃ i, ∃ _ : i < chart.boxes.length, _))

theorem exists_placed_iff {marks : Float → BoxSummary → Prop} :
    (∃ placed ∈ chart.placedBoxes, marks placed.1 placed.2) ↔ chart.SomeBox marks := by
  simp only [placedBoxes, List.mem_map, Prod.exists, SomeBox,
    List.mk_mem_zipIdx_iff_le_and_getElem?_sub]
  constructor
  · rintro ⟨_, _, ⟨box, place, ⟨hplace, hbox⟩, heq⟩, hmarks⟩
    obtain ⟨rfl, rfl⟩ := Prod.mk.inj heq
    obtain ⟨hi, rfl⟩ := List.getElem?_eq_some_iff.1 hbox
    exact ⟨place - 1, hi, by rwa [Nat.sub_add_cancel hplace]⟩
  · rintro ⟨i, hi, hmarks⟩
    exact ⟨_, _, ⟨chart.boxes[i], i + 1, ⟨by omega, by simp [hi]⟩, rfl⟩, hmarks⟩

/-- The colour of a pixel of a chart without labels: a median line hides the boxes, and a
box hides the frame. -/
def colourAt (x y : Int) : Colour :=
  if chart.SomeBox fun place box => chart.OnMedian place box x y then medianOrange
  else if chart.SomeBox fun place box => chart.OnBox place box x y then boxBlue
  else if chart.OnFrame x y then .black
  else .white

end

section

variable {chart : Chart} {x y : Int}

theorem covers_crossbar (hpen : chart.lineWidth = 1) {halfWidth place value : Float} :
    Covers (chart.crossbar halfWidth place value) x y ↔
      y = chart.row (chart.pin value) ∧
        Between (chart.column (place - halfWidth)) (chart.column (place + halfWidth)) x := by
  rw [crossbar, line, hpen, covers_stroke, point_eq, point_eq, between_self, and_comm]

theorem covers_upright (hpen : chart.lineWidth = 1) {place start stop : Float} :
    Covers (chart.upright place start stop) x y ↔
      x = chart.column place ∧
        Between (chart.row (chart.pin start)) (chart.row (chart.pin stop)) y := by
  rw [upright, line, hpen, covers_stroke, point_eq, point_eq, between_self]

theorem covers_frame (hpen : chart.lineWidth = 1) :
    Covers chart.frame x y ↔ chart.OnFrame x y := by
  rw [frame, hpen, covers_outline, OnFrame, point_eq, point_eq]

theorem covers_boxes (hpen : chart.lineWidth = 1) {place : Float} {box : BoxSummary} :
    Covers (chart.rectangle place box) x y ∨ Covers (chart.whiskers place box) x y ↔
      chart.OnBox place box x y := by
  simp only [rectangle, whiskers, hpen, covers_append, covers_outline, covers_upright hpen,
    covers_crossbar hpen, OnBox, point_eq, and_or_left, or_and_right, or_assoc]

theorem covers_median (hpen : chart.lineWidth = 1) {place : Float} {box : BoxSummary} :
    Covers (chart.median place box) x y ↔ chart.OnMedian place box x y :=
  covers_crossbar hpen

/-- Boxes and whiskers have one colour, so they are one layer. -/
theorem layers_eq (chart : Chart) :
    chart.layers = [] ++ chart.frame.map (⟨·, .black⟩) ++
      ((chart.placedBoxes.flatMap fun placed => chart.rectangle placed.1 placed.2) ++
        chart.placedBoxes.flatMap fun placed => chart.whiskers placed.1 placed.2).map
          (⟨·, boxBlue⟩) ++
      (chart.placedBoxes.flatMap fun placed => chart.median placed.1 placed.2).map
        (⟨·, medianOrange⟩) := by
  rw [List.map_append, ← List.append_assoc]
  rfl

/-- The last layer that marks a pixel gives its colour. -/
theorem pixelColour_layers (hpen : chart.lineWidth = 1) :
    pixelColour .white chart.layers x y = chart.colourAt x y := by
  have hmedians : Covers (chart.placedBoxes.flatMap fun placed => chart.median placed.1 placed.2)
      x y ↔ chart.SomeBox fun place box => chart.OnMedian place box x y := by
    rw [covers_flatMap, ← exists_placed_iff]
    simp only [covers_median hpen]
  have hboxes : Covers ((chart.placedBoxes.flatMap fun placed =>
        chart.rectangle placed.1 placed.2) ++
        chart.placedBoxes.flatMap fun placed => chart.whiskers placed.1 placed.2) x y ↔
      chart.SomeBox fun place box => chart.OnBox place box x y := by
    rw [covers_append, covers_flatMap, covers_flatMap, ← exists_placed_iff, ← exists_or]
    simp only [← and_or_left, covers_boxes hpen]
  rw [layers_eq]
  simp only [pixelColour_append_map, covers_frame hpen, hmedians, hboxes, colourAt]
  rfl

end

end TimingReport.Chart
