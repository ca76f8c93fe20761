import TimingReport.Chart.Library
import TimingReport.Chart.Pen
import TimingReport.Plan

/-!
# Box-and-whisker charts

A chart is the data that its picture depends on. The picture shows axes with tick labels
if there is a font, a frame, for every box a rectangle from the first to the third
quartile with whiskers and a median line, and outliers as circles. Values beyond the
axis are drawn at its end, except outliers, which are left out.
-/

namespace TimingReport

structure Chart extends Chart.Layout where
  area : Chart.PlotArea
  /-- How tick labels are written, if there are any. -/
  labels : Option Chart.Labels
  lineWidth : Nat
  markerRadius : Nat
  range : Chart.Range
  boxes : List BoxSummary

namespace Chart

/-- A length in pixels that may be zero. -/
def wholePixels (x : Float) : Nat :=
  (Number.clampedInteger .nearest 0 Number.maxWord32 x).toNat

/-- The sizes of a chart as the settings have it. -/
def layoutOf (plan : Plan) (labeled : Bool) : Layout where
  width := plan.imageSize.1
  height := plan.imageSize.2
  margin := wholePixels plan.labelSize
  labelRoom :=
    if labeled then
      some (wholePixels (plan.labelSize * 2.5), wholePixels (plan.labelSize * 5))
    else none

/-- The chart of some boxes as the settings have it. -/
def ofBoxes (library : Library) (plan : Plan) (range : Range) (font : Option Font)
    (boxes : List BoxSummary) : Chart :=
  let layout := layoutOf plan font.isSome
  { layout with
    area := library.areaOf layout
    labels := font.map (⟨·, plan.labelSize⟩)
    lineWidth := max 1 (wholePixels plan.pointSize)
    markerRadius := max 1 (wholePixels (3 * plan.pointSize))
    range
    boxes }

def point (chart : Chart) (x y : Float) : Point :=
  chart.area.point chart.boxes.length chart.range x y

/-- The value, or the end of the axis that it lies beyond. -/
def pin (chart : Chart) (value : Float) : Float :=
  if value < chart.range.low then chart.range.low
  else if chart.range.high < value then chart.range.high
  else value

/-- The boxes with their places on the horizontal axis. -/
def placedBoxes (chart : Chart) : List (Float × BoxSummary) :=
  (chart.boxes.zipIdx 1).map (fun (box, place) => (Number.ofInteger place, box))

def boxBlue : Colour := ⟨31, 119, 180⟩

def medianOrange : Colour := ⟨255, 127, 14⟩

/-- Half the width of a box and of the cap of a whisker. -/
def boxArm : Float := 0.25

def capArm : Float := 0.125

def frame (chart : Chart) : List Region :=
  let right := Number.ofInteger chart.boxes.length + 0.5
  outline chart.lineWidth (chart.point 0.5 chart.range.low)
    (chart.point right chart.range.high)

def rectangle (chart : Chart) (x : Float) (box : BoxSummary) : List Region :=
  outline chart.lineWidth (chart.point (x - boxArm) (chart.pin box.q1))
    (chart.point (x + boxArm) (chart.pin box.q3))

/-- A line between two values at one place. -/
def upright (chart : Chart) (x start stop : Float) : List Region :=
  line chart.lineWidth (chart.point x (chart.pin start))
    (chart.point x (chart.pin stop))

/-- A line across a place at one value. -/
def crossbar (chart : Chart) (halfWidth x value : Float) : List Region :=
  line chart.lineWidth (chart.point (x - halfWidth) (chart.pin value))
    (chart.point (x + halfWidth) (chart.pin value))

def whiskers (chart : Chart) (x : Float) (box : BoxSummary) : List Region :=
  chart.upright x box.q1 box.whiskerLow ++ chart.upright x box.q3 box.whiskerHigh ++
    chart.crossbar capArm x box.whiskerLow ++ chart.crossbar capArm x box.whiskerHigh

def median (chart : Chart) (x : Float) (box : BoxSummary) : List Region :=
  chart.crossbar boxArm x box.median

/-- Everything but the axes and the outliers, from the bottom to the top. -/
def layers (chart : Chart) : List Layer :=
  let coloured (colour : Colour) (regions : List Region) : List Layer :=
    regions.map (⟨·, colour⟩)
  let boxes := chart.placedBoxes
  coloured .black chart.frame ++
    coloured boxBlue (boxes.flatMap (fun (x, box) => chart.rectangle x box)) ++
    coloured boxBlue (boxes.flatMap (fun (x, box) => chart.whiskers x box)) ++
    coloured medianOrange (boxes.flatMap (fun (x, box) => chart.median x box))

/-- Whether a value lies on the axis. -/
def shows (chart : Chart) (value : Float) : Bool :=
  chart.range.low ≤ value && value ≤ chart.range.high

/-- The middles of the outliers that are drawn. -/
def markers (chart : Chart) : List Point :=
  chart.placedBoxes.flatMap
    (fun (x, box) => (box.outliers.filter chart.shows).map (chart.point x))

/-- About so many ticks are on the vertical axis. -/
def rowTicks : Nat := 6

/-- The axes of a chart with tick labels. -/
def axes? (chart : Chart) : Option Axes :=
  chart.labels.map fun labels =>
    { layout := chart.toLayout
      area := chart.area
      labels
      lineWidth := chart.lineWidth
      boxCount := chart.boxes.length
      range := chart.range
      columnTicks := chart.boxes.length
      rowTicks
      columnText := boxLabel chart.boxes
      rowText := tickText }

/-- What lies below the frame: nothing but the axes. -/
def ground (chart : Chart) (library : Library) : Image :=
  let blank := Image.blank chart.width chart.height
  match chart.axes? with
  | none => blank
  | some axes => blank.touchAll .black (library.axes axes)

/-- Marks an outlier. -/
def mark (chart : Chart) (library : Library) (image : Image) (center : Point) : Image :=
  let touches :=
    if chart.lineWidth = 1 then circle center chart.markerRadius
    else library.ring ⟨center, chart.markerRadius, chart.lineWidth⟩
  image.touchAll .black touches

/-- The picture of a chart: the axes, the layers over them and the outliers on top. -/
def image (chart : Chart) (library : Library) : Image :=
  chart.markers.foldl (chart.mark library) ((chart.ground library).cover chart.layers)

/-- A part of a chart that is drawn by one call of the library. -/
inductive Part where
  | background
  | coordinates
  | axes
  | frame
  | rectangles
  | whiskers
  | medians
  | outliers
  deriving DecidableEq, Repr

/-- The parts of a chart in the order in which they are drawn. -/
def parts (chart : Chart) : List Part :=
  [.background, .coordinates] ++ (if chart.labels.isSome then [.axes] else []) ++
    [.frame, .rectangles, .whiskers, .medians, .outliers]

end Chart

end TimingReport
