import TimingReport.Chart.Circle

/-!
# The drawing library

Fonts are read, tick labels are set and thick circles are drawn by a library of its own.
What it does with a font and where it marks pixels is a parameter of all that is drawn.
-/

namespace TimingReport.Chart

/-- A font as the library knows it: the family it goes by, and the bytes of its file. -/
structure Font where
  family : String
  data : List UInt8
  deriving DecidableEq, Repr

/-- How tick labels are written. -/
structure Labels where
  font : Font
  /-- The size in pixels. -/
  size : Float

/-- What is asked for where a chart has axes with tick labels. -/
structure Axes where
  layout : Layout
  area : PlotArea
  labels : Labels
  lineWidth : Nat
  /-- The range of the horizontal axis is that of as many boxes. -/
  boxCount : Nat
  range : Range
  /-- How many ticks there are about on each axis. -/
  columnTicks : Nat
  rowTicks : Nat
  columnText : Float → String
  rowText : Float → String

/-- A circle drawn with a pen more than one pixel wide. -/
structure Ring where
  center : Point
  radius : Nat
  lineWidth : Nat

/-- What a drawing library does that is not told by rules of its own here. -/
structure Library where
  /-- Whether the bytes of a file are a font. -/
  isFont : List UInt8 → Bool
  /-- The area of a chart with tick labels, or of sizes beyond the limit. -/
  area : Layout → PlotArea
  /-- The pixels that axes cover with black. -/
  axes : Axes → List Touch
  ring : Ring → List Touch

/-- The area in which boxes are drawn. -/
def Library.areaOf (library : Library) (layout : Layout) : PlotArea :=
  layout.plainArea?.getD (library.area layout)

end TimingReport.Chart
