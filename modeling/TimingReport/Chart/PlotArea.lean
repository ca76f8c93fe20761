import TimingReport.Chart.Axis
import TimingReport.Chart.Image

/-!
# From values to pixels

A value is mapped linearly to a pixel between two ends, a little tolerance keeping
values that lie on a pixel there.
-/

namespace TimingReport.Chart

/-- A whole number of pixels, limited to 32 bits. -/
def pixelStep (direction : Number.Direction) (x : Float) : Int :=
  Number.clampedInteger direction (-2147483648) 2147483647 x

def pixelTolerance : Float := 0.001

/-- The pixel of `value`, where `low` lies at `start` and `high` at `stop`. -/
def scale (low high : Float) (start stop : Int) (value : Float) : Int :=
  let fraction := (value - low) / (high - low)
  let length := stop - start
  let distance := Number.ofInteger length * fraction
  if length = 0 then stop
  else if fraction.isInf then if 0 < fraction then stop else start
  else if 0 < length then start + pixelStep .down (distance + pixelTolerance)
  else start + pixelStep .up (distance - pixelTolerance)

/-- A place in an image. -/
structure Point where
  x : Int
  y : Int
  deriving DecidableEq, Repr

/-- The part of an image in which boxes are drawn. -/
structure PlotArea where
  left : Int
  right : Int
  top : Int
  bottom : Int
  deriving DecidableEq, Repr

namespace PlotArea

/-- The area between the given columns and rows, in any order. -/
def between (x x' y y' : Int) : PlotArea := ⟨min x x', max x x', min y y', max y y'⟩

/-- The point of an area in which boxes stand at `1..count`. -/
def point (area : PlotArea) (count : Nat) (range : Range) (x y : Float) : Point :=
  let right := Number.ofInteger count + 0.5
  let column := scale 0.5 right area.left (area.right - 1) x
  let row := scale range.low range.high (area.bottom - 1) area.top y
  ⟨max (min column area.right) area.left, max (min row area.bottom) area.top⟩

end PlotArea

/-- The sizes that a chart is laid out by. -/
structure Layout where
  width : Nat
  height : Nat
  /-- The blank border on all sides. -/
  margin : Nat
  /-- The room for tick labels below the plot and to its left, if there are any. -/
  labelRoom : Option (Nat × Nat)
  deriving DecidableEq, Repr

namespace Layout

/-- From here on a size is no longer a number of pixels that can be reckoned with. -/
def sizeLimit : Nat := 2147483648

/-- What a margin leaves of an image without labels, which is told for sizes within the
limit only. -/
def plainArea? (layout : Layout) : Option PlotArea :=
  let sizes := [layout.width, layout.height, layout.margin]
  let far (size : Nat) : Int := size - layout.margin
  if layout.labelRoom.isNone ∧ ∀ size ∈ sizes, size < sizeLimit then
    some (.between layout.margin (far layout.width) layout.margin (far layout.height))
  else none

end Layout

end TimingReport.Chart
