import TimingReport.Pattern.TagPattern
import TimingReport.Table.TimingTable

/-!
# Report plans

The paths, the size and the choices of a report, with the measures in pixels that follow
from them.
-/

namespace TimingReport

/-- What a report reads, how it draws and where it writes. -/
structure Plan where
  input : String
  output : String
  /-- Where the box statistics are written as JSON, if at all. -/
  summary : Option String
  /-- The size of the chart in inches. -/
  width : Float
  height : Float
  /-- The size of tick labels in points. -/
  fontSize : Float
  dpi : Nat
  yMax : Float
  /-- Whether the vertical axis ends at `yMax` instead of being fitted to the data. -/
  bounded : Bool
  duplicateRule : DuplicateRule
  /-- The tags that are plotted; all, if absent. -/
  tags : Option Pattern.TagPattern
  /-- The font of tick labels. -/
  font : Option String

namespace Plan

def default : Plan where
  input := "build/test/perf.csv"
  output := "build/test/perf.png"
  summary := none
  width := 5
  height := 5
  fontSize := 8
  dpi := 300
  yMax := 500000000
  bounded := true
  duplicateRule := .reject
  tags := none
  font := none

def pointsInInch : Float := 72

/-- A length in whole pixels, at least one. -/
def pixels (plan : Plan) (inches : Float) : Nat :=
  let size := inches * Number.ofInteger plan.dpi
  max 1 (Number.clampedInteger .nearest 0 Number.maxWord32 size).toNat

/-- The width and the height of the chart in pixels. -/
def imageSize (plan : Plan) : Nat × Nat :=
  (plan.pixels plan.width, plan.pixels plan.height)

/-- The size of tick labels in pixels. -/
def labelSize (plan : Plan) : Float :=
  plan.fontSize * Number.ofInteger plan.dpi / pointsInInch

def pointSize (plan : Plan) : Float := Number.ofInteger plan.dpi / pointsInInch

/-- The upper bound of the vertical axis, if it has one. -/
def axisBound (plan : Plan) : Option Float :=
  if plan.bounded then some plan.yMax else none

/-- Whether a tag is plotted. -/
def plots (plan : Plan) (tag : String) : Bool :=
  plan.tags.all (fun pattern => pattern.selects tag)

end Plan

end TimingReport
