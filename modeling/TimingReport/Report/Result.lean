import TimingReport.BoxSummary
import TimingReport.Json.Printer

/-!
# Results

What a report has made, and the summary that is written of it.
-/

namespace TimingReport

def BoxSummary.toJson (box : BoxSummary) : Json.Value :=
  .object [
    ("tag", .string box.tag),
    ("count", .integer box.count),
    ("min", .number box.min),
    ("q1", .number box.q1),
    ("median", .number box.median),
    ("q3", .number box.q3),
    ("max", .number box.max),
    ("whisker_low", .number box.whiskerLow),
    ("whisker_high", .number box.whiskerHigh),
    ("outliers", .numbers box.outliers)]

namespace Report

/-- What a report that has not failed tells about itself. -/
structure Result where
  input : String
  output : String
  rows : Nat
  /-- The plotted tags in the order of their boxes. -/
  tags : List String
  axisBound : Option Float
  /-- Whether the chart has tick labels. -/
  labeled : Bool
  boxes : List BoxSummary

namespace Result

def toJson (result : Result) : Json.Value :=
  .object [
    ("input", .string result.input),
    ("output", .string result.output),
    ("rows", .integer result.rows),
    ("tags", .strings result.tags),
    ("y_bound", .ofOption .number result.axisBound),
    ("labeled", .bool result.labeled),
    ("boxes", .array (result.boxes.map BoxSummary.toJson))]

/-- The text of the summary file. -/
def summaryText (result : Result) : String := result.toJson.prettyText

end Result

end Report

end TimingReport
