import TimingReport.Number.Layout
import TimingReport.Text.Quoted

/-!
# Log events

What a report says about its progress, and how an event is written as a log line.
-/

namespace TimingReport.Report

open TimingReport.Number (Layout)

inductive Level where
  | debug
  | info
  | warn
  deriving DecidableEq, Repr

def Level.name : Level → String
  | .debug => "DEBUG"
  | .info => "INFO"
  | .warn => "WARN"

inductive Event where
  | loading (input : String)
  | parsed (records : Nat) (path : String)
  | pivoted (records rows columns : Nat)
  | registeredFont (font family : String)
  | skippedFont (font error : String)
  | noFont
  | rendering (width height : Nat) (low high : Float) (boxes : Nat)
  | wroteChart (output : String) (boxes : Nat)
  | wroteSummary (summary : String)

/-- The value of a field of an event. -/
inductive FieldValue where
  | text (value : String)
  | quoted (value : String)
  | count (value : Nat)
  | number (value : Float)

def FieldValue.toText : FieldValue → String
  | .text value => value
  | .quoted value => Text.quoted value
  | .count value => toString value
  | .number value => Layout.log.text value

namespace Event

def level : Event → Level
  | .loading _ | .wroteChart .. | .wroteSummary _ => .info
  | .parsed .. | .pivoted .. | .registeredFont .. | .rendering .. => .debug
  | .skippedFont .. | .noFont => .warn

/-- The part of the program that speaks. -/
def target : Event → String
  | .loading _ | .pivoted .. | .wroteChart .. | .wroteSummary _ => "perf_report"
  | .parsed .. => "perf_report::log::parse"
  | .registeredFont .. | .skippedFont .. | .noFont => "perf_report::render::font"
  | .rendering .. => "perf_report::render::boxplot"

def message : Event → String
  | .loading _ => "loading timing log"
  | .parsed .. => "parsed timing log"
  | .pivoted .. => "pivoted timing log"
  | .registeredFont .. => "registered label font"
  | .skippedFont .. => "skipping unusable font"
  | .noFont => "no label font found; drawing chart without tick labels"
  | .rendering .. => "rendering boxplot"
  | .wroteChart .. => "wrote boxplot"
  | .wroteSummary _ => "wrote summary"

def fields : Event → List (String × FieldValue)
  | .loading input => [("input", .text input)]
  | .parsed records path => [("records", .count records), ("path", .text path)]
  | .pivoted records rows columns =>
    [("records", .count records), ("rows", .count rows), ("columns", .count columns)]
  | .registeredFont font family => [("font", .text font), ("family", .quoted family)]
  | .skippedFont font error => [("font", .text font), ("error", .text error)]
  | .noFont => []
  | .rendering width height low high boxes =>
    [("width", .count width), ("height", .count height), ("y_lo", .number low),
     ("y_hi", .number high), ("boxes", .count boxes)]
  | .wroteChart output boxes => [("output", .text output), ("boxes", .count boxes)]
  | .wroteSummary summary => [("summary", .text summary)]

/-- The event as a line of the log. -/
def line (event : Event) : String :=
  let fields := event.fields.map (fun (name, value) => s!" {name}={value.toText}")
  s!"{event.level.name} {event.target}: {event.message}" ++ String.join fields

end Event

end TimingReport.Report
