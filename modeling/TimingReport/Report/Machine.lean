import TimingReport.Chart.Chart
import TimingReport.Chart.Png
import TimingReport.Report.Failure
import TimingReport.Report.Result

/-!
# The machine of a report

Apart from its settings, its files and the fonts that have been loaded, a report depends
on the library that draws and on what fails while a chart is drawn and the outputs are
written. Any of this may fail at any time, for reasons that are the machine's own.
-/

namespace TimingReport.Report

open TimingReport.Chart (Image)

/-- What a file of a report holds. -/
inductive Content where
  | data (bytes : ByteArray)
  | picture (image : Image)

def Content.bytes : Content → List UInt8
  | .data bytes => bytes.data.toList
  | .picture image => Chart.Png.encode image

abbrev FileStore := Files.Store Content

/-- Writing ends before all bytes are written. -/
structure CutOff where
  /-- The number of bytes that are kept, if there are more than these. -/
  kept : Nat
  reason : String

/-- What is left of a text whose writing is cut off, which is never all of it. -/
def CutOff.rest (cut : CutOff) (text : ByteArray) : ByteArray :=
  text.extract 0 (min cut.kept (text.size - 1))

/-- What fails on a machine, with the reasons it gives. -/
structure Faults where
  drawing : Chart → Chart.Part → Option String
  /-- The finished picture cannot be put into its file. -/
  presenting : Image → Option String
  /-- A result cannot be told in JSON. -/
  serializing : Result → Option String
  /-- A file can be opened, but not all of a text can be written to it. -/
  saving : String → ByteArray → Option CutOff

def Faults.none : Faults :=
  ⟨fun _ _ => .none, fun _ => .none, fun _ => .none, fun _ _ => .none⟩

structure Machine where
  library : Chart.Library
  faults : Faults

/-- The picture of a chart, or why one of its parts cannot be drawn. -/
def Machine.draw (machine : Machine) (chart : Chart) : Except String Image :=
  match chart.parts.findSome? (machine.faults.drawing chart) with
  | some reason => .error reason
  | none => .ok (chart.image machine.library)

theorem Machine.draw_ok_iff {machine : Machine} {chart : Chart} {image : Image} :
    machine.draw chart = .ok image ↔
      (∀ part ∈ chart.parts, machine.faults.drawing chart part = none) ∧
        chart.image machine.library = image := by
  rw [Machine.draw, ← List.findSome?_eq_none_iff]
  cases chart.parts.findSome? (machine.faults.drawing chart) <;> simp

end TimingReport.Report
