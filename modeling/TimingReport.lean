import TimingReport.Main
import TimingReport.Proofs.Report.Atomicity
import TimingReport.Proofs.Table.Meaning
import TimingReport.Proofs.TimingLog.Lines
import TimingReport.Proofs.Number.Rank
import TimingReport.Proofs.Number.Unpacked
import TimingReport.Proofs.Number.Arithmetic
import TimingReport.Proofs.Box.Mixture
import TimingReport.Proofs.Number.Value
import TimingReport.Proofs.Box.Places
import TimingReport.Proofs.Box.Order
import TimingReport.Proofs.Report.Verdict
import TimingReport.Proofs.Report.Meaning
import TimingReport.Proofs.Files.Parent
import TimingReport.Proofs.Chart.Png
import TimingReport.Proofs.Chart.Size
import TimingReport.Proofs.Report.Success
import TimingReport.Proofs.Report.Outputs
import TimingReport.Proofs.TimingLog.Faults
import TimingReport.Proofs.TimingLog.Arrival
import TimingReport.Proofs.Number.Digits
import TimingReport.Proofs.TimingLog.Writing
import TimingReport.Proofs.Table.Rearranged
import TimingReport.Proofs.TimingLog.LineByLine
import TimingReport.Proofs.Files.Alike
import TimingReport.Proofs.Report.FontFiles
import TimingReport.Proofs.Report.FontSearch
import TimingReport.Proofs.Report.Lockstep
import TimingReport.Proofs.Report.LineOrder
import TimingReport.Proofs.Number.ReadBack
import TimingReport.Proofs.Json.Grammar
import TimingReport.Proofs.Json.Unambiguous
import TimingReport.Proofs.Json.Numbers
import TimingReport.Proofs.Json.Printing
import TimingReport.Proofs.Json.Reading
import TimingReport.Proofs.Box.Quartiles
import TimingReport.Proofs.Box.Finite
import TimingReport.Proofs.Report.Summary
import TimingReport.Proofs.Files.Again
import TimingReport.Proofs.Report.Placing
import TimingReport.Proofs.Report.Course
import TimingReport.Proofs.Chart.Layers
import TimingReport.Proofs.Chart.Markers
import TimingReport.Proofs.Report.Picture
import TimingReport.Proofs.Report.FontHistory
import TimingReport.Proofs.Report.Repeated
import TimingReport.Proofs.Report.Events
import TimingReport.Proofs.TimingLog.Appending
import TimingReport.Proofs.TimingLog.Reads
import TimingReport.Proofs.Command.Spelling
import TimingReport.Proofs.Table.Clashes
import TimingReport.Proofs.Table.Selection
import TimingReport.Proofs.Number.Infinite
import TimingReport.Proofs.Box.Spread
import TimingReport.Proofs.Box.Whiskers
import TimingReport.Proofs.Chart.AxisRange
import TimingReport.Proofs.Table.Queries
import TimingReport.Proofs.Table.Text
import TimingReport.Proofs.Box.Arrangement
import TimingReport.Proofs.TimingLog.Layout
import TimingReport.Proofs.Report.FiniteBoxes
import TimingReport.Proofs.Chart.TickText
import TimingReport.Proofs.Chart.BoxLabel
import TimingReport.Proofs.Report.Messages
