import TimingReport.Chart.Axis
import TimingReport.Files.Store
import TimingReport.Table.TimingTable
import TimingReport.TimingLog.Source

/-!
# Failures

Why a report fails, and the text that says so.
-/

namespace TimingReport.Report

open TimingReport.Number (Layout)

inductive DrawFault where
  | noColumns
  | range (fault : Chart.RangeFault)
  | unreadableFont (path : String) (error : Files.SystemError)
  | invalidFont (path : String)
  /-- The drawing library fails. -/
  | library (reason : String)

inductive WriteFault where
  | missingDirectory (directory : String)
  | system (error : Files.SystemError)
  /-- What is to be written cannot be made, or not all of it can be written. -/
  | other (reason : String)

inductive Failure where
  /-- The log is missing, unreadable or malformed. -/
  | read (path : String) (fault : TimingLog.ReadFault)
  /-- A cell of the table has two values. -/
  | duplicate (clash : Clash)
  | draw (fault : DrawFault)
  /-- An output cannot be made. -/
  | write (path : String) (fault : WriteFault)

def DrawFault.reason : DrawFault → String
  | .noColumns => "no tag columns to plot"
  | .range (.badBound bound) =>
    s!"y-axis bound must be a positive number, got {Layout.plain.text bound}"
  | .range (.notFinite low high) =>
    s!"cannot fit y-axis to non-finite range {Layout.plain.text low}.." ++
      Layout.plain.text high
  | .unreadableFont path error => s!"read font {path}: {error.message}"
  | .invalidFont path => s!"invalid font {path}"
  | .library reason => reason

def WriteFault.reason : WriteFault → String
  | .missingDirectory directory => s!"output directory {directory} does not exist"
  | .system error => error.message
  | .other reason => reason

/-- A path, with the line if there is one. -/
def pathAndLine (path : String) : Option Nat → String
  | some line => s!"{path}:{line}"
  | none => path

def clashMessage (clash : Clash) : String :=
  s!"duplicate entry for index {clash.index}, tag {Text.quoted clash.tag} " ++
    s!"(values {Layout.plain.text clash.first} and {Layout.plain.text clash.second})"

def Failure.message : Failure → String
  | .read path fault =>
    s!"read error at {pathAndLine path fault.line?}: {fault.reason}"
  | .duplicate clash => clashMessage clash
  | .draw fault => s!"render error: {fault.reason}"
  | .write path fault => s!"write error at {path}: {fault.reason}"

end TimingReport.Report
