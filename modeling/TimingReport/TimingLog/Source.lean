import TimingReport.TimingLog.Measurement

/-!
# Reading a timing log

A source hands out its bytes in reads and may fail after them. The rows are judged one
by one as they end, so the first faulty row decides, whatever follows it. A byte order
mark is looked for in the first read alone, and a read that brings nothing means that
the log has ended.
-/

namespace TimingReport.TimingLog

/-- A log as it arrives. -/
structure Source where
  reads : List (List UInt8)
  /-- Why there is no read after the last one; a source without a failure has come to
  its end. -/
  failure : Option String

def Source.ofBytes (bytes : List UInt8) : Source := ⟨[bytes], none⟩

/-- Why a log cannot be read. -/
inductive ReadFault where
  | badRow (start : Position) (fault : RowFault)
  | unreadable (reason : String)

/-- The line that a fault is reported for. -/
def ReadFault.line? : ReadFault → Option Nat
  | .badRow start _ => some start.line
  | .unreadable _ => none

def ReadFault.reason : ReadFault → String
  | .badRow start fault => fault.message start
  | .unreadable reason => reason

/-- The measurements read so far and the row that is open. -/
structure Progress where
  splitter : Splitter
  measurements : Array Measurement

namespace Progress

def initial (skipped : Nat) : Progress := ⟨.initial skipped, #[]⟩

def takeRow (progress : Progress) (row : Row) : Except ReadFault Progress :=
  match row.measurement with
  | .ok measurement =>
    .ok { progress with measurements := progress.measurements.push measurement }
  | .error fault => .error (.badRow row.start fault)

def takeByte (progress : Progress) (byte : UInt8) : Except ReadFault Progress :=
  match progress.splitter.step byte with
  | (splitter, none) => .ok ⟨splitter, progress.measurements⟩
  | (splitter, some row) => takeRow ⟨splitter, progress.measurements⟩ row

def takeBytes (progress : Progress) (bytes : List UInt8) : Except ReadFault Progress :=
  bytes.foldlM takeByte progress

/-- Bytes may be taken in two portions. -/
theorem takeBytes_append (progress : Progress) (first second : List UInt8) :
    progress.takeBytes (first ++ second) =
      (progress.takeBytes first).bind (fun next => next.takeBytes second) :=
  List.foldlM_append

def finish (progress : Progress) : Except ReadFault (List Measurement) :=
  match progress.splitter.finish with
  | none => .ok progress.measurements.toList
  | some row => (progress.takeRow row).map (fun final => final.measurements.toList)

/-- Takes all reads up to the first empty one. -/
def takeReads (progress : Progress) (failure : Option String) :
    List (List UInt8) → Except ReadFault (List Measurement)
  | [] =>
    match failure with
    | none => progress.finish
    | some reason => .error (.unreadable reason)
  | [] :: _ => progress.finish
  | bytes :: rest =>
    match progress.takeBytes bytes with
    | .ok next => takeReads next failure rest
    | .error fault => .error fault

end Progress

/-- The bytes of U+FEFF. -/
def byteOrderMark : List UInt8 := [0xef, 0xbb, 0xbf]

def readLog (source : Source) : Except ReadFault (List Measurement) :=
  match source.reads with
  | [] => (Progress.initial 0).takeReads source.failure []
  | first :: rest =>
    if byteOrderMark.isPrefixOf first then
      (Progress.initial byteOrderMark.length).takeReads source.failure
        (first.drop byteOrderMark.length :: rest)
    else (Progress.initial 0).takeReads source.failure (first :: rest)

/-- The row `0,  ab?  ,1` with a byte `fe` for the question mark: the first row is
trimmed like any other, so the text of its field ends after two bytes. -/
example :
    (match readLog (.ofBytes [48, 44, 32, 32, 97, 98, 0xfe, 32, 32, 44, 49, 10]) with
      | .error (.badRow _ (.notText field validLength)) => some (field, validLength)
      | _ => none) = some (1, 2) := by
  decide +kernel

end TimingReport.TimingLog
