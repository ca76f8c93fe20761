import TimingReport.Number.Layout
import TimingReport.Number.Literal
import TimingReport.Text.Blank
import TimingReport.Text.Quoted
import TimingReport.Text.Utf8
import TimingReport.TimingLog.Splitter

/-!
# Measurements

A row of a timing log has three fields: an index, a tag and a time. Fields are trimmed
after unquoting, first of ASCII blanks as bytes and then, once they are known to be
text, of all blanks. A row is refused for the first fault in this order: bytes that are
no text, the number of fields, the index, the time, a time that is not finite.
-/

namespace TimingReport.TimingLog

open TimingReport.Number (LiteralError Layout)

/-- The time of a run of what the tag names; the index tells the runs apart. -/
structure Measurement where
  index : Int
  tag : String
  time : Float

inductive NumberField where
  | index
  | time
  deriving DecidableEq, Repr

/-- The place of the field in a row. -/
def NumberField.place : NumberField → Nat
  | .index => 0
  | .time => 2

/-- Why a row is no measurement. -/
inductive RowFault where
  /-- The field at `field` is a text only up to `validLength` bytes. -/
  | notText (field validLength : Nat)
  | fieldCount (found : Nat)
  | badNumber (fields : List String) (field : NumberField) (error : LiteralError)
  | notFinite (time : Float)

/-- The blanks that are trimmed before bytes are known to be text. -/
def isBlankByte (byte : UInt8) : Bool :=
  byte = 32 || byte = 9 || byte = 10 || byte = 12 || byte = 13

def fieldText (field : List UInt8) : Except Nat String :=
  (Text.decodeUtf8 (Text.trimBoth isBlankByte field).toByteArray).map
    (fun text => String.ofList (Text.trimBlanks text.toList))

/-- The texts of the fields, the first of which stands at `place`. -/
def fieldTexts : Nat → List (List UInt8) → Except RowFault (List String)
  | _, [] => .ok []
  | place, field :: rest =>
    match fieldText field with
    | .error validLength => .error (.notText place validLength)
    | .ok text => (fieldTexts (place + 1) rest).map (text :: ·)

def measurementOfTexts (fields : List String) : Except RowFault Measurement :=
  match fields with
  | [index, tag, time] =>
    match Number.prefixedInteger64 index.toList with
    | .error error => .error (.badNumber fields .index error)
    | .ok index =>
      match Number.float time.toList with
      | .error error => .error (.badNumber fields .time error)
      | .ok time =>
        if Number.isFinite time then .ok ⟨index, tag, time⟩
        else .error (.notFinite time)
  | _ => .error (.fieldCount fields.length)

def Row.measurement (row : Row) : Except RowFault Measurement :=
  (fieldTexts 0 row.fields).bind measurementOfTexts

/-- A list of texts, each in quotes. -/
def quotedList (texts : List String) : String :=
  "[" ++ ", ".intercalate (texts.map Text.quoted) ++ "]"

def RowFault.message (start : Position) : RowFault → String
  | .notText field validLength =>
    s!"CSV parse error: record {start.row} " ++
      s!"(line {start.line}, field: {field}, byte: {start.byte}): " ++
      s!"invalid utf-8: invalid UTF-8 in field {field} near byte index {validLength}"
  | .fieldCount found => s!"expected 3 fields (ix, tag, time), found {found}"
  | .badNumber fields field error =>
    s!"cannot parse StringRecord({quotedList fields}): " ++
      s!"CSV deserialize error: record {start.row} " ++
      s!"(line: {start.line}, byte: {start.byte}): field {field.place}: {error.message}"
  | .notFinite time => s!"time must be a finite number, got {Layout.plain.text time}"

end TimingReport.TimingLog
