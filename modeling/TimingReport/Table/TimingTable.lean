import TimingReport.Json.Printer
import TimingReport.Table.SortedMap
import TimingReport.TimingLog.Measurement

/-!
# Timing tables

A timing table has a row for every index and a column for every tag of a log. A pair of
index and tag that was not measured is a cell without a value, which is kept, so that
gaps stay visible.
-/

namespace TimingReport

/-- What happens when a pair of index and tag is measured more than once. -/
inductive DuplicateRule where
  | reject
  | first
  | last
  deriving DecidableEq, Repr

/-- A pair of index and tag with two times. -/
structure Clash where
  index : Int
  tag : String
  first : Float
  second : Float

/-- The columns, and in every row a cell for each of them; all in ascending order. -/
structure TimingTable where
  tags : List String
  rows : List (Int × List (String × Option Float))

namespace TimingTable

open TimingReport.TimingLog (Measurement)
open TimingReport.Table (alter sortedKeys)

/-- The present cells of the rows. -/
abbrev Cells := List (Int × List (String × Float))

def Cells.time? (cells : Cells) (index : Int) (tag : String) : Option Float :=
  (cells.lookup index).bind (fun row => row.lookup tag)

def Cells.put (cells : Cells) (measurement : Measurement) : Cells :=
  alter measurement.index
    (fun row => alter measurement.tag (fun _ => measurement.time) (row.getD [])) cells

/-- Puts a time into its cell, if the cell is free or the rule says so. -/
def Cells.add (rule : DuplicateRule) (cells : Cells) (measurement : Measurement) :
    Except Clash Cells :=
  match cells.time? measurement.index measurement.tag, rule with
  | none, _ => .ok (cells.put measurement)
  | some first, .reject =>
    .error ⟨measurement.index, measurement.tag, first, measurement.time⟩
  | some _, .first => .ok cells
  | some _, .last => .ok (cells.put measurement)

/-- The row with a cell for each of the tags. -/
def fillRow (tags : List String) (present : List (String × Float)) :
    List (String × Option Float) :=
  tags.map (fun tag => (tag, present.lookup tag))

/-- The table of the measurements, which are added in their order. -/
def ofMeasurements (rule : DuplicateRule) (measurements : List Measurement) :
    Except Clash TimingTable :=
  let tags := sortedKeys (measurements.map Measurement.tag)
  (measurements.foldlM (Cells.add rule) []).map fun cells =>
    ⟨tags, cells.map (fun (index, present) => (index, fillRow tags present))⟩

/-- The indices of the rows. -/
def indices (table : TimingTable) : List Int := table.rows.map Prod.fst

def rowCount (table : TimingTable) : Nat := table.rows.length

def columnCount (table : TimingTable) : Nat := table.tags.length

def cell? (table : TimingTable) (index : Int) (tag : String) : Option (Option Float) :=
  (table.rows.lookup index).bind (fun row => row.lookup tag)

/-- The value of a cell; gaps and unknown keys have none. -/
def value? (table : TimingTable) (index : Int) (tag : String) : Option Float :=
  (table.cell? index tag).join

/-- Whether the row and the column exist and their cell has no value. -/
def isGap (table : TimingTable) (index : Int) (tag : String) : Bool :=
  match table.cell? index tag with
  | some none => true
  | _ => false

/-- The values of a column, in the order of the rows. -/
def column (table : TimingTable) (tag : String) : List Float :=
  table.rows.filterMap (fun (_, row) => (row.lookup tag).join)

/-- Keeps the columns whose tag passes; rows are kept even if no cell remains. -/
def select (keep : String → Bool) (table : TimingTable) : TimingTable :=
  ⟨table.tags.filter keep,
    table.rows.map (fun (index, row) => (index, row.filter (fun (tag, _) => keep tag)))⟩

/-- The table as JSON, with null for the gaps. -/
def toJson (table : TimingTable) : Json.Value :=
  let row (cells : List (String × Option Float)) : Json.Value :=
    .object (cells.map (fun (tag, value) => (tag, .ofOption .number value)))
  .object [
    ("tags", .strings table.tags),
    ("rows", .object (table.rows.map
      (fun (index, cells) => (String.ofList (Json.integerText index), row cells))))]

end TimingTable

end TimingReport
