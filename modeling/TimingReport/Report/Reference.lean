import TimingReport.Report.LabelFont

/-!
# A machine of reference

The reference machine tells a font by the tables without which no text can be set. It
leaves the axes blank and draws thick circles with a thin pen, and on it nothing fails
but writing to the device that is always full.
-/

namespace TimingReport.Report

open TimingReport.Chart (Layout PlotArea)
open TimingReport.Number (takeNumber?)

/-! ## Fonts -/

/-- The number that `size` bytes at a place stand for, if they are there. -/
def numberAt? (data : List UInt8) (start size : Nat) : Option Nat :=
  (takeNumber? size (data.drop start)).map Prod.fst

/-- What the font files and the collections of fonts begin with. -/
def fontVersions : List Nat := [0x00010000, 0x74727565, 0x4f54544f]

def collectionVersion : Nat := 0x74746366

/-- The place where the directory of the first font begins, if there is one. -/
def directoryStart? (data : List UInt8) : Option Nat := do
  let version ← numberAt? data 0 4
  if version = collectionVersion then
    let start ← numberAt? data 12 4
    let version ← numberAt? data start 4
    if version ∈ fontVersions then some start else none
  else if version ∈ fontVersions then some 0
  else none

/-- The table with a tag among the entries of a directory that begin at a place. -/
def tableAt? (data : List UInt8) (tag : List UInt8) (entries : List Nat) :
    Option (List UInt8) :=
  entries.findSome? fun start => do
    let offset ← numberAt? data (start + 8) 4
    let length ← numberAt? data (start + 12) 4
    let table := (data.drop offset).take length
    if (data.drop start).take 4 = tag ∧ table.length = length then some table else none

/-- The size of a unit and the format of the glyph places are in their ranges. -/
def isHead (table : List UInt8) : Bool :=
  54 ≤ table.length &&
    (numberAt? table 18 2).any (fun units => 16 ≤ units && units ≤ 16384) &&
    (numberAt? table 50 2).any (· ≤ 1)

def isHorizontalHead (table : List UInt8) : Bool := 36 ≤ table.length

/-- The version is known, and there are glyphs. -/
def isProfile (table : List UInt8) : Bool :=
  (numberAt? table 0 4).any (fun version => version = 0x5000 || version = 0x10000) &&
    (numberAt? table 4 2).any (0 < ·)

/-- Whether the bytes are a font or a collection whose first font has its tables. -/
def isFont (data : List UInt8) : Bool :=
  let found : Option Bool := do
    let start ← directoryStart? data
    let count ← numberAt? data (start + 4) 2
    let entries := (List.range count).map (fun i => start + 12 + 16 * i)
    if data.length < start + 12 + 16 * count then some false
    else
      let head ← tableAt? data (Chart.Png.nameBytes "head") entries
      let horizontalHead ← tableAt? data (Chart.Png.nameBytes "hhea") entries
      let profile ← tableAt? data (Chart.Png.nameBytes "maxp") entries
      some (isHead head && isHorizontalHead horizontalHead && isProfile profile)
  found.getD false

/-! ## The machine -/

namespace Machine

/-- The room for labels is taken from the left and from below. -/
def labeledArea (layout : Layout) : PlotArea :=
  let (below, beside) := layout.labelRoom.getD (0, 0)
  .between (layout.margin + beside) (layout.width - layout.margin) layout.margin
    ((layout.height : Int) - layout.margin - below)

def fullDevice : String := "/dev/full"

/-- A full device takes nothing. -/
def savingFault (path : String) (_text : ByteArray) : Option CutOff :=
  if path = fullDevice then some ⟨0, "No space left on device (os error 28)"⟩ else none

def reference : Machine where
  library :=
    { isFont
      area := labeledArea
      axes := fun _ => []
      ring := fun ring => Chart.circle ring.center ring.radius }
  faults := { Faults.none with saving := savingFault }

end Machine

/-! ## A small font -/

/-- A font with one glyph, and nothing in it but the tables that every font has. -/
def smallFont : List UInt8 :=
  let name := Chart.Png.nameBytes
  let number := Number.bigEndian
  let zeros (count : Nat) : List UInt8 := List.replicate count 0
  let head := number 0x10000 ++ zeros 8 ++ number 0x5f0f3cf5 ++ [0, 0, 4, 0] ++ zeros 34
  let horizontalHead := number 0x10000 ++ [3, 32, 255, 56] ++ zeros 26 ++ [0, 1]
  let profile := number 0x10000 ++ [0, 1] ++ zeros 26
  let entry (tag : String) (offset length : Nat) : List UInt8 :=
    name tag ++ zeros 4 ++ number offset ++ number length
  number 0x10000 ++ [0, 3, 0, 32, 0, 1, 0, 16] ++ entry "head" 60 54 ++
    entry "hhea" 114 36 ++ entry "maxp" 150 32 ++ head ++ horizontalHead ++ profile

/-- A file with the small font. -/
def smallFontFile : Content := .data ⟨smallFont.toArray⟩

theorem isFont_smallFontFile :
    Machine.reference.library.isFont smallFontFile.bytes = true := by
  decide +kernel

end TimingReport.Report
