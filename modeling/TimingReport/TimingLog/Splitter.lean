/-!
# Splitting a log into rows and fields

A log is a sequence of bytes. Commas end fields, line feeds and carriage returns end
rows, and runs of row ends count as one. A double quote opens a quoted field only as its
first byte; inside, a quote is written twice. The splitter takes one byte at a time, so
a log may arrive in pieces of any size.
-/

namespace TimingReport.TimingLog

def comma : UInt8 := 44

def quote : UInt8 := 34

def lineFeed : UInt8 := 10

def carriageReturn : UInt8 := 13

def endsRow (byte : UInt8) : Bool := byte = lineFeed || byte = carriageReturn

/-- A place in a log: the bytes before it, the line it is on and the number of rows
before it. -/
structure Position where
  byte : Nat
  line : Nat
  row : Nat
  deriving DecidableEq, Repr

/-- The fields of one row, without their quotes, and the place where the previous row
ended. -/
structure Row where
  start : Position
  fields : List (List UInt8)
  deriving DecidableEq, Repr

/-- Where in a row the splitter is. -/
inductive Mode where
  /-- Behind a row end, or at the very start. -/
  | between
  | fieldStart
  | plain
  | quoted
  /-- Behind a quote inside a quoted field. -/
  | quoteSeen
  deriving DecidableEq, Repr

/-- What a byte does to the open row. -/
inductive Effect where
  | skip
  /-- The byte belongs to the open field. -/
  | keep (mode : Mode)
  /-- The byte is a quote that is not part of the text. -/
  | enter (mode : Mode)
  | endField
  | endRow
  deriving DecidableEq, Repr

def plainEffect (byte : UInt8) : Effect :=
  if byte = comma then .endField
  else if endsRow byte then .endRow
  else .keep .plain

def fieldStartEffect (byte : UInt8) : Effect :=
  if byte = quote then .enter .quoted else plainEffect byte

def Mode.effect (mode : Mode) (byte : UInt8) : Effect :=
  match mode with
  | .between => if endsRow byte then .skip else fieldStartEffect byte
  | .fieldStart => fieldStartEffect byte
  | .plain => plainEffect byte
  | .quoted => if byte = quote then .enter .quoteSeen else .keep .quoted
  | .quoteSeen => if byte = quote then .keep .quoted else plainEffect byte

/-- The open row; the bytes of its open field and its finished fields are in reverse
order. -/
structure Splitter where
  mode : Mode
  /-- The bytes taken so far. -/
  byte : Nat
  /-- The line of the next byte. -/
  line : Nat
  /-- Where the open row begins, the row ends in front of it included. -/
  start : Position
  field : List UInt8
  fields : List (List UInt8)
  deriving DecidableEq, Repr

namespace Splitter

/-- The splitter at the start of a log of which `skipped` bytes carry no text. -/
def initial (skipped : Nat) : Splitter := ⟨.between, skipped, 1, ⟨0, 1, 0⟩, [], []⟩

/-- The row that ends here. -/
def row (splitter : Splitter) : Row :=
  ⟨splitter.start, (splitter.field.reverse :: splitter.fields).reverse⟩

def count (splitter : Splitter) (byte : UInt8) : Splitter :=
  { splitter with
    byte := splitter.byte + 1
    line := if byte = lineFeed then splitter.line + 1 else splitter.line }

def apply (splitter : Splitter) (byte : UInt8) : Effect → Splitter × Option Row
  | .skip => (splitter, none)
  | .keep mode => ({ splitter with mode, field := byte :: splitter.field }, none)
  | .enter mode => ({ splitter with mode }, none)
  | .endField =>
    let fields := splitter.field.reverse :: splitter.fields
    ({ splitter with mode := .fieldStart, field := [], fields }, none)
  | .endRow =>
    let start : Position := ⟨splitter.byte, splitter.line, splitter.start.row + 1⟩
    (⟨.between, splitter.byte, splitter.line, start, [], []⟩, some splitter.row)

/-- Takes a byte, and gives the row that it ends. -/
def step (splitter : Splitter) (byte : UInt8) : Splitter × Option Row :=
  (splitter.count byte).apply byte (splitter.mode.effect byte)

/-- The row that is open when the log ends. -/
def finish (splitter : Splitter) : Option Row :=
  if splitter.mode = .between then none else some splitter.row

end Splitter

end TimingReport.TimingLog
