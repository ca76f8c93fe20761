import TimingReport.Chart.Image
import TimingReport.Number.BigEndian

/-!
# PNG files

An image is written with eight bits for each of three channels, in stored blocks without
compression, each in a chunk of its own. A file of this kind is read from its bytes as
well, checksums included.
-/

namespace TimingReport.Chart.Png

open TimingReport.Number (bigEndian takeNumber?)

/-! ## Checksums -/

def checksumStep (value : UInt32) : UInt32 :=
  if value &&& 1 = 1 then (0xedb88320 : UInt32) ^^^ (value >>> 1) else value >>> 1

/-- The checksums of the single bytes. -/
def checksumTable : Array UInt32 :=
  Array.ofFn (fun (byte : Fin 256) => Nat.repeat checksumStep 8 (UInt32.ofNat byte.val))

/-- The cyclic redundancy check of a chunk. -/
def checksum (bytes : List UInt8) : UInt32 :=
  let next (value : UInt32) (byte : UInt8) : UInt32 :=
    let index := (value ^^^ byte.toUInt32) &&& 0xff
    checksumTable.getD index.toNat 0 ^^^ (value >>> 8)
  bytes.foldl next 0xffffffff ^^^ 0xffffffff

/-- Adds a byte to two running sums. -/
def adlerStep (sums : Nat × Nat) (byte : UInt8) : Nat × Nat :=
  let low := (sums.1 + byte.toNat) % 65521
  (low, (sums.2 + low) % 65521)

/-- The two sums at the end of a stream. -/
def adler (bytes : List UInt8) : Nat :=
  let sums := bytes.foldl adlerStep (1, 0)
  sums.2 * 65536 + sums.1

/-! ## Writing -/

/-- The bytes of an ASCII name. -/
def nameBytes (name : String) : List UInt8 :=
  name.toList.map (fun c => UInt8.ofNat c.toNat)

def chunk (kind : String) (content : List UInt8) : List UInt8 :=
  let body := nameBytes kind ++ content
  bigEndian content.length ++ body ++ bigEndian (checksum body).toNat

def pixelBytes (colour : Colour) : List UInt8 := [colour.red, colour.green, colour.blue]

/-- The pixels row by row, each row behind a byte that says it is not filtered. -/
def scanlines (image : Image) : List UInt8 :=
  image.rows.toList.flatMap (fun row => 0 :: row.toList.flatMap pixelBytes)

/-- The greatest size of a stored block. -/
def blockSize : Nat := 65535

/-- The two bytes of a size, the lower first. -/
def littleEndian (n : Nat) : List UInt8 := [UInt8.ofNat n, UInt8.ofNat (n / 256)]

def storedBlock (last : Bool) (data : List UInt8) : List UInt8 :=
  (if last then 1 else 0) :: littleEndian data.length ++
    littleEndian (blockSize - data.length) ++ data

/-- The data in stored blocks, the last of which is marked. -/
def storedBlocks (data : List UInt8) : List (List UInt8) :=
  if data.length ≤ blockSize then [storedBlock true data]
  else storedBlock false (data.take blockSize) :: storedBlocks (data.drop blockSize)
termination_by data.length
decreasing_by
  rw [List.length_drop, blockSize] at *
  omega

/-- A compressed stream, in pieces: its two bytes in front, its blocks and its sum. -/
def streamPieces (data : List UInt8) : List (List UInt8) :=
  [0x78, 0x01] :: storedBlocks data ++ [bigEndian (adler data)]

def signature : List UInt8 := [0x89, 0x50, 0x4e, 0x47, 0x0d, 0x0a, 0x1a, 0x0a]

/-- Eight bits for each of three channels. -/
def format : List UInt8 := [8, 2, 0, 0, 0]

def header (image : Image) : List UInt8 :=
  bigEndian image.width ++ bigEndian image.height ++ format

def encode (image : Image) : List UInt8 :=
  signature ++ chunk "IHDR" (header image) ++
    (streamPieces (scanlines image)).flatMap (chunk "IDAT") ++ chunk "IEND" []

/-! ## Reading -/

structure Chunk where
  kind : List UInt8
  content : List UInt8
  deriving DecidableEq, Repr

/-- The chunk that the bytes begin with, if its checksum is right, and the bytes
behind. -/
def takeChunk? (bytes : List UInt8) : Option (Chunk × List UInt8) :=
  match takeNumber? 4 bytes with
  | none => none
  | some (size, rest) =>
    let body := rest.take (4 + size)
    match takeNumber? 4 (rest.drop (4 + size)) with
    | none => none
    | some (sum, rest) =>
      if sum = (checksum body).toNat then some (⟨body.take 4, body.drop 4⟩, rest)
      else none

theorem length_of_takeNumber? {size n : Nat} {bytes rest : List UInt8}
    (htake : takeNumber? size bytes = some (n, rest)) :
    bytes.length = size + rest.length := by
  rw [takeNumber?] at htake
  split at htake
  · next hsize =>
    obtain ⟨-, rfl⟩ := Prod.mk.inj (Option.some.inj htake)
    rw [List.length_take] at hsize
    rw [List.length_drop]
    omega
  · cases htake

theorem length_lt_of_takeChunk? {bytes rest : List UInt8} {chunk : Chunk}
    (htake : takeChunk? bytes = some (chunk, rest)) : rest.length < bytes.length := by
  rw [takeChunk?] at htake
  split at htake
  · cases htake
  · next size body hsize =>
    have hbody := length_of_takeNumber? hsize
    dsimp only at htake
    split at htake
    · cases htake
    · next sum behind hsum =>
      have hbehind := length_of_takeNumber? hsum
      rw [List.length_drop] at hbehind
      split at htake
      · obtain ⟨-, rfl⟩ := Prod.mk.inj (Option.some.inj htake)
        omega
      · cases htake

def takeChunks? (bytes : List UInt8) : Option (List Chunk) :=
  if bytes = [] then some []
  else
    match _ : takeChunk? bytes with
    | none => none
    | some (chunk, rest) => (takeChunks? rest).map (chunk :: ·)
termination_by bytes.length
decreasing_by exact length_lt_of_takeChunk? ‹_›

/-- The contents of the chunks in front of the last one together. -/
def streamOf? : List Chunk → Option (List UInt8)
  | [] => none
  | [last] => if last = ⟨nameBytes "IEND", []⟩ then some [] else none
  | chunk :: rest =>
    if chunk.kind = nameBytes "IDAT" then (streamOf? rest).map (chunk.content ++ ·)
    else none

/-- The data of the stored block that the bytes begin with, whether it is the last, and
the bytes behind. -/
def takeBlock? : List UInt8 → Option ((Bool × List UInt8) × List UInt8)
  | mark :: low :: high :: low' :: high' :: rest =>
    let size := low.toNat + 256 * high.toNat
    let rightSize := low'.toNat + 256 * high'.toNat = blockSize - size
    if mark ≤ 1 ∧ rightSize ∧ size ≤ rest.length then
      some ((mark = 1, rest.take size), rest.drop size)
    else none
  | _ => none

theorem length_lt_of_takeBlock? {bytes rest : List UInt8} {block : Bool × List UInt8}
    (htake : takeBlock? bytes = some (block, rest)) : rest.length < bytes.length := by
  rw [takeBlock?.eq_def] at htake
  split at htake
  · dsimp only at htake
    split at htake
    · obtain ⟨-, rfl⟩ := Prod.mk.inj (Option.some.inj htake)
      simp only [List.length_drop, List.length_cons]
      omega
    · cases htake
  · cases htake

/-- The data of stored blocks up to the last of them, and the bytes behind. -/
def takeBlocks? (bytes : List UInt8) : Option (List UInt8 × List UInt8) :=
  match _ : takeBlock? bytes with
  | none => none
  | some ((true, data), rest) => some (data, rest)
  | some ((false, data), rest) =>
    (takeBlocks? rest).map (fun (more, rest) => (data ++ more, rest))
termination_by bytes.length
decreasing_by exact length_lt_of_takeBlock? ‹_›

/-- The data of a compressed stream, if its sum is right. -/
def unpack? : List UInt8 → Option (List UInt8)
  | 0x78 :: 0x01 :: bytes => do
    let (data, rest) ← takeBlocks? bytes
    let (sum, rest) ← takeNumber? 4 rest
    if sum = adler data ∧ rest = [] then some data else none
  | _ => none

def takePixels? : Nat → List UInt8 → Option (List Colour × List UInt8)
  | 0, bytes => some ([], bytes)
  | count + 1, red :: green :: blue :: bytes =>
    (takePixels? count bytes).map (fun (row, rest) => (⟨red, green, blue⟩ :: row, rest))
  | _, _ => none

/-- Rows that are not filtered, each behind the byte that says so. -/
def rowsOf? (width : Nat) : Nat → List UInt8 → Option (List (List Colour))
  | 0, [] => some []
  | count + 1, 0 :: bytes => do
    let (row, rest) ← takePixels? width bytes
    let rows ← rowsOf? width count rest
    some (row :: rows)
  | _, _ => none

/-- The width and the height in the content of a header. -/
def sizeOf? (content : List UInt8) : Option (Nat × Nat) := do
  let (width, rest) ← takeNumber? 4 content
  let (height, rest) ← takeNumber? 4 rest
  if 0 < width ∧ 0 < height ∧ rest = format then some (width, height) else none

/-- The pixels of a PNG file that is not compressed. -/
def decode (bytes : List UInt8) : Option Raster :=
  if bytes.take 8 = signature then
    match takeChunks? (bytes.drop 8) with
    | some (first :: rest) =>
      if first.kind = nameBytes "IHDR" then do
        let (width, height) ← sizeOf? first.content
        let rows ← rowsOf? width height (← unpack? (← streamOf? rest))
        some ⟨width, height, rows⟩
      else none
    | _ => none
  else none

end TimingReport.Chart.Png
