import Mathlib.Algebra.Group.Nat.Defs
import TimingReport.Chart.Png

/-!
# What is read of a picture on disk

A picture in stored blocks is read back from its file as it was: chunk by chunk and block
by block, what is taken is what was written, whatever stands behind it.
-/

namespace TimingReport.Chart.Png

open TimingReport.Number (bigEndian takeNumber? takeNumber?_bigEndian)

/-! ## Chunks -/

theorem takeChunk?_chunk {kind : String} (hkind : (nameBytes kind).length = 4)
    {content : List UInt8} (hcontent : content.length < 2 ^ 32) (rest : List UInt8) :
    takeChunk? (chunk kind content ++ rest) = some (⟨nameBytes kind, content⟩, rest) := by
  have hbody : (nameBytes kind ++ content).length = 4 + content.length := by
    rw [List.length_append, hkind]
  have hsum := (checksum (nameBytes kind ++ content)).toNat_lt
  simp only [takeChunk?, chunk, List.append_assoc, takeNumber?_bigEndian hcontent]
  rw [← List.append_assoc (nameBytes kind), List.take_left' hbody, List.drop_left' hbody,
    takeNumber?_bigEndian hsum]
  simp [List.take_left' hkind, List.drop_left' hkind]

theorem takeChunks?_chunk_append {kind : String} (hkind : (nameBytes kind).length = 4)
    {content : List UInt8} (hcontent : content.length < 2 ^ 32) (rest : List UInt8) :
    takeChunks? (chunk kind content ++ rest) =
      (takeChunks? rest).map (⟨nameBytes kind, content⟩ :: ·) := by
  have hnonempty : chunk kind content ++ rest ≠ [] := by simp [chunk, bigEndian]
  rw [takeChunks?, if_neg hnonempty]
  split
  · next hnone => simp [takeChunk?_chunk hkind hcontent] at hnone
  · next hsome =>
    rw [takeChunk?_chunk hkind hcontent] at hsome
    obtain ⟨rfl, rfl⟩ := Prod.mk.inj (Option.some.inj hsome)
    rfl

/-- By induction on the pieces, each of which is a chunk of its own. -/
theorem takeChunks?_flatMap_append {kind : String} (hkind : (nameBytes kind).length = 4)
    {pieces : List (List UInt8)} (hpieces : ∀ piece ∈ pieces, piece.length < 2 ^ 32)
    (rest : List UInt8) :
    takeChunks? (pieces.flatMap (chunk kind) ++ rest) =
      (takeChunks? rest).map (pieces.map (⟨nameBytes kind, ·⟩) ++ ·) := by
  induction pieces with
  | nil => simp
  | cons piece pieces ih =>
    rw [List.forall_mem_cons] at hpieces
    rw [List.flatMap_cons, List.append_assoc,
      takeChunks?_chunk_append hkind hpieces.1, ih hpieces.2, Option.map_map]
    rfl

theorem streamOf?_chunks (pieces : List (List UInt8)) :
    streamOf? (pieces.map (⟨nameBytes "IDAT", ·⟩) ++ [⟨nameBytes "IEND", []⟩]) =
      some pieces.flatten := by
  induction pieces with
  | nil => rfl
  | cons piece pieces ih =>
    rw [List.map_cons, List.cons_append, streamOf?, if_pos rfl, ih]
    · rfl
    · simp

/-! ## Stored blocks -/

theorem takeBlock?_storedBlock {data : List UInt8} (hsize : data.length ≤ blockSize)
    (last : Bool) (rest : List UInt8) :
    takeBlock? (storedBlock last data ++ rest) = some ((last, data), rest) := by
  rw [blockSize] at hsize
  have hmark : (if last then 1 else 0 : UInt8) ≤ 1 ∧
      decide ((if last then 1 else 0 : UInt8) = 1) = last := by
    cases last <;> decide
  have hlow : data.length % 256 + 256 * (data.length / 256 % 256) = data.length := by omega
  have hhigh : (65535 - data.length) % 256 + 256 * ((65535 - data.length) / 256 % 256) =
      65535 - data.length := by omega
  simp [takeBlock?, storedBlock, littleEndian, blockSize, hmark, hlow, hhigh]

theorem length_storedBlock {data : List UInt8} (last : Bool) :
    (storedBlock last data).length = 5 + data.length := by
  simp only [storedBlock, littleEndian, List.length_cons, List.length_append,
    List.length_nil]

/-- By induction on the blocks. -/
theorem takeBlocks?_storedBlocks (data rest : List UInt8) :
    takeBlocks? ((storedBlocks data).flatten ++ rest) = some (data, rest) := by
  induction data using storedBlocks.induct with
  | case1 data hsize =>
    rw [storedBlocks, if_pos hsize, List.flatten_cons, List.flatten_nil, List.append_nil,
      takeBlocks?]
    split
    · next hnone => simp [takeBlock?_storedBlock hsize] at hnone
    · next hlast =>
      rw [takeBlock?_storedBlock hsize, Option.some.injEq] at hlast
      simpa [eq_comm] using hlast
    · next hmore => simp [takeBlock?_storedBlock hsize] at hmore
  | case2 data hsize ih =>
    have hfull : (data.take blockSize).length ≤ blockSize := List.length_take_le _ _
    rw [storedBlocks, if_neg hsize, List.flatten_cons, List.append_assoc, takeBlocks?]
    split
    · next hnone => simp [takeBlock?_storedBlock hfull] at hnone
    · next hlast => simp [takeBlock?_storedBlock hfull] at hlast
    · next hmore =>
      rw [takeBlock?_storedBlock hfull, Option.some.injEq, Prod.mk.injEq,
        Prod.mk.injEq] at hmore
      obtain ⟨⟨-, rfl⟩, rfl⟩ := hmore
      simp [ih]

theorem length_le_of_mem_storedBlocks {data block : List UInt8}
    (hblock : block ∈ storedBlocks data) : block.length ≤ 5 + blockSize := by
  induction data using storedBlocks.induct with
  | case1 data hsize =>
    rw [storedBlocks, if_pos hsize, List.mem_singleton] at hblock
    rw [hblock, length_storedBlock]
    omega
  | case2 data hsize ih =>
    rw [storedBlocks, if_neg hsize, List.mem_cons] at hblock
    rcases hblock with rfl | hrest
    · rw [length_storedBlock, List.length_take]
      omega
    · exact ih hrest

/-- Both sums are remainders, so they fit into two bytes each. -/
theorem adlerSums_lt (data : List UInt8) {sums : Nat × Nat}
    (hsums : sums.1 < 65521 ∧ sums.2 < 65521) :
    (data.foldl adlerStep sums).1 < 65521 ∧ (data.foldl adlerStep sums).2 < 65521 := by
  induction data generalizing sums with
  | nil => exact hsums
  | cons byte data ih => exact ih ⟨Nat.mod_lt _ (by decide), Nat.mod_lt _ (by decide)⟩

theorem adler_lt (data : List UInt8) : adler data < 2 ^ 32 := by
  have hsums := @adlerSums_lt data (1, 0) (by decide)
  rw [adler]
  omega

theorem unpack?_streamPieces (data : List UInt8) :
    unpack? (streamPieces data).flatten = some data := by
  have hsum := takeNumber?_bigEndian (adler_lt data) []
  rw [List.append_nil] at hsum
  simp [streamPieces, unpack?, takeBlocks?_storedBlocks, hsum]

theorem length_lt_of_mem_streamPieces {data piece : List UInt8}
    (hpiece : piece ∈ streamPieces data) : piece.length < 2 ^ 32 := by
  simp only [streamPieces, List.cons_append, List.mem_cons, List.mem_append,
    List.not_mem_nil, or_false] at hpiece
  rcases hpiece with rfl | hblock | rfl
  · decide
  · have hle := length_le_of_mem_storedBlocks hblock
    rw [blockSize] at hle
    omega
  · simp

/-! ## Pixels -/

theorem takePixels?_flatMap (row : List Colour) (rest : List UInt8) :
    takePixels? row.length (row.flatMap pixelBytes ++ rest) = some (row, rest) := by
  induction row with
  | nil => rfl
  | cons colour row ih => simp [pixelBytes, takePixels?, ih]

theorem rowsOf?_flatMap {width : Nat} {rows : List (List Colour)}
    (hrows : ∀ row ∈ rows, row.length = width) :
    rowsOf? width rows.length (rows.flatMap (fun row => 0 :: row.flatMap pixelBytes)) =
      some rows := by
  induction rows with
  | nil => rfl
  | cons row rows ih =>
    rw [List.forall_mem_cons] at hrows
    have hrow := takePixels?_flatMap row
    rw [hrows.1] at hrow
    simp [rowsOf?, hrow, ih hrows.2]

theorem sizeOf?_header {image : Image} (hwidth : 0 < image.width ∧ image.width < 2 ^ 32)
    (hheight : 0 < image.height ∧ image.height < 2 ^ 32) :
    sizeOf? (header image) = some (image.width, image.height) := by
  simp [sizeOf?, header, takeNumber?_bigEndian hwidth.2, takeNumber?_bigEndian hheight.2,
    hwidth.1, hheight.1]

/-! ## The whole file -/

/-- A picture whose sizes fit into their bytes is read as it was written. -/
theorem decode_encode {image : Image} (hwidth : 0 < image.width ∧ image.width < 2 ^ 32)
    (hheight : 0 < image.height ∧ image.height < 2 ^ 32) :
    decode (encode image) = some image.raster := by
  have hlength : signature.length = 8 := rfl
  have hlines : rowsOf? image.width image.height (scanlines image) =
      some image.raster.rows := by
    have hrows := @rowsOf?_flatMap image.width image.raster.rows (by simp [Image.raster])
    simpa [Image.raster, scanlines, List.flatMap_map] using hrows
  have hchunks : takeChunks? ((encode image).drop 8) = some
      (⟨nameBytes "IHDR", header image⟩ ::
        ((streamPieces (scanlines image)).map (⟨nameBytes "IDAT", ·⟩) ++
          [⟨nameBytes "IEND", []⟩])) := by
    have hend := @takeChunks?_chunk_append "IEND" rfl [] (by simp) []
    have hempty : takeChunks? [] = some [] := by rw [takeChunks?, if_pos rfl]
    rw [encode, List.append_assoc, List.append_assoc, List.drop_left' hlength,
      takeChunks?_chunk_append rfl (by simp [header, format]),
      takeChunks?_flatMap_append rfl fun piece => length_lt_of_mem_streamPieces,
      ← List.append_nil (chunk "IEND" []), hend, hempty]
    rfl
  have hsignature : (encode image).take 8 = signature := by
    rw [encode, List.append_assoc, List.append_assoc, List.take_left' hlength]
  simp [decode, hsignature, hchunks, sizeOf?_header hwidth hheight, streamOf?_chunks,
    unpack?_streamPieces, hlines, Image.raster]

end TimingReport.Chart.Png
