import TimingReport.Proofs.TimingLog.FirstByte
import TimingReport.Report.LabelFont
import TimingReport.Report.Reference

/-!
# What is no font

A font begins with its version.  A log begins with an index or a blank, a picture with a byte that
is no character, and a summary with a brace, so none of them is ever loaded as a font.
-/

namespace TimingReport.Report

open TimingReport.Chart (Image Library)
open TimingReport.TimingLog

/-- What fonts and collections of fonts begin with: a number, or one of `true`, `OTTO` and
`ttcf`. -/
def fontMarks : List (List UInt8) :=
  [[0, 1, 0, 0], [116, 114, 117, 101], [79, 84, 84, 79], [116, 116, 99, 102]]

/-- The library takes nothing for a font that does not begin as one. -/
def KnowsFonts (library : Library) : Prop :=
  ∀ data, library.isFont data = true → data.take 4 ∈ fontMarks

/-- The characters that fonts begin with. -/
def fontFirstChars : List Char := ['\x00', 't', 'O']

section

variable {library : Library}

theorem KnowsFonts.exists_cons (hknows : KnowsFonts library) {data : List UInt8}
    (hfont : library.isFont data = true) :
    ∃ c ∈ fontFirstChars, ∃ rest, data = UInt8.ofNat c.toNat :: rest := by
  have hmark := hknows data hfont
  cases data with
  | nil => simp [fontMarks] at hmark
  | cons byte rest =>
    simp only [fontMarks, List.take_succ_cons, List.mem_cons, List.cons.injEq,
      List.not_mem_nil, or_false] at hmark
    rcases hmark with ⟨rfl, -⟩ | ⟨rfl, -⟩ | ⟨rfl, -⟩ | ⟨rfl, -⟩
    · exact ⟨'\x00', by simp [fontFirstChars], rest, rfl⟩
    · exact ⟨'t', by simp [fontFirstChars], rest, rfl⟩
    · exact ⟨'O', by simp [fontFirstChars], rest, rfl⟩
    · exact ⟨'t', by simp [fontFirstChars], rest, rfl⟩

/-! ## Logs -/

theorem beginsField_of_mem {c : Char} (hc : c ∈ fontFirstChars) :
    BeginsField (UInt8.ofNat c.toNat) := by
  simp only [fontFirstChars, List.mem_cons, List.not_mem_nil, or_false] at hc
  rcases hc with rfl | rfl | rfl <;> exact ⟨by decide, by decide, by decide⟩

theorem startsNoIndex_of_mem {c : Char} (hc : c ∈ fontFirstChars) :
    StartsNoIndex (UInt8.ofNat c.toNat) := by
  simp only [fontFirstChars, List.mem_cons, List.not_mem_nil, or_false] at hc
  rcases hc with rfl | rfl | rfl <;>
    exact startsNoIndex_ofNat (by decide) ⟨by decide, by decide, by decide, by decide⟩

theorem KnowsFonts.not_isFont_of_readLog (hknows : KnowsFonts library) {bytes : List UInt8}
    {measurements : List Measurement} (hlog : readLog (.ofBytes bytes) = .ok measurements) :
    library.isFont bytes = false := by
  rw [← Bool.not_eq_true]
  intro hfont
  obtain ⟨c, hc, rest, rfl⟩ := hknows.exists_cons hfont
  have hmark : UInt8.ofNat c.toNat ≠ 0xef := by
    simp only [fontFirstChars, List.mem_cons, List.not_mem_nil, or_false] at hc
    rcases hc with rfl | rfl | rfl <;> decide
  have hwhole : withoutMark (UInt8.ofNat c.toNat :: rest) = UInt8.ofNat c.toNat :: rest :=
    if_neg (by simp [byteOrderMark, List.isPrefixOf, hmark.symm])
  obtain ⟨placed, hplaced⟩ := exists_logText (UInt8.ofNat c.toNat :: rest)
  obtain ⟨row, later, field, fields, rfl, hrow⟩ := (beginsField_of_mem hc).exists_first_row hplaced
  rw [← hwhole] at hplaced
  cases (readLog_ok_iff hplaced measurements).1 hlog with
  | cons hdenotes =>
    rw [hrow] at hdenotes
    exact (startsNoIndex_of_mem hc).not_denotes _ _ _ hdenotes

/-! ## What a report writes -/

/-- What is empty or begins with another byte is no font. -/
theorem KnowsFonts.not_isFont_of_head? (hknows : KnowsFonts library) {data : List UInt8}
    (hhead : ∀ byte ∈ data.head?, byte ∉ [0, 116, 79]) : library.isFont data = false := by
  rw [← Bool.not_eq_true]
  intro hfont
  obtain ⟨c, hc, rest, rfl⟩ := hknows.exists_cons hfont
  have hother := hhead _ rfl
  simp only [fontFirstChars, List.mem_cons, List.not_mem_nil, or_false] at hc
  rcases hc with rfl | rfl | rfl <;> exact absurd hother (by decide)

theorem KnowsFonts.not_isFont_picture (hknows : KnowsFonts library) (image : Image) :
    library.isFont (Content.picture image).bytes = false := by
  refine hknows.not_isFont_of_head? fun byte hbyte => ?_
  obtain rfl : (0x89 : UInt8) = byte := Option.some.inj hbyte
  decide

/-- A summary begins with a brace. -/
theorem head?_summaryText (result : Result) :
    result.summaryText.toUTF8.data.toList.head? = some 123 := by
  have htext : ∃ rest, result.toJson.pretty 0 = '\x7b' :: rest := by
    rw [Result.toJson, Json.Value.pretty, Json.bracketed]
    split <;> exact ⟨_, rfl⟩
  obtain ⟨rest, htext⟩ := htext
  rw [Result.summaryText, Json.Value.prettyText, htext, Text.toUTF8_eq, String.toList_ofList,
    List.data_toByteArray, List.toList_toArray]
  rfl

theorem KnowsFonts.not_isFont_summary (hknows : KnowsFonts library) (result : Result) :
    library.isFont (Content.data result.summaryText.toUTF8).bytes = false := by
  refine hknows.not_isFont_of_head? fun byte hbyte => ?_
  rw [Content.bytes, head?_summaryText] at hbyte
  obtain rfl : (123 : UInt8) = byte := Option.some.inj hbyte
  decide

/-- Nor is a summary that is broken off a font. -/
theorem KnowsFonts.not_isFont_rest (hknows : KnowsFonts library) (cut : CutOff)
    (result : Result) :
    library.isFont (Content.data (cut.rest result.summaryText.toUTF8)).bytes = false := by
  refine hknows.not_isFont_of_head? fun byte hbyte => ?_
  simp only [Content.bytes, CutOff.rest, ByteArray.data_extract, Array.toList_extract,
    List.extract_eq_take_drop, List.drop_zero, List.head?_take, Option.mem_def] at hbyte
  split at hbyte
  · cases hbyte
  · rw [head?_summaryText] at hbyte
    obtain rfl : (123 : UInt8) = byte := Option.some.inj hbyte
    decide

end

/-! ## The fonts of the reference machine -/

theorem knowsFonts_reference : KnowsFonts Machine.reference.library := by
  intro data hfont
  have hversion : ∃ version ∈ collectionVersion :: fontVersions,
      numberAt? data 0 4 = some version := by
    change isFont data = true at hfont
    rw [isFont] at hfont
    cases hstart : directoryStart? data with
    | none => simp [hstart] at hfont
    | some start =>
      simp only [directoryStart?, bind, Option.bind_eq_some_iff] at hstart
      obtain ⟨version, hversion, hstart⟩ := hstart
      refine ⟨version, ?_, hversion⟩
      split at hstart
      · next hcollection => simp [hcollection]
      · split at hstart
        · next hknown => exact List.mem_cons_of_mem _ hknown
        · cases hstart
  obtain ⟨version, hknown, hnumber⟩ := hversion
  rw [numberAt?, List.drop_zero, Option.map_eq_some_iff] at hnumber
  obtain ⟨⟨number, rest⟩, htake, rfl⟩ := hnumber
  rw [Number.take_of_takeNumber? htake]
  simp only [fontVersions, List.mem_cons, List.not_mem_nil, or_false] at hknown
  rcases hknown with rfl | rfl | rfl | rfl <;> decide

end TimingReport.Report
