import TimingReport.Proofs.TimingLog.Arrival

/-!
# The layout of a log

Rows may be ended by any run of row ends, and fields may have blanks around them.  Where no quote
is in the way, neither makes a difference: the same fields are read, and a field that is no text
does not become one.  Only the first row is looked at with care, since a byte order mark that
loses the row ends in front of it would be dropped.
-/

namespace TimingReport.TimingLog

open TimingReport.Fallible
open TimingReport.Text

/-- Blanks that may stand around a field, which are those that end no row. -/
def Padding (chars : List Char) : Prop := ∀ c ∈ chars, isBlank c = true ∧ c ≠ '\n' ∧ c ≠ '\r'

/-- A field with blanks added at its ends. -/
inductive PaddedField : List UInt8 → List UInt8 → Prop where
  | intro {front back : List Char} {field : List UInt8} :
      Padding front → Padding back → Inside field →
      PaddedField field (utf8 front ++ (field ++ utf8 back))

/-- Fields separated by commas, each with blanks added. -/
inductive PaddedLine : List UInt8 → List UInt8 → Prop where
  | last {field padded : List UInt8} : PaddedField field padded → PaddedLine field padded
  | more {field padded rest rest' : List UInt8} :
      PaddedField field padded → PaddedLine rest rest' →
      PaddedLine (field ++ comma :: rest) (padded ++ comma :: rest')

/-- A run of row ends, perhaps an empty one. -/
def RowEnds (run : List UInt8) : Prop := ∀ byte ∈ run, endsRow byte = true

/-- Lines that are not empty, in another layout: blanks are added to their fields, and they are
ended by other runs of row ends.  The last line may stand without one. -/
inductive RelaidLines : List UInt8 → List UInt8 → Prop where
  | nil : RelaidLines [] []
  | last {line line' run run' : List UInt8} :
      line ≠ [] → PaddedLine line line' → RowEnds run → RowEnds run' →
      RelaidLines (line ++ run) (line' ++ run')
  | cons {line line' run run' rest rest' : List UInt8} :
      line ≠ [] → PaddedLine line line' → RowEnds run → run ≠ [] → RowEnds run' → run' ≠ [] →
      RelaidLines rest rest' →
      RelaidLines (line ++ (run ++ rest)) (line' ++ (run' ++ rest'))

/-- A log in another layout.  Row ends in front of the first line are not removed altogether. -/
inductive Relaid : List UInt8 → List UInt8 → Prop where
  | intro {run run' lines lines' : List UInt8} :
      RowEnds run → RowEnds run' → (run ≠ [] → run' ≠ []) → RelaidLines lines lines' →
      Relaid (run ++ lines) (run' ++ lines')

/-! ## Texts and their parts -/

theorem isText_iff_isValidUTF8 (bytes : List UInt8) :
    IsText bytes ↔ bytes.toByteArray.IsValidUTF8 := by
  constructor
  · rintro ⟨chars, rfl⟩
    exact ⟨chars, rfl⟩
  · rintro ⟨chars, hchars⟩
    exact ⟨chars, List.toByteArray_inj.1 hchars⟩

theorem isText_append_iff_right {front : List UInt8} (hfront : IsText front) (rest : List UInt8) :
    IsText (front ++ rest) ↔ IsText rest := by
  obtain ⟨chars, rfl⟩ := hfront
  induction chars with
  | nil => rfl
  | cons c chars ih =>
    have hsplit : utf8 (c :: chars) ++ rest = utf8 [c] ++ (utf8 chars ++ rest) := by
      rw [← List.append_assoc, ← utf8_append, List.singleton_append]
    rw [hsplit, ← ih, isText_iff_isValidUTF8, List.toByteArray_append, isText_iff_isValidUTF8]
    exact ByteArray.isValidUTF8_utf8Encode_singleton_append_iff

/-- What stands in front of a text is cut off where a character begins, so it is a text if all
is. -/
theorem isText_append_iff_left {back : List UInt8} (hback : IsText back) (front : List UInt8) :
    IsText (front ++ back) ↔ IsText front := by
  constructor
  · intro hall
    cases back with
    | nil => rwa [List.append_nil] at hall
    | cons byte rest =>
      rw [isText_iff_isValidUTF8] at hall hback ⊢
      have hfirst : byte.IsUTF8FirstByte := by
        simpa using hback.isUTF8FirstByte_getElem_zero (by simp)
      have hposition : String.Pos.Raw.IsValid (.ofByteArray _ hall) ⟨front.length⟩ := by
        refine String.Pos.Raw.isValid_iff_isUTF8FirstByte.2 (.inr ⟨?_, ?_⟩)
        · rw [String.Pos.Raw.lt_iff]
          change front.length < (front ++ byte :: rest).toByteArray.size
          simp only [List.size_toByteArray, List.length_append, List.length_cons]
          omega
        · rw [String.getUTF8Byte.eq_1, List.getElem_toByteArray, List.getElem_append_right le_rfl]
          simpa using hfirst
      have hcut : (front ++ byte :: rest).toByteArray.extract 0 front.length =
          front.toByteArray := by
        rw [List.toByteArray_append, ByteArray.extract_append_eq_left List.size_toByteArray.symm]
      rw [← hcut]
      exact hposition.isValidUTF8_extract_zero
  · rintro ⟨chars, rfl⟩
    obtain ⟨backChars, rfl⟩ := hback
    exact ⟨chars ++ backChars, (utf8_append _ _).symm⟩

/-! ## Padded fields -/

namespace Padding

variable {chars : List Char}

theorem isBlank (hchars : Padding chars) : ∀ c ∈ chars, isBlank c = true :=
  fun c hc => (hchars c hc).1

theorem inside (hchars : Padding chars) : Inside (utf8 chars) :=
  inside_utf8 (fun hmem => absurd (hchars.isBlank _ hmem) (by decide))
    (fun hmem => (hchars _ hmem).2.1 rfl) (fun hmem => (hchars _ hmem).2.2 rfl)

theorem no_quote (hchars : Padding chars) : quote ∉ utf8 chars := fun hmem =>
  ne_of_mem_utf8 (by decide) (fun hquote => absurd (hchars.isBlank '"' hquote) (by decide)) hmem rfl

end Padding

/-- A padded field is read like the field: as the same text or not at all. -/
theorem PaddedField.fieldText_ok_iff {field padded : List UInt8} (hfield : PaddedField field padded)
    (text : String) : fieldText field = .ok text ↔ fieldText padded = .ok text := by
  cases hfield with
  | @intro front back field hfront hback _ =>
    have hsame : IsText (utf8 front ++ (field ++ utf8 back)) ↔ IsText field := by
      rw [isText_append_iff_right ⟨front, rfl⟩, isText_append_iff_left ⟨back, rfl⟩]
    have htrim : ∀ chars, trimBlanks (front ++ (chars ++ back)) = trimBlanks chars := by
      intro chars
      rw [trimBlanks, trimBoth_append_left _ hfront.isBlank, trimBoth_append_right _ hback.isBlank,
        trimBlanks]
    rw [Text.fieldText_ok_iff, Text.fieldText_ok_iff]
    constructor
    · rintro ⟨chars, rfl, rfl⟩
      exact ⟨front ++ (chars ++ back), by rw [utf8_append, utf8_append], by rw [htrim]⟩
    · rintro ⟨chars, hchars, rfl⟩
      obtain ⟨fieldChars, rfl⟩ := hsame.1 ⟨chars, hchars⟩
      rw [← utf8_append, ← utf8_append] at hchars
      exact ⟨fieldChars, rfl, by rw [← utf8_injective hchars, htrim]⟩

theorem denotes_iff_of_padded {fields fields' : List (List UInt8)}
    (hfields : List.Forall₂ PaddedField fields fields') (measurement : Measurement) :
    Denotes fields measurement ↔ Denotes fields' measurement := by
  have hread : ∀ fields : List (List UInt8), Denotes fields measurement ↔
      ∃ texts, List.Forall₂ (fun field text => fieldText field = .ok text) fields texts ∧
        measurementOfTexts texts = .ok measurement := by
    intro fields
    rw [← measurement_ok_iff ⟨⟨0, 1, 0⟩, fields⟩, Row.measurement, bind_ok_iff]
    simp only [fieldTexts_ok_iff]
  have hsame : ∀ field padded, PaddedField field padded → ∀ text,
      fieldText field = .ok text ↔ fieldText padded = .ok text :=
    fun _ _ => PaddedField.fieldText_ok_iff
  rw [hread, hread]
  exact exists_congr fun texts => and_congr_left' (forall₂_congr_of_related hsame hfields texts)

/-! ## Padded lines -/

theorem PaddedField.fieldText {field padded : List UInt8} (hfield : PaddedField field padded)
    (hquote : quote ∉ field) : FieldText field field ∧ FieldText padded padded := by
  cases hfield with
  | @intro front back field hfront hback hinside =>
    refine ⟨.plain ⟨hinside, fun h => hquote (List.mem_of_mem_head? h)⟩, .plain ⟨?_, fun h => ?_⟩⟩
    · simp only [Inside, List.mem_append]
      rintro byte (hmem | hmem | hmem)
      · exact hfront.inside byte hmem
      · exact hinside byte hmem
      · exact hback.inside byte hmem
    · have hmem := List.mem_of_mem_head? h
      simp only [List.mem_append] at hmem
      rcases hmem with hmem | hmem | hmem
      · exact hfront.no_quote hmem
      · exact hquote hmem
      · exact hback.no_quote hmem

theorem PaddedLine.exists_rowText {line line' : List UInt8} (hline : PaddedLine line line')
    (hquote : quote ∉ line) :
    ∃ fields fields', RowText FieldText line fields ∧ RowText FieldText line' fields' ∧
      List.Forall₂ PaddedField fields fields' := by
  induction hline with
  | @last field padded hfield =>
    obtain ⟨htext, htext'⟩ := hfield.fieldText hquote
    exact ⟨[field], [padded], .last htext, .last htext', .cons hfield .nil⟩
  | @more field padded rest rest' hfield _ ih =>
    rw [List.mem_append, List.mem_cons, not_or, not_or] at hquote
    obtain ⟨htext, htext'⟩ := hfield.fieldText hquote.1
    obtain ⟨fields, fields', hrow, hrow', hfields⟩ := ih hquote.2.2
    exact ⟨field :: fields, padded :: fields', .more htext hrow, .more htext' hrow',
      .cons hfield hfields⟩

theorem PaddedLine.ne_nil {line line' : List UInt8} (hline : PaddedLine line line')
    (hnonempty : line ≠ []) : line' ≠ [] := by
  cases hline with
  | last hfield =>
    cases hfield with
    | intro => simp [hnonempty]
  | more => simp

/-! ## Relaid logs -/

/-- Rows with the same fields but for blanks around them. -/
def SamePadded (row row' : PlacedRow) : Prop := List.Forall₂ PaddedField row.fields row'.fields

/-- A row behind any run of row ends and in front of another one. -/
theorem exists_logText_single {gap line run : List UInt8} {fields : List (List UInt8)}
    (hgap : RowEnds gap) (hline : line ≠ []) (hrow : RowText FieldText line fields)
    (hrun : RowEnds run) : ∃ stop, LogText (gap ++ (line ++ run)) [⟨gap, line, stop, fields⟩] := by
  cases run with
  | nil => exact ⟨[], by simpa using LogText.last hgap hline hrow.final⟩
  | cons stop run =>
    obtain ⟨hstop, hrest⟩ := List.forall_mem_cons.1 hrun
    exact ⟨[stop], .cons hgap hline hrow hstop (.nil hrest)⟩

/-- Lines and their relaid counterparts are rows with the same fields, whatever row ends stand in
front of the first ones. -/
theorem RelaidLines.exists_logText {lines lines' : List UInt8} (hlines : RelaidLines lines lines')
    (hquote : quote ∉ lines) {gap gap' : List UInt8} (hgap : RowEnds gap) (hgap' : RowEnds gap') :
    ∃ placed placed', LogText (gap ++ lines) placed ∧ LogText (gap' ++ lines') placed' ∧
      List.Forall₂ SamePadded placed placed' := by
  induction hlines generalizing gap gap' with
  | nil =>
    rw [List.append_nil, List.append_nil]
    exact ⟨[], [], .nil hgap, .nil hgap', .nil⟩
  | @last line line' run run' hnonempty hline hrun hrun' =>
    rw [List.mem_append, not_or] at hquote
    obtain ⟨fields, fields', hrow, hrow', hfields⟩ := hline.exists_rowText hquote.1
    obtain ⟨stop, hlog⟩ := exists_logText_single hgap hnonempty hrow hrun
    obtain ⟨stop', hlog'⟩ := exists_logText_single hgap' (hline.ne_nil hnonempty) hrow' hrun'
    exact ⟨_, _, hlog, hlog', .cons hfields .nil⟩
  | @cons line line' run run' rest rest' hnonempty hline hrun hsome hrun' hsome' _ ih =>
    rw [List.mem_append, List.mem_append, not_or, not_or] at hquote
    obtain ⟨fields, fields', hrow, hrow', hfields⟩ := hline.exists_rowText hquote.1
    -- The row ends behind the first one belong to the row that follows.
    obtain ⟨stop, run, rfl⟩ := List.exists_cons_of_ne_nil hsome
    obtain ⟨stop', run', rfl⟩ := List.exists_cons_of_ne_nil hsome'
    obtain ⟨hstop, hrest⟩ := List.forall_mem_cons.1 hrun
    obtain ⟨hstop', hrest'⟩ := List.forall_mem_cons.1 hrun'
    obtain ⟨placed, placed', hlog, hlog', hplaced⟩ := ih hquote.2.2 hrest hrest'
    exact ⟨_, _, .cons hgap hnonempty hrow hstop hlog,
      .cons hgap' (hline.ne_nil hnonempty) hrow' hstop' hlog', .cons hfields hplaced⟩

/-! ## Byte order marks -/

theorem not_mem_mark_of_isBlank {c : Char} (hblank : isBlank c = true) :
    ∀ byte ∈ String.utf8EncodeChar c, byte ∉ byteOrderMark := by
  have hall : ∀ range ∈ blankRanges, ∀ code ∈ List.range' range.1 (range.2 - range.1 + 1),
      (String.utf8EncodeChar (Char.ofNat code)).all (fun byte => byte ∉ byteOrderMark) = true := by
    decide +kernel
  obtain ⟨range, hrange, hcode⟩ := List.any_eq_true.1 hblank
  have hbounds : range.1 ≤ c.toNat ∧ c.toNat ≤ range.2 := by
    simpa [CodeRange.contains] using hcode
  have hchar := hall range hrange c.toNat (List.mem_range'_1.2 ⟨hbounds.1, by omega⟩)
  rw [Char.ofNat_toNat, List.all_eq_true] at hchar
  exact fun byte hbyte => of_decide_eq_true (hchar byte hbyte)

theorem Padding.not_mem_mark {chars : List Char} (hchars : Padding chars) :
    ∀ byte ∈ utf8 chars, byte ∉ byteOrderMark := by
  intro byte hbyte
  obtain ⟨c, hc, hmem⟩ := List.mem_flatMap.1 hbyte
  exact not_mem_mark_of_isBlank (hchars.isBlank c hc) byte hmem

theorem PaddedField.mark_prefix_left {field padded : List UInt8} (hfield : PaddedField field padded)
    (hmark : byteOrderMark <+: padded) : byteOrderMark <+: field := by
  cases hfield with
  | @intro front back field hfront hback _ =>
    have hend : ∀ byte ∈ (utf8 back).head?, byte ∉ byteOrderMark := fun byte hbyte =>
      hback.not_mem_mark byte (List.mem_of_mem_head? hbyte)
    cases hbytes : utf8 front with
    | nil =>
      rw [hbytes, List.nil_append] at hmark
      exact mark_prefix_of_append hend hmark
    | cons byte rest =>
      have hbyte : byte ∉ byteOrderMark := hfront.not_mem_mark byte (by simp [hbytes])
      rw [hbytes] at hmark
      exact absurd hmark (not_mark_prefix_of_head (by simpa using hbyte))

theorem PaddedLine.mark_prefix_left {line line' : List UInt8} (hline : PaddedLine line line')
    (hmark : byteOrderMark <+: line') : byteOrderMark <+: line := by
  cases hline with
  | last hfield => exact hfield.mark_prefix_left hmark
  | more hfield =>
    have hcomma : comma ∉ byteOrderMark := by decide
    have hfirst := mark_prefix_of_append (by simpa using hcomma) hmark
    exact (hfield.mark_prefix_left hfirst).trans (List.prefix_append _ _)

theorem RowEnds.not_mem_mark {run : List UInt8} (hrun : RowEnds run) :
    ∀ byte ∈ run.head?, byte ∉ byteOrderMark := fun byte hbyte =>
  not_mem_mark_of_endsRow (hrun byte (List.mem_of_mem_head? hbyte))

theorem RelaidLines.mark_prefix_left {lines lines' : List UInt8} (hlines : RelaidLines lines lines')
    (hmark : byteOrderMark <+: lines') : byteOrderMark <+: lines := by
  cases hlines with
  | nil => exact hmark
  | last _ hline _ hrun' =>
    have hfirst := mark_prefix_of_append hrun'.not_mem_mark hmark
    exact (hline.mark_prefix_left hfirst).trans (List.prefix_append _ _)
  | @cons line line' run run' rest rest' _ hline _ _ hrun' hsome' _ =>
    have hhead : ∀ byte ∈ (run' ++ rest').head?, byte ∉ byteOrderMark := by
      rw [List.head?_append_of_ne_nil _ hsome']
      exact hrun'.not_mem_mark
    have hfirst := mark_prefix_of_append hhead hmark
    exact (hline.mark_prefix_left hfirst).trans (List.prefix_append _ _)

/-- Another layout brings about no byte order mark. -/
theorem Relaid.mark_prefix_left {bytes other : List UInt8} (hrelaid : Relaid bytes other)
    (hmark : byteOrderMark <+: other) : byteOrderMark <+: bytes := by
  cases hrelaid with
  | @intro run run' lines lines' _ hrun' hkept hlines =>
    cases run' with
    | nil =>
      obtain rfl : run = [] := not_not.1 fun hsome => hkept hsome rfl
      exact hlines.mark_prefix_left hmark
    | cons stop run' =>
      exact absurd hmark (not_mark_prefix_of_head (by simpa using hrun'.not_mem_mark))

/-! ## Every log has a layout -/

theorem PaddedField.refl {field : List UInt8} (hfield : Inside field) :
    PaddedField field field := by
  have hnone : Padding [] := by simp [Padding]
  simpa [utf8] using PaddedField.intro hnone hnone hfield

theorem PaddedLine.of_rowText {text : List UInt8} {fields : List (List UInt8)}
    (htext : RowText FieldText text fields) (hquote : quote ∉ text) : PaddedLine text text := by
  have hinside : ∀ {text content : List UInt8}, FieldText text content → quote ∉ text →
      Inside text := by
    intro text content hfield hquote
    cases hfield with
    | plain hplain => exact hplain.inside
    | quoted => exact absurd List.mem_cons_self hquote
  induction htext with
  | last hfield => exact .last (.refl (hinside hfield hquote))
  | more hfield _ ih =>
    rw [List.mem_append, List.mem_cons, not_or, not_or] at hquote
    exact .more (.refl (hinside hfield hquote.1)) (ih hquote.2.2)

theorem LogText.exists_lines {bytes : List UInt8} {placed : List PlacedRow}
    (hlog : LogText bytes placed) (hquote : quote ∉ bytes) :
    ∃ run lines, bytes = run ++ lines ∧ RowEnds run ∧ RelaidLines lines lines := by
  have hnone : RowEnds [] := by simp [RowEnds]
  induction hlog with
  | @nil gap hgap => exact ⟨gap, [], (List.append_nil gap).symm, hgap, .nil⟩
  | @last gap text fields hgap htext hrow =>
    rw [List.mem_append, not_or] at hquote
    have hline := PaddedLine.of_rowText (hrow.of_final hquote.2) hquote.2
    exact ⟨gap, text, rfl, hgap, by simpa using RelaidLines.last htext hline hnone hnone⟩
  | @cons gap text rest fields stop placed hgap htext hrow hstop _ ih =>
    rw [List.mem_append, List.mem_append, List.mem_cons, not_or, not_or, not_or] at hquote
    obtain ⟨run, lines, rfl, hrun, hlines⟩ := ih hquote.2.2.2
    have hline := PaddedLine.of_rowText hrow hquote.2.1
    have hends : RowEnds (stop :: run) := List.forall_mem_cons.2 ⟨hstop, hrun⟩
    have hsome : stop :: run ≠ [] := List.cons_ne_nil stop run
    exact ⟨gap, _, rfl, hgap, .cons htext hline hends hsome hends hsome hlines⟩

/-- The measurements of a log without quotes do not depend on its layout, and neither does whether
it has any.  Every such log has lines, so the relation holds at least of the log itself. -/
theorem readLog_layout {bytes : List UInt8} (hquote : quote ∉ bytes)
    (hmark : ¬byteOrderMark <+: bytes) :
    Relaid bytes bytes ∧ ∀ other, Relaid bytes other → ∀ measurements,
      readLog (.ofBytes other) = .ok measurements ↔
        readLog (.ofBytes bytes) = .ok measurements := by
  constructor
  · obtain ⟨placed, hlog⟩ := exists_logText bytes
    obtain ⟨run, lines, rfl, hrun, hlines⟩ := hlog.exists_lines hquote
    exact .intro hrun hrun id hlines
  · intro other hrelaid measurements
    have hbytes := withoutMark_eq_self hmark
    have hother := withoutMark_eq_self (mt hrelaid.mark_prefix_left hmark)
    cases hrelaid with
    | @intro run run' lines lines' hrun hrun' _ hlines =>
      rw [List.mem_append, not_or] at hquote
      obtain ⟨placed, placed', hlog, hlog', hplaced⟩ := hlines.exists_logText hquote.2 hrun hrun'
      rw [← hbytes] at hlog
      rw [← hother] at hlog'
      rw [readLog_ok_iff hlog, readLog_ok_iff hlog']
      have hsame : ∀ row row', SamePadded row row' → ∀ measurement,
          Denotes row.fields measurement ↔ Denotes row'.fields measurement :=
        fun _ _ hrow => denotes_iff_of_padded hrow
      exact (forall₂_congr_of_related hsame hplaced measurements).symm

/-- The rows `0,a,1` and `1,a,2`, once in two lines, and once with blanks, one of which has two
bytes, and with empty lines and two-byte row ends. -/
theorem readLog_layout_blanks :
    ∃ measurements,
      readLog (.ofBytes [48, 44, 97, 44, 49, 10, 49, 44, 97, 44, 50]) = .ok measurements ∧
      readLog (.ofBytes [13, 10, 32, 48, 44, 97, 9, 44, 49, 10, 13, 10,
        49, 44, 194, 160, 97, 44, 50, 10]) = .ok measurements := by
  have hread : (readLog (.ofBytes [48, 44, 97, 44, 49, 10, 49, 44, 97, 44, 50])).isOk = true := by
    decide +kernel
  obtain ⟨measurements, hmeasurements⟩ := exists_of_isOk hread
  have hpadding : ∀ chars, (∀ c ∈ chars, c = ' ' ∨ c = '\t' ∨ c = '\u00a0') → Padding chars := by
    intro chars hchars c hc
    rcases hchars c hc with rfl | rfl | rfl <;> decide
  have hinside : ∀ byte : UInt8, byte ≠ comma → endsRow byte = false → Inside [byte] := by
    intro byte hcomma hend
    simp [Inside, hcomma, hend]
  have hfirst : PaddedLine [48, 44, 97, 44, 49] [32, 48, 44, 97, 9, 44, 49] :=
    .more (@PaddedField.intro [' '] [] [48] (hpadding _ (by simp)) (hpadding _ (by simp))
      (hinside 48 (by decide) rfl))
      (.more (@PaddedField.intro [] ['\t'] [97] (hpadding _ (by simp)) (hpadding _ (by simp))
        (hinside 97 (by decide) rfl)) (.last (.refl (hinside 49 (by decide) rfl))))
  have hsecond : PaddedLine [49, 44, 97, 44, 50] [49, 44, 194, 160, 97, 44, 50] :=
    .more (.refl (hinside 49 (by decide) rfl))
      (.more (@PaddedField.intro ['\u00a0'] [] [97] (hpadding _ (by simp)) (hpadding _ (by simp))
        (hinside 97 (by decide) rfl)) (.last (.refl (hinside 50 (by decide) rfl))))
  have hends : ∀ run, (∀ byte ∈ run, byte = 10 ∨ byte = 13) → RowEnds run := by
    intro run hrun byte hbyte
    rcases hrun byte hbyte with rfl | rfl <;> rfl
  have hlines : RelaidLines ([48, 44, 97, 44, 49] ++ ([10] ++ ([49, 44, 97, 44, 50] ++ [])))
      ([32, 48, 44, 97, 9, 44, 49] ++ ([10, 13, 10] ++ ([49, 44, 194, 160, 97, 44, 50] ++ [10]))) :=
    .cons (by simp) hfirst (hends _ (by simp)) (by simp) (hends _ (by simp)) (by simp)
      (.last (by simp) hsecond (hends _ (by simp)) (hends _ (by simp)))
  have hrelaid := @Relaid.intro [] [13, 10] _ _ (hends _ (by simp)) (hends _ (by simp)) (by simp)
    hlines
  obtain ⟨-, hlayout⟩ := @readLog_layout [48, 44, 97, 44, 49, 10, 49, 44, 97, 44, 50] (by decide)
    (by decide)
  exact ⟨measurements, hmeasurements, (hlayout _ hrelaid measurements).2 hmeasurements⟩

end TimingReport.TimingLog
