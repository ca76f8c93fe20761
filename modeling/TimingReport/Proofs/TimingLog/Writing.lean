import TimingReport.Proofs.Box.Places
import TimingReport.Proofs.Number.Digits
import TimingReport.Proofs.TimingLog.Reading

/-!
# Rows that are written are read back

A measured tag is written either behind a blank, as it is, or in quotes, with every quote
doubled.  Behind a blank a quote opens nothing, so only the separators are kept out of the
tag there; in quotes it may hold anything.  Each row of such a log denotes its index, its tag
and its time, in any mixture of the two layouts.
-/

namespace TimingReport.TimingLog

open TimingReport.Fallible
open TimingReport.Number
open TimingReport.Text

/-- How the tag of a row is written. -/
inductive TagLayout where
  | spaced
  | quoted
  deriving DecidableEq, Repr

/-- A text with every quote doubled. -/
def doubledQuotes (text : List Char) : List Char :=
  text.flatMap fun c => if c = '"' then ['"', '"'] else [c]

def TagLayout.text : TagLayout → List Char → List Char
  | .spaced, tag => ' ' :: tag
  | .quoted, tag => '"' :: (doubledQuotes tag ++ ['"'])

/-- Behind a blank a tag holds no separator; in quotes it may hold anything. -/
def TagLayout.Allows : TagLayout → List Char → Prop
  | .spaced, tag => ∀ c ∈ tag, c ≠ ',' ∧ c ≠ '\n' ∧ c ≠ '\r'
  | .quoted, _ => True

/-- A row as a measuring program writes it: an index of 64 bits, a tag that neither begins nor
ends in a blank, and a count of nanoseconds. -/
structure WrittenRow where
  index : Int64
  tag : String
  nanoseconds : UInt64
  layout : TagLayout
  first_not_blank : ∀ c ∈ tag.toList.head?, isBlank c = false
  last_not_blank : ∀ c ∈ tag.toList.getLast?, isBlank c = false
  allowed : layout.Allows tag.toList

namespace WrittenRow

/-- The line of a row without its line feed. -/
def line (row : WrittenRow) : List Char :=
  Json.integerText row.index.toInt ++ ',' :: (row.layout.text row.tag.toList ++ ',' ::
    decimalDigits row.nanoseconds.toNat)

def text (row : WrittenRow) : List Char := row.line ++ ['\n']

end WrittenRow

/-- The measurement is that of the row: its time is the double nearest to the count. -/
structure WrittenRow.ReadAs (row : WrittenRow) (measurement : Measurement) : Prop where
  index_eq : measurement.index = row.index.toInt
  tag_eq : measurement.tag = row.tag
  nearest : IsNearest row.nanoseconds.toNat measurement.time
  not_negative : isNegative measurement.time = false
  exact_of_le : row.nanoseconds.toNat ≤ 2 ^ 53 →
    value? measurement.time = some (row.nanoseconds.toNat : ℚ)

/-! ## Plain text -/

/-- Digits and a minus are plain text. -/
theorem plainText_utf8 {chars : List Char}
    (hchars : ∀ c ∈ chars, c = '-' ∨ isDecimalDigit c = true) : PlainText (utf8 chars) := by
  have hmissing : ∀ special : Char, special ≠ '-' → isDecimalDigit special = false →
      special ∉ chars := by
    intro special hminus hdigit hmem
    rcases hchars special hmem with h | h
    · exact hminus h
    · rw [hdigit] at h
      cases h
  refine ⟨inside_utf8 (hmissing _ (by decide) rfl) (hmissing _ (by decide) rfl)
    (hmissing _ (by decide) rfl), fun hhead => ?_⟩
  exact ne_of_mem_utf8 (by decide) (hmissing '"' (by decide) rfl) (List.mem_of_mem_head? hhead) rfl

/-! ## Tags -/

theorem QuotedText.append {bytes text content : List UInt8} (hbytes : quote ∉ bytes)
    (htext : QuotedText text content) : QuotedText (bytes ++ text) (bytes ++ content) := by
  induction bytes with
  | nil => exact htext
  | cons byte bytes ih =>
    rw [List.mem_cons, not_or] at hbytes
    exact .byte (fun h => hbytes.1 h.symm) (ih hbytes.2)

/-- A text with its quotes doubled stands for the text. -/
theorem quotedText_doubledQuotes (tag : List Char) :
    QuotedText (utf8 (doubledQuotes tag)) (utf8 tag) := by
  induction tag with
  | nil => exact .nil
  | cons c tag ih =>
    have htag : utf8 (c :: tag) = String.utf8EncodeChar c ++ utf8 tag := List.flatMap_cons
    rw [doubledQuotes, List.flatMap_cons, utf8_append, htag]
    by_cases hquote : c = '"'
    · subst hquote
      exact ih.twice
    · have hsingle : utf8 [c] = String.utf8EncodeChar c := List.flatMap_singleton _ _
      rw [if_neg hquote, hsingle]
      have hmissing : '"' ∉ [c] := by simpa using Ne.symm hquote
      refine ih.append fun hmem => ?_
      exact ne_of_mem_utf8 (by decide) hmissing (by rwa [hsingle]) rfl

/-- The field of a written tag is the tag, behind a blank or not. -/
theorem exists_fieldText_tag {layout : TagLayout} {tag : List Char} (hallowed : layout.Allows tag) :
    ∃ blanks, FieldText (utf8 (layout.text tag)) (utf8 (blanks ++ tag)) ∧
      ∀ c ∈ blanks, isBlank c = true := by
  cases layout with
  | spaced =>
    have hhead : (utf8 (' ' :: tag)).head? = some 32 := rfl
    refine ⟨[' '], .plain ⟨?_, by rw [TagLayout.text, hhead]; decide⟩, by simp; decide⟩
    have hmissing :
        ∀ special : Char, special ≠ ' ' → (special = ',' ∨ special = '\n' ∨ special = '\r') →
        special ∉ ' ' :: tag := by
      rintro special hblank hspecial (_ | ⟨_, hmem⟩)
      · exact hblank rfl
      · obtain ⟨hcomma, hlineFeed, hcarriageReturn⟩ := hallowed special hmem
        tauto
    exact inside_utf8 (hmissing _ (by decide) (.inl rfl)) (hmissing _ (by decide) (.inr (.inl rfl)))
      (hmissing _ (by decide) (.inr (.inr rfl)))
  | quoted =>
    refine ⟨[], ?_, by simp⟩
    have hnothing : PlainText [] := ⟨by simp [Inside], by simp⟩
    have hfield := FieldText.quoted (quotedText_doubledQuotes tag) hnothing
    rw [List.append_nil] at hfield
    have htext :
        utf8 (TagLayout.quoted.text tag) = quote :: (utf8 (doubledQuotes tag) ++ [quote]) := by
      rw [TagLayout.text, ← List.singleton_append, utf8_append, utf8_append]
      rfl
    rwa [htext]

theorem trimBlanks_eq_self {text : List Char} (hfirst : ∀ c ∈ text.head?, isBlank c = false)
    (hlast : ∀ c ∈ text.getLast?, isBlank c = false) : trimBlanks text = text := by
  have hdrop : ∀ chars : List Char, (∀ c ∈ chars.head?, isBlank c = false) →
      chars.dropWhile isBlank = chars := by
    intro chars hhead
    cases chars with
    | nil => rfl
    | cons c chars => exact List.dropWhile_cons_of_neg (by simp [hhead c (by simp)])
  rw [trimBlanks, trimBoth, hdrop text hfirst, hdrop _ (by simpa using hlast), List.reverse_reverse]

theorem not_isBlank_of_digit {c : Char} (hc : c = '-' ∨ isDecimalDigit c = true) :
    isBlank c = false := by
  rcases hc with rfl | hdigit
  · decide
  · simp only [isDecimalDigit, Bool.and_eq_true, decide_eq_true_eq] at hdigit
    have hlow : '0'.toNat ≤ c.toNat := hdigit.1
    have hhigh : c.toNat ≤ '9'.toNat := hdigit.2
    have hzero : '0'.toNat = 48 := rfl
    have hnine : '9'.toNat = 57 := rfl
    simp only [isBlank, inRanges, blankRanges, List.any_cons, List.any_nil, CodeRange.contains,
      Bool.or_false, Bool.or_eq_false_iff, Bool.and_eq_false_iff, decide_eq_false_iff_not]
    omega

theorem trimBlanks_digits {chars : List Char}
    (hchars : ∀ c ∈ chars, c = '-' ∨ isDecimalDigit c = true) : trimBlanks chars = chars :=
  trimBlanks_eq_self
    (fun c hc => not_isBlank_of_digit (hchars c (List.mem_of_mem_head? hc)))
    (fun c hc => not_isBlank_of_digit (hchars c (List.mem_of_mem_getLast? hc)))

/-! ## Rows -/

namespace WrittenRow

/-- The fields of a written row; what stands in front of its tag is trimmed. -/
def fields (row : WrittenRow) (blanks : List Char) : List (List UInt8) :=
  [utf8 (Json.integerText row.index.toInt), utf8 (blanks ++ row.tag.toList),
    utf8 (decimalDigits row.nanoseconds.toNat)]

theorem exists_rowText (row : WrittenRow) :
    ∃ blanks, RowText FieldText (utf8 row.line) (row.fields blanks) ∧
      ∀ c ∈ blanks, isBlank c = true := by
  obtain ⟨blanks, htag, hblanks⟩ := exists_fieldText_tag row.allowed
  refine ⟨blanks, ?_, hblanks⟩
  have hindex := FieldText.plain (plainText_utf8 fun c => mem_integerText (z := row.index.toInt))
  have htime := FieldText.plain (plainText_utf8 fun c hc =>
    .inr (isDecimalDigit_of_mem (n := row.nanoseconds.toNat) hc))
  have hline : utf8 row.line = utf8 (Json.integerText row.index.toInt) ++ comma ::
      (utf8 (row.layout.text row.tag.toList) ++
        comma :: utf8 (decimalDigits row.nanoseconds.toNat)) := by
    rw [line, utf8_append]
    change _ ++ comma :: utf8 (_ ++ _) = _
    rw [utf8_append]
    rfl
  rw [hline]
  exact .more hindex (.more htag (.last htime))

/-- The fields of a written row denote it. -/
theorem exists_denotes (row : WrittenRow) {blanks : List Char}
    (hblanks : ∀ c ∈ blanks, isBlank c = true) :
    ∃ measurement, Denotes (row.fields blanks) measurement ∧ row.ReadAs measurement := by
  have hindexText := trimBlanks_digits fun c => mem_integerText (z := row.index.toInt)
  have htimeText := trimBlanks_digits fun c hc =>
    .inr (isDecimalDigit_of_mem (n := row.nanoseconds.toNat) hc)
  have htagText : String.ofList (trimBlanks (blanks ++ row.tag.toList)) = row.tag := by
    rw [trimBlanks, trimBoth_append_left _ hblanks, ← trimBlanks,
      trimBlanks_eq_self row.first_not_blank row.last_not_blank, String.ofList_toList]
  have hinteger := IntegerText.decimal (signedNumeral_integerText row.index.toInt)
  have hdecimal := decimalText_decimalDigits row.nanoseconds.toNat
  have hlow := row.index.le_toInt
  have hhigh := Int.le_sub_one_of_lt row.index.toInt_lt
  have hsmall : row.nanoseconds.toNat ≤ 2 ^ 64 := row.nanoseconds.toNat_lt.le
  have hlimit : (row.nanoseconds.toNat : ℚ) < roundingLimit :=
    (isFinite_ofInteger_iff _).1 (isFinite_ofInteger hsmall)
  obtain ⟨time, hnearest, hsign⟩ := exists_isNearest hdecimal hlimit
  have hmeaning : RowMeaning (row.fields blanks) row.index.toInt row.tag false
      (row.nanoseconds.toNat : ℚ) := by
    rw [← htagText]
    exact .intro (by rwa [hindexText]) hlow hhigh (by rwa [htimeText]) hlimit
  refine ⟨⟨row.index.toInt, row.tag, time⟩, ⟨false, _, hmeaning, hnearest, hsign⟩, rfl, rfl,
    hnearest, hsign, fun hexact => ?_⟩
  refine hnearest.value?_eq (y := ofInteger row.nanoseconds.toNat) ?_
  rw [value?_eq_toRat (isFinite_ofInteger hsmall), toRat_ofInteger_eq hexact]

theorem utf8_text (row : WrittenRow) : utf8 row.text = utf8 row.line ++ [lineFeed] :=
  utf8_append _ _

/-- A written row begins with a character that is no part of a byte order mark. -/
theorem exists_utf8_line (row : WrittenRow) :
    ∃ byte rest, utf8 row.line = byte :: rest ∧ byte ≠ 0xef := by
  obtain ⟨c, rest, hindex⟩ : ∃ c rest, Json.integerText row.index.toInt = c :: rest := by
    cases row.index.toInt with
    | ofNat n => exact List.exists_cons_of_ne_nil (decimalDigits_ne_nil n)
    | negSucc n => exact ⟨'-', _, rfl⟩
  have hc : c = '-' ∨ isDecimalDigit c = true := mem_integerText (hindex ▸ List.mem_cons_self)
  have hascii : c.toNat < 128 := by
    rcases hc with rfl | hdigit
    · decide
    · simp only [isDecimalDigit, Bool.and_eq_true, decide_eq_true_eq] at hdigit
      exact lt_of_le_of_lt (b := '9'.toNat) hdigit.2 (by decide)
  have hline : row.line = c :: row.line.tail := by
    rw [line, hindex]
    rfl
  refine ⟨UInt8.ofNat c.toNat, utf8 row.line.tail, ?_, fun hbyte => ?_⟩
  · rw [hline, utf8, List.flatMap_cons, utf8EncodeChar_of_lt hascii]
    rfl
  · have hvalue := congrArg UInt8.toNat hbyte
    rw [UInt8.toNat_ofNat_of_lt' (hascii.trans (by decide))] at hvalue
    exact absurd hascii (by rw [hvalue]; decide)

/-- A log of written rows is a log of rows that denote them. -/
theorem exists_logText (rows : List WrittenRow) :
    ∃ placed measurements, LogText (utf8 (rows.flatMap text)) placed ∧
      List.Forall₂ (fun row measurement => Denotes row.fields measurement) placed measurements ∧
      List.Forall₂ ReadAs rows measurements := by
  induction rows with
  | nil => exact ⟨[], [], .nil (by simp [utf8]), .nil, .nil⟩
  | cons row rows ih =>
    obtain ⟨placed, measurements, hlog, hdenotes, hread⟩ := ih
    obtain ⟨blanks, hrow, hblanks⟩ := row.exists_rowText
    obtain ⟨measurement, hmeasurement, hreadRow⟩ := row.exists_denotes hblanks
    obtain ⟨byte, rest, hline, -⟩ := row.exists_utf8_line
    have hnoGap : ∀ byte ∈ ([] : List UInt8), endsRow byte = true := by simp
    have hstop : endsRow lineFeed = true := rfl
    have hcons := LogText.cons hnoGap (by simp [hline]) hrow hstop hlog
    refine ⟨⟨[], utf8 row.line, [lineFeed], row.fields blanks⟩ :: placed,
      measurement :: measurements, ?_, .cons hmeasurement hdenotes, .cons hreadRow hread⟩
    rw [List.flatMap_cons, utf8_append, utf8_text, List.append_assoc, List.singleton_append]
    exact hcons

theorem withoutMark_utf8 (rows : List WrittenRow) :
    withoutMark (utf8 (rows.flatMap text)) = utf8 (rows.flatMap text) := by
  cases rows with
  | nil => rfl
  | cons row rows =>
    obtain ⟨byte, rest, hline, hbyte⟩ := row.exists_utf8_line
    rw [withoutMark, List.flatMap_cons, utf8_append, utf8_text, hline]
    exact if_neg (by simp [byteOrderMark, List.isPrefixOf, Ne.symm hbyte])

end WrittenRow

/-- What has been written is read back: the same rows in the same order, whichever layout each
tag is in. -/
theorem readLog_written (rows : List WrittenRow) :
    ∃ measurements, readLog (.ofBytes (utf8 (rows.flatMap WrittenRow.text))) = .ok measurements ∧
      List.Forall₂ WrittenRow.ReadAs rows measurements := by
  obtain ⟨placed, measurements, hlog, hdenotes, hread⟩ := WrittenRow.exists_logText rows
  rw [← WrittenRow.withoutMark_utf8] at hlog
  exact ⟨measurements, (readLog_ok_iff hlog measurements).2 hdenotes, hread⟩

/-- A quote behind the blank is part of its tag; in quotes, so are a comma, a quote and a line
feed. -/
theorem readLog_written_both_layouts :
    ∃ measurements,
      readLog (.ofBytes (utf8 ("0, \"a,5\n-1,\"a,\"\"b\nc\",7\n").toList)) = .ok measurements ∧
        measurements.map (fun measurement =>
            (measurement.index, measurement.tag, value? measurement.time)) =
          [(0, "\"a", some 5), (-1, "a,\"b\nc", some 7)] := by
  obtain ⟨measurements, hread, hall⟩ := readLog_written
    [⟨0, "\"a", 5, .spaced, by simpa using (by decide : isBlank '"' = false),
        by simpa using (by decide : isBlank 'a' = false), by simp [TagLayout.Allows]⟩,
      ⟨-1, "a,\"b\nc", 7, .quoted, by simpa using (by decide : isBlank 'a' = false),
        by simpa using (by decide : isBlank 'c' = false), trivial⟩]
  refine ⟨measurements, hread, ?_⟩
  rcases hall with _ | ⟨hfirst, _ | ⟨hsecond, _ | _⟩⟩
  have hfive := hfirst.exact_of_le (by decide)
  have hseven := hsecond.exact_of_le (by decide)
  rw [List.map_cons, List.map_cons, List.map_nil, hfirst.index_eq, hfirst.tag_eq, hfive,
    hsecond.index_eq, hsecond.tag_eq, hseven]
  rfl

end TimingReport.TimingLog
