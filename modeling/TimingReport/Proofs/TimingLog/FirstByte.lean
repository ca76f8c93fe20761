import TimingReport.Proofs.TimingLog.Faults

/-!
# The first byte of a log

The first field of a row is an index, which begins with a sign or a digit, perhaps behind blanks.
So a log whose first byte is a part of no quotes and no row end, and can begin neither an index nor
a blank, has a first row that denotes nothing.
-/

namespace TimingReport.TimingLog

open TimingReport.Fallible
open TimingReport.Number
open TimingReport.Text

/-! ## Characters that begin no number -/

theorem exists_trimBlanks_cons {c : Char} (hblank : isBlank c = false) (text : List Char) :
    ∃ rest, trimBlanks (c :: text) = c :: rest := by
  obtain ⟨front, back, hsplit, hfront, hback⟩ := exists_trimBoth_eq isBlank (c :: text)
  rw [← trimBlanks] at hsplit
  have hfirst : ∀ blanks : List Char, (∀ d ∈ blanks, isBlank d = true) → ∀ rest,
      blanks ≠ c :: rest := by
    rintro blanks hblanks rest rfl
    exact absurd (hblanks c List.mem_cons_self) (by simp [hblank])
  cases front with
  | cons d front =>
    obtain rfl := (List.cons.inj hsplit).1
    exact absurd rfl (hfirst _ hfront front)
  | nil =>
    rcases htrimmed : trimBlanks (c :: text) with _ | ⟨d, rest⟩
    · rw [htrimmed] at hsplit
      exact absurd hsplit.symm (hfirst back hback text)
    · rw [htrimmed] at hsplit
      exact ⟨rest, by rw [(List.cons.inj hsplit).1]⟩

/-- An integer begins with a sign or a digit. -/
theorem head_of_integerText {c : Char} {text : List Char} {z : Int}
    (htext : IntegerText (c :: text) z) :
    c = '+' ∨ c = '-' ∨ ∃ digit, digitValue? 10 c = some digit := by
  generalize hall : c :: text = all at htext
  cases htext with
  | hexadecimal =>
    obtain rfl := (List.cons.inj hall).1
    exact .inr (.inr ⟨0, by decide⟩)
  | decimal hsigned =>
    obtain ⟨hsign, hdigits, hnumeral⟩ := hsigned
    cases hsign with
    | plus => exact .inl (List.cons.inj hall).1
    | minus => exact .inr (.inl (List.cons.inj hall).1)
    | absent =>
      rw [List.nil_append] at hall
      subst hall
      exact .inr (.inr (hnumeral.exists_digitValue? c List.mem_cons_self))

/-- A character with which no index begins, nor what is trimmed in front of one. -/
structure BeginsNoIndex (c : Char) : Prop where
  not_blank : isBlank c = false
  ne_plus : c ≠ '+'
  ne_minus : c ≠ '-'
  no_digit : digitValue? 10 c = none

/-- A byte with which no character begins that may stand first in an index. -/
def StartsNoIndex (byte : UInt8) : Prop :=
  ∀ c rest, String.utf8EncodeChar c = byte :: rest → BeginsNoIndex c

/-- The byte of an ASCII character begins that character alone. -/
theorem eq_of_utf8EncodeChar_eq_cons {c d : Char} (hascii : c.toNat < 128) {rest : List UInt8}
    (hencoded : String.utf8EncodeChar d = UInt8.ofNat c.toNat :: rest) : d = c := by
  have hvalue : (UInt8.ofNat c.toNat).toNat = c.toNat :=
    UInt8.toNat_ofNat_of_lt' (hascii.trans (by decide))
  rcases Nat.lt_or_ge d.toNat 128 with hsmall | hlarge
  · rw [utf8EncodeChar_of_lt hsmall] at hencoded
    have hsame := congrArg UInt8.toNat (List.cons.inj hencoded).1
    rw [hvalue, UInt8.toNat_ofNat_of_lt' (hsmall.trans (by decide))] at hsame
    exact Char.toNat_inj.1 hsame
  · have hlow := le_of_mem_utf8EncodeChar hlarge (UInt8.ofNat c.toNat) (by simp [hencoded])
    omega

theorem startsNoIndex_ofNat {c : Char} (hascii : c.toNat < 128) (hc : BeginsNoIndex c) :
    StartsNoIndex (UInt8.ofNat c.toNat) := by
  intro d rest hencoded
  rwa [eq_of_utf8EncodeChar_eq_cons hascii hencoded]

/-- A row whose first field begins so denotes nothing. -/
theorem StartsNoIndex.not_denotes {byte : UInt8} (hbyte : StartsNoIndex byte) (field : List UInt8)
    (fields : List (List UInt8)) (measurement : Measurement) :
    ¬Denotes ((byte :: field) :: fields) measurement := by
  obtain ⟨index, tag, time⟩ := measurement
  rintro ⟨negative, magnitude, hmeaning, -⟩
  generalize hfirst : byte :: field = first at hmeaning
  cases hmeaning with
  | @intro chars _ _ _ _ _ hinteger =>
    cases chars with
    | nil => cases hfirst
    | cons c text =>
      obtain ⟨start, rest, hencoded⟩ := List.exists_cons_of_ne_nil (@String.utf8EncodeChar_ne_nil c)
      have hsplit : byte :: field = String.utf8EncodeChar c ++ utf8 text := hfirst
      rw [hencoded] at hsplit
      have hc := hbyte c rest (by rw [hencoded, (List.cons.inj hsplit).1])
      obtain ⟨trimmed, htrimmed⟩ := exists_trimBlanks_cons hc.not_blank text
      rw [htrimmed] at hinteger
      rcases head_of_integerText hinteger with h | h | ⟨digit, h⟩
      · exact hc.ne_plus h
      · exact hc.ne_minus h
      · rw [hc.no_digit] at h
        cases h

/-! ## The first row -/

/-- A byte that begins a field as it is. -/
structure BeginsField (byte : UInt8) : Prop where
  ne_comma : byte ≠ comma
  ne_quote : byte ≠ quote
  no_rowEnd : endsRow byte = false

/-- A row that begins inside a field gives that byte to its first field. -/
theorem BeginsField.exists_of_rowText {byte : UInt8} (hbyte : BeginsField byte) {text : List UInt8}
    {fields : List (List UInt8)} (hrow : RowText FinalFieldText (byte :: text) fields) :
    ∃ field rest, fields = (byte :: field) :: rest := by
  have hclosed : ∀ bytes content tail, FieldText bytes content → byte :: text = bytes ++ tail →
      tail.head? = some comma ∨ tail = [] → ∃ field, content = byte :: field := by
    intro bytes content tail hfield hsplit htail
    cases hfield with
    | quoted => exact absurd (List.cons.inj hsplit).1 hbyte.ne_quote
    | plain =>
      cases bytes with
      | cons first bytes => exact ⟨bytes, by rw [(List.cons.inj hsplit).1]⟩
      | nil =>
        rw [List.nil_append] at hsplit
        subst hsplit
        simp [hbyte.ne_comma] at htail
  generalize hall : byte :: text = bytes at hrow
  cases hrow with
  | @last _ content hfinal =>
    cases hfinal with
    | closed hfield =>
      obtain ⟨field, rfl⟩ := hclosed _ _ [] hfield (by simpa using hall) (.inr rfl)
      exact ⟨field, [], rfl⟩
    | unclosed => exact absurd (List.cons.inj hall).1 hbyte.ne_quote
  | more hfield =>
    obtain ⟨field, rfl⟩ := hclosed _ _ _ hfield hall (.inl rfl)
    exact ⟨field, _, rfl⟩

theorem BeginsField.exists_first_row {byte : UInt8} (hbyte : BeginsField byte) {rest : List UInt8}
    {placed : List PlacedRow} (hlog : LogText (byte :: rest) placed) :
    ∃ row later field fields, placed = row :: later ∧ row.fields = (byte :: field) :: fields := by
  have hfirstRow : ∀ gap text later fields, (∀ b ∈ gap, endsRow b = true) → text ≠ [] →
      RowText FinalFieldText text fields → byte :: rest = gap ++ (text ++ later) →
      ∃ field others, fields = (byte :: field) :: others := by
    intro gap text later fields hgap htext hrow hsplit
    cases gap with
    | cons first gap =>
      have hend := hgap first List.mem_cons_self
      rw [← (List.cons.inj hsplit).1, hbyte.no_rowEnd] at hend
      cases hend
    | nil =>
      obtain ⟨first, text, rfl⟩ := List.exists_cons_of_ne_nil htext
      obtain rfl := (List.cons.inj hsplit).1
      exact hbyte.exists_of_rowText hrow
  generalize hall : byte :: rest = bytes at hlog
  cases hlog with
  | nil hgap =>
    have hend := hgap byte (hall ▸ List.mem_cons_self)
    rw [hbyte.no_rowEnd] at hend
    cases hend
  | last hgap htext hrow =>
    obtain ⟨field, others, hfields⟩ := hfirstRow _ _ [] _ hgap htext hrow (by simpa using hall)
    exact ⟨_, _, field, others, rfl, hfields⟩
  | cons hgap htext hrow =>
    obtain ⟨field, others, hfields⟩ := hfirstRow _ _ _ _ hgap htext hrow.final hall
    exact ⟨_, _, field, others, rfl, hfields⟩

/-- The first row of a log is refused where it stands if it begins with no index. -/
theorem exists_fault_of_first_byte {byte : UInt8} (hfield : BeginsField byte)
    (hindex : StartsNoIndex byte) (skipped line : Nat) (start : Position) (rest : List UInt8) :
    ∃ fault, ((Splitter.between skipped line start).rows (byte :: rest)).mapM Row.judged =
      .error (.badRow start fault) := by
  obtain ⟨placed, hlog⟩ := exists_logText (byte :: rest)
  obtain ⟨row, later, field, fields, rfl, hrow⟩ := hfield.exists_first_row hlog
  rw [Splitter.rows_between hlog, Splitter.placedRows, mapM_cons, Row.judged]
  cases hmeasurement : Row.measurement ⟨start, row.fields⟩ with
  | error fault => exact ⟨fault, rfl⟩
  | ok measurement =>
    have hdenotes := (measurement_ok_iff _ _).1 hmeasurement
    rw [hrow] at hdenotes
    exact absurd hdenotes (hindex.not_denotes _ _ _)

end TimingReport.TimingLog
