import Mathlib.Data.List.TakeWhile
import TimingReport.TimingLog.Splitter

/-!
# The grammar of timing logs

The grammar says how rows and fields are written in a log, with no reader in mind.
Every sequence of bytes is a log, and the splitter follows each of its derivations.
-/

namespace TimingReport.TimingLog

/-- Bytes that end neither a field nor a row. -/
def Inside (text : List UInt8) : Prop := ∀ byte ∈ text, byte ≠ comma ∧ endsRow byte = false

/-- Bytes that make up a field as they are, or follow a closing quote. -/
structure PlainText (text : List UInt8) : Prop where
  inside : Inside text
  no_quote : text.head? ≠ some quote

/-- The text between quotes, in which every quote is doubled, and what it stands for. -/
inductive QuotedText : List UInt8 → List UInt8 → Prop where
  | nil : QuotedText [] []
  | byte {text content : List UInt8} {byte : UInt8} :
      byte ≠ quote → QuotedText text content → QuotedText (byte :: text) (byte :: content)
  | twice {text content : List UInt8} :
      QuotedText text content → QuotedText (quote :: quote :: text) (quote :: content)

/-- A field as it is written and its bytes. -/
inductive FieldText : List UInt8 → List UInt8 → Prop where
  | plain {text : List UInt8} : PlainText text → FieldText text text
  | quoted {text content tail : List UInt8} :
      QuotedText text content → PlainText tail →
      FieldText (quote :: (text ++ quote :: tail)) (content ++ tail)

/-- The last field of a log may leave its quotes open. -/
inductive FinalFieldText : List UInt8 → List UInt8 → Prop where
  | closed {text content : List UInt8} : FieldText text content → FinalFieldText text content
  | unclosed {text content : List UInt8} :
      QuotedText text content → FinalFieldText (quote :: text) content

/-- A byte that means nothing of its own makes up a field. -/
theorem fieldText_byte {byte : UInt8} (hcomma : byte ≠ comma) (hend : endsRow byte = false)
    (hquote : byte ≠ quote) : FieldText [byte] [byte] :=
  .plain ⟨by simp [Inside, hcomma, hend], by simpa using hquote⟩

/-- Fields separated by commas, the last of which is written as `Last` says. -/
inductive RowText (Last : List UInt8 → List UInt8 → Prop) :
    List UInt8 → List (List UInt8) → Prop where
  | last {text content : List UInt8} : Last text content → RowText Last text [content]
  | more {text content rest : List UInt8} {fields : List (List UInt8)} :
      FieldText text content → RowText Last rest fields →
      RowText Last (text ++ comma :: rest) (content :: fields)

/-- A row where it stands in a log. -/
structure PlacedRow where
  /-- The row ends in front of the row. -/
  gap : List UInt8
  text : List UInt8
  /-- The row end behind the row; at the end of a log there may be none. -/
  stop : List UInt8
  fields : List (List UInt8)

/-- All the bytes of a row and of the row ends around it. -/
def PlacedRow.bytes (row : PlacedRow) : List UInt8 := row.gap ++ (row.text ++ row.stop)

/-- A log without its byte order mark, and its rows. -/
inductive LogText : List UInt8 → List PlacedRow → Prop where
  | nil {gap : List UInt8} : (∀ byte ∈ gap, endsRow byte = true) → LogText gap []
  | last {gap text : List UInt8} {fields : List (List UInt8)} :
      (∀ byte ∈ gap, endsRow byte = true) → text ≠ [] → RowText FinalFieldText text fields →
      LogText (gap ++ text) [⟨gap, text, [], fields⟩]
  | cons {gap text rest : List UInt8} {fields : List (List UInt8)} {stop : UInt8}
      {rows : List PlacedRow} :
      (∀ byte ∈ gap, endsRow byte = true) → text ≠ [] → RowText FieldText text fields →
      endsRow stop = true → LogText rest rows →
      LogText (gap ++ (text ++ stop :: rest)) (⟨gap, text, [stop], fields⟩ :: rows)

/-- A row may also stand last in a log. -/
theorem RowText.final {text : List UInt8} {fields : List (List UInt8)}
    (htext : RowText FieldText text fields) : RowText FinalFieldText text fields := by
  induction htext with
  | last hclosed => exact .last (.closed hclosed)
  | more hfield _ ih => exact .more hfield ih

/-- The last field of a row that holds no quote is closed. -/
theorem RowText.of_final {text : List UInt8} {fields : List (List UInt8)}
    (htext : RowText FinalFieldText text fields) (hquote : quote ∉ text) :
    RowText FieldText text fields := by
  induction htext with
  | last hfinal =>
    cases hfinal with
    | closed hclosed => exact .last hclosed
    | unclosed => exact absurd List.mem_cons_self hquote
  | more hfield _ ih =>
    exact .more hfield
      (ih fun hmem => hquote (List.mem_append_right _ (List.mem_cons_of_mem _ hmem)))

/-! ## Every sequence of bytes is a log -/

theorem exists_inside (bytes : List UInt8) :
    ∃ text rest, bytes = text ++ rest ∧ Inside text ∧
      ∀ byte ∈ rest.head?, byte = comma ∨ endsRow byte = true := by
  induction bytes with
  | nil => exact ⟨[], [], rfl, by simp [Inside], by simp⟩
  | cons byte bytes ih =>
    by_cases hend : byte = comma ∨ endsRow byte = true
    · exact ⟨[], byte :: bytes, rfl, by simp [Inside], by simpa using hend⟩
    · obtain ⟨text, rest, rfl, htext, hrest⟩ := ih
      rw [not_or, Bool.not_eq_true] at hend
      refine ⟨byte :: text, rest, rfl, ?_, hrest⟩
      intro b hb
      rcases List.mem_cons.1 hb with rfl | hlater
      · exact hend
      · exact htext b hlater

/-- Behind an opening quote, the quotes are closed or stay open up to the end. -/
theorem exists_quotedText (bytes : List UInt8) :
    (∃ content, QuotedText bytes content) ∨
      ∃ text content rest, bytes = text ++ quote :: rest ∧ QuotedText text content ∧
        rest.head? ≠ some quote := by
  induction hlength : bytes.length using Nat.strong_induction_on generalizing bytes with
  | _ length ih =>
    subst hlength
    cases bytes with
    | nil => exact .inl ⟨[], .nil⟩
    | cons byte bytes =>
      by_cases hquote : byte = quote
      · subst hquote
        by_cases htwice : bytes.head? = some quote
        · obtain ⟨bytes, rfl⟩ := List.head?_eq_some_iff.1 htwice
          rcases ih bytes.length (by simp only [List.length_cons]; omega) bytes rfl with
            ⟨content, hopen⟩ | ⟨text, content, rest, rfl, hquoted, hrest⟩
          · exact .inl ⟨_, hopen.twice⟩
          · exact .inr ⟨_, _, rest, rfl, hquoted.twice, hrest⟩
        · exact .inr ⟨[], [], bytes, rfl, .nil, htwice⟩
      · rcases ih bytes.length (by simp) bytes rfl with
          ⟨content, hopen⟩ | ⟨text, content, rest, rfl, hquoted, hrest⟩
        · exact .inl ⟨_, hopen.byte hquote⟩
        · exact .inr ⟨_, _, rest, rfl, hquoted.byte hquote, hrest⟩

/-- Plain text goes up to the next separator or up to the end. -/
theorem exists_plainText {bytes : List UInt8} (hhead : bytes.head? ≠ some quote) :
    PlainText bytes ∨ ∃ text stop rest, bytes = text ++ stop :: rest ∧ PlainText text ∧
      (stop = comma ∨ endsRow stop = true) := by
  obtain ⟨text, rest, rfl, htext, hrest⟩ := exists_inside bytes
  have hplain : PlainText text := by
    refine ⟨htext, fun h => hhead ?_⟩
    rw [List.head?_append, h, Option.some_or]
  cases rest with
  | nil => exact .inl (by rwa [List.append_nil])
  | cons stop rest => exact .inr ⟨text, stop, rest, rfl, hplain, hrest stop (by simp)⟩

/-- A field ends at a comma, at a row end or with the log. -/
theorem exists_fieldText (bytes : List UInt8) :
    (∃ content, FinalFieldText bytes content) ∨
      ∃ text content stop rest, bytes = text ++ stop :: rest ∧ FieldText text content ∧
        (stop = comma ∨ endsRow stop = true) := by
  by_cases hquote : bytes.head? = some quote
  · obtain ⟨bytes, rfl⟩ := List.head?_eq_some_iff.1 hquote
    rcases exists_quotedText bytes with
      ⟨content, hopen⟩ | ⟨inner, content, tail, rfl, hquoted, htail⟩
    · exact .inl ⟨content, .unclosed hopen⟩
    · rcases exists_plainText htail with hall | ⟨text, stop, rest, rfl, htext, hstop⟩
      · exact .inl ⟨_, .closed (.quoted hquoted hall)⟩
      · refine .inr ⟨_, _, stop, rest, ?_, .quoted hquoted htext, hstop⟩
        simp
  · rcases exists_plainText hquote with hall | ⟨text, stop, rest, rfl, htext, hstop⟩
    · exact .inl ⟨_, .closed (.plain hall)⟩
    · exact .inr ⟨_, _, stop, rest, rfl, .plain htext, hstop⟩

theorem exists_rowText (bytes : List UInt8) :
    (∃ fields, RowText FinalFieldText bytes fields) ∨
      ∃ text fields stop rest, bytes = text ++ stop :: rest ∧ RowText FieldText text fields ∧
        endsRow stop = true := by
  induction hlength : bytes.length using Nat.strong_induction_on generalizing bytes with
  | _ length ih =>
    subst hlength
    rcases exists_fieldText bytes with
      ⟨content, hfinal⟩ | ⟨text, content, stop, rest, rfl, hfield, rfl | hstop⟩
    · exact .inl ⟨_, .last hfinal⟩
    · rcases ih rest.length (by simp; omega) rest rfl with
        ⟨fields, hfinal⟩ | ⟨later, fields, stop, rest, rfl, hlater, hstop⟩
      · exact .inl ⟨_, .more hfield hfinal⟩
      · refine .inr ⟨_, _, stop, rest, ?_, .more hfield hlater, hstop⟩
        simp
    · exact .inr ⟨text, _, stop, rest, rfl, .last hfield, hstop⟩

theorem exists_logText (bytes : List UInt8) : ∃ rows, LogText bytes rows := by
  induction hlength : bytes.length using Nat.strong_induction_on generalizing bytes with
  | _ length ih =>
    subst hlength
    have hgap : ∀ byte ∈ bytes.takeWhile endsRow, endsRow byte = true := fun byte =>
      List.mem_takeWhile_imp
    have hsplit := List.takeWhile_append_dropWhile (p := endsRow) (l := bytes)
    have hhead := List.head?_dropWhile_not endsRow bytes
    generalize bytes.takeWhile endsRow = gap at hgap hsplit
    generalize bytes.dropWhile endsRow = body at hsplit hhead
    subst hsplit
    cases body with
    | nil => exact ⟨[], by rw [List.append_nil]; exact .nil hgap⟩
    | cons byte body =>
      rcases exists_rowText (byte :: body) with
        ⟨fields, hrow⟩ | ⟨text, fields, stop, rest, hbody, hrow, hstop⟩
      · exact ⟨_, .last hgap (by simp) hrow⟩
      · have htext : text ≠ [] := by
          rintro rfl
          obtain rfl := (List.cons.inj hbody).1
          simp [hstop] at hhead
        obtain ⟨rows, hrest⟩ := ih rest.length (by rw [hbody]; simp; omega) rest rfl
        rw [hbody]
        exact ⟨_, .cons hgap htext hrow hstop hrest⟩

end TimingReport.TimingLog
