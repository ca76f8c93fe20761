import TimingReport.Proofs.Number.Decimal
import TimingReport.Proofs.Text.Utf8
import TimingReport.Proofs.TimingLog.Splitting
import TimingReport.TimingLog.Source

/-!
# What is read from a log

The rows of a log are judged one after the other, so a log is read exactly if each row
denotes a measurement, and the measurements are those of the rows in their order.
-/

namespace TimingReport.TimingLog

open TimingReport.Fallible
open TimingReport.Number
open TimingReport.Text

/-! ## Reading is judging the rows -/

/-- The measurement of a row, or what is wrong with it and where it stands. -/
def Row.judged (row : Row) : Except ReadFault Measurement :=
  row.measurement.mapError (ReadFault.badRow row.start)

theorem takeRow_eq (progress : Progress) (row : Row) :
    progress.takeRow row = row.judged.map fun measurement =>
      { progress with measurements := progress.measurements.push measurement } := by
  rw [Progress.takeRow, Row.judged]
  cases row.measurement <;> rfl

theorem finish_eq (progress : Progress) :
    progress.finish = (progress.splitter.finish.toList.mapM Row.judged).map
      (progress.measurements.toList ++ ·) := by
  rw [Progress.finish]
  cases progress.splitter.finish with
  | none =>
    rw [Option.toList_none, List.mapM_nil]
    exact congrArg _ (List.append_nil _).symm
  | some row =>
    simp only [Option.toList_some, mapM_cons, takeRow_eq]
    cases row.judged with
    | error fault => rfl
    | ok measurement => exact congrArg _ Array.toList_push

/-- Taking bytes and coming to the end judges all rows that the splitter gives. -/
theorem takeBytes_finish (progress : Progress) (bytes : List UInt8) :
    (progress.takeBytes bytes).bind Progress.finish =
      ((progress.splitter.rows bytes).mapM Row.judged).map
        (progress.measurements.toList ++ ·) := by
  induction bytes generalizing progress with
  | nil => exact finish_eq progress
  | cons byte bytes ih =>
    have htake : progress.takeBytes (byte :: bytes) =
        (progress.takeByte byte).bind (fun next => next.takeBytes bytes) := List.foldlM_cons
    rw [htake, Splitter.rows_cons, Progress.takeByte]
    obtain ⟨next, row?⟩ := progress.splitter.step byte
    cases row? with
    | none => exact ih ⟨next, progress.measurements⟩
    | some row =>
      simp only [takeRow_eq, Option.toList_some, List.singleton_append, mapM_cons]
      cases row.judged with
      | error fault => rfl
      | ok measurement =>
        have hrest := ih ⟨next, progress.measurements.push measurement⟩
        simp only [Except.map, Except.bind] at hrest ⊢
        rw [hrest]
        cases (next.rows bytes).mapM Row.judged with
        | error fault => rfl
        | ok later => simp

/-- A log without its byte order mark. -/
def withoutMark (bytes : List UInt8) : List UInt8 :=
  if byteOrderMark.isPrefixOf bytes then bytes.drop byteOrderMark.length else bytes

theorem withoutMark_eq_self {bytes : List UInt8} (hmark : ¬byteOrderMark <+: bytes) :
    withoutMark bytes = bytes :=
  if_neg fun h => hmark (List.isPrefixOf_iff_prefix.1 h)

theorem takeReads_single (progress : Progress) (bytes : List UInt8) :
    progress.takeReads none [bytes] = (progress.takeBytes bytes).bind Progress.finish := by
  cases bytes with
  | nil => rfl
  | cons byte bytes =>
    rw [Progress.takeReads]
    · cases progress.takeBytes (byte :: bytes) <;> rfl
    · simp

theorem readLog_ofBytes {bytes : List UInt8} {placed : List PlacedRow}
    (hlog : LogText (withoutMark bytes) placed) :
    ∃ byte, readLog (.ofBytes bytes) =
      (Splitter.placedRows byte 1 ⟨0, 1, 0⟩ placed).mapM Row.judged := by
  have hread : ∀ skipped body, LogText body placed →
      (Progress.initial skipped).takeReads none [body] =
        (Splitter.placedRows skipped 1 ⟨0, 1, 0⟩ placed).mapM Row.judged := by
    intro skipped body hbody
    rw [takeReads_single, takeBytes_finish, Progress.initial, Splitter.initial_eq,
      Splitter.rows_between hbody]
    cases (Splitter.placedRows skipped 1 ⟨0, 1, 0⟩ placed).mapM Row.judged <;> rfl
  rw [withoutMark] at hlog
  simp only [readLog, Source.ofBytes]
  split at hlog
  · next hmark => exact ⟨_, (if_pos hmark).trans (hread _ _ hlog)⟩
  · next hmark => exact ⟨_, (if_neg hmark).trans (hread _ _ hlog)⟩

/-! ## Rows and what they denote -/

/-- The index, the tag and the decimal number that the fields of a row denote. -/
inductive RowMeaning : List (List UInt8) → Int → String → Bool → ℚ → Prop where
  | intro {indexText tagText timeText : List Char} {index : Int} {negative : Bool}
      {magnitude : ℚ} :
      IntegerText (trimBlanks indexText) index → -2 ^ 63 ≤ index → index ≤ 2 ^ 63 - 1 →
      DecimalText (trimBlanks timeText) negative magnitude → magnitude < 2 ^ 1024 - 2 ^ 970 →
      RowMeaning [utf8 indexText, utf8 tagText, utf8 timeText] index
        (String.ofList (trimBlanks tagText)) negative magnitude

/-- The measurement that the fields of a row denote: its time is the double nearest to
their number. -/
def Denotes (fields : List (List UInt8)) (measurement : Measurement) : Prop :=
  ∃ negative magnitude,
    RowMeaning fields measurement.index measurement.tag negative magnitude ∧
      IsNearest (signed negative magnitude) measurement.time ∧
      isNegative measurement.time = negative

theorem inside_utf8 {chars : List Char} (hcomma : ',' ∉ chars) (hlineFeed : '\n' ∉ chars)
    (hcarriageReturn : '\r' ∉ chars) : Inside (utf8 chars) := by
  intro byte hbyte
  have hends : byte ≠ lineFeed ∧ byte ≠ carriageReturn :=
    ⟨ne_of_mem_utf8 (by decide) hlineFeed hbyte, ne_of_mem_utf8 (by decide) hcarriageReturn hbyte⟩
  exact ⟨ne_of_mem_utf8 (by decide) hcomma hbyte, by simp [endsRow, hends]⟩

theorem fieldTexts_ok_iff (place : Nat) (fields : List (List UInt8)) (texts : List String) :
    fieldTexts place fields = .ok texts ↔
      List.Forall₂ (fun field text => fieldText field = .ok text) fields texts := by
  induction fields generalizing place texts with
  | nil =>
    rw [fieldTexts, Except.ok.injEq, List.forall₂_nil_left_iff]
    exact eq_comm
  | cons field fields ih =>
    rw [fieldTexts, List.forall₂_cons_left_iff]
    cases hfield : fieldText field with
    | error length => simp
    | ok text =>
      simp only [map_ok_iff, ih]
      constructor
      · rintro ⟨later, hlater, rfl⟩
        exact ⟨text, later, rfl, hlater, rfl⟩
      · rintro ⟨_, later, htext, hlater, rfl⟩
        obtain rfl := Except.ok.inj htext
        exact ⟨later, hlater, rfl⟩

theorem measurementOfTexts_ok_iff (texts : List String) (measurement : Measurement) :
    measurementOfTexts texts = .ok measurement ↔
      ∃ index time, texts = [index, measurement.tag, time] ∧
        prefixedInteger64 index.toList = .ok measurement.index ∧
        float time.toList = .ok measurement.time ∧ isFinite measurement.time = true := by
  rw [measurementOfTexts.eq_def]
  split
  · next index tag time =>
    constructor
    · intro hread
      split at hread
      · cases hread
      · next value hindex =>
        split at hread
        · cases hread
        · next x htime =>
          split at hread
          · next hfinite =>
            obtain rfl := Except.ok.inj hread
            exact ⟨index, time, rfl, hindex, htime, hfinite⟩
          · cases hread
    · rintro ⟨_, _, htexts, hindex, htime, hfinite⟩
      obtain ⟨rfl, rfl, rfl, -⟩ : index = _ ∧ tag = _ ∧ time = _ ∧ True := by
        simpa using htexts
      simp only [hindex, htime, if_pos hfinite]
  · next hother =>
    refine iff_of_false (by simp) ?_
    rintro ⟨index, time, rfl, -⟩
    exact hother _ _ _ rfl

theorem measurement_ok_iff (row : Row) (measurement : Measurement) :
    row.measurement = .ok measurement ↔ Denotes row.fields measurement := by
  obtain ⟨start, fields⟩ := row
  obtain ⟨index, tag, time⟩ := measurement
  simp only [Row.measurement, bind_ok_iff, fieldTexts_ok_iff, measurementOfTexts_ok_iff]
  constructor
  · rintro ⟨_, hfields, indexText, timeText, rfl, hindex, htime⟩
    simp only [List.forall₂_cons_right_iff, List.forall₂_nil_right_iff, fieldText_ok_iff] at hfields
    obtain ⟨_, _, ⟨indexChars, rfl, rfl⟩, ⟨_, _, ⟨tagChars, rfl, rfl⟩, ⟨_, _, ⟨timeChars, rfl, rfl⟩,
      rfl, rfl⟩, rfl⟩, rfl⟩ := hfields
    rw [String.toList_ofList] at hindex htime
    obtain ⟨hinteger, hlow, hhigh⟩ := (prefixedInteger64_ok_iff _ _).1 hindex
    obtain ⟨negative, magnitude, hdecimal, hlimit, hnearest⟩ := (float_finite_iff _ _).1 htime
    exact ⟨negative, magnitude, .intro hinteger hlow hhigh hdecimal hlimit, hnearest⟩
  · rintro ⟨negative, magnitude, hmeaning, hnearest⟩
    cases hmeaning with
    | @intro indexChars tagChars timeChars _ _ _ hinteger hlow hhigh hdecimal hlimit =>
      refine ⟨[String.ofList (trimBlanks indexChars), String.ofList (trimBlanks tagChars),
        String.ofList (trimBlanks timeChars)], ?_, _, _, rfl, ?_, ?_⟩
      · simp only [List.forall₂_cons, fieldText_ok_iff]
        exact ⟨⟨indexChars, rfl, rfl⟩, ⟨tagChars, rfl, rfl⟩, ⟨timeChars, rfl, rfl⟩, .nil⟩
      · rw [String.toList_ofList]
        exact (prefixedInteger64_ok_iff _ _).2 ⟨hinteger, hlow, hhigh⟩
      · rw [String.toList_ofList]
        exact (float_finite_iff _ _).2 ⟨negative, magnitude, hdecimal, hlimit, hnearest⟩

theorem exists_denotes_of_isOk (row : Row) (hok : row.measurement.isOk = true) :
    ∃ measurement, Denotes row.fields measurement := by
  obtain ⟨measurement, hmeasurement⟩ := exists_of_isOk hok
  exact ⟨measurement, (measurement_ok_iff row measurement).1 hmeasurement⟩

theorem judged_ok_iff (row : Row) (measurement : Measurement) :
    row.judged = .ok measurement ↔ Denotes row.fields measurement := by
  rw [← measurement_ok_iff, Row.judged, mapError_ok_iff]

theorem Row.isFinite_time {row : Row} {measurement : Measurement}
    (hrow : row.judged = .ok measurement) : isFinite measurement.time = true := by
  rw [Row.judged, mapError_ok_iff, Row.measurement, bind_ok_iff] at hrow
  obtain ⟨texts, -, htexts⟩ := hrow
  obtain ⟨-, -, -, -, -, hfinite⟩ := (measurementOfTexts_ok_iff texts measurement).1 htexts
  exact hfinite

theorem exists_denotes_iff (fields : List (List UInt8)) :
    (∃ measurement, Denotes fields measurement) ↔
      ∃ index tag negative magnitude, RowMeaning fields index tag negative magnitude := by
  constructor
  · rintro ⟨measurement, negative, magnitude, hmeaning, -⟩
    exact ⟨_, _, negative, magnitude, hmeaning⟩
  · rintro ⟨index, tag, negative, magnitude, hmeaning⟩
    obtain ⟨time, hnearest⟩ : ∃ time, IsNearest (signed negative magnitude) time ∧
        isNegative time = negative := by
      cases hmeaning with
      | intro _ _ _ hdecimal hlimit => exact exists_isNearest hdecimal hlimit
    exact ⟨⟨index, tag, time⟩, negative, magnitude, hmeaning, hnearest⟩

theorem map_fields_placedRows (byte line : Nat) (start : Position) (placed : List PlacedRow) :
    (Splitter.placedRows byte line start placed).map Row.fields = placed.map PlacedRow.fields := by
  induction placed generalizing byte line start with
  | nil => rfl
  | cons row placed ih => exact congrArg (row.fields :: ·) (ih _ _ _)

/-- What rows are judged to be does not depend on where they stand. -/
theorem mapM_judged_placedRows_ok_iff (byte line : Nat) (start : Position) (placed : List PlacedRow)
    (measurements : List Measurement) :
    (Splitter.placedRows byte line start placed).mapM Row.judged = .ok measurements ↔
      List.Forall₂ (fun row measurement => Denotes row.fields measurement) placed measurements := by
  rw [mapM_ok_iff]
  simp only [judged_ok_iff]
  rw [← List.forall₂_map_left_iff (f := Row.fields), map_fields_placedRows,
    List.forall₂_map_left_iff]

/-- The measurements of a log are those that its rows denote. -/
theorem readLog_ok_iff {bytes : List UInt8} {placed : List PlacedRow}
    (hlog : LogText (withoutMark bytes) placed) (measurements : List Measurement) :
    readLog (.ofBytes bytes) = .ok measurements ↔
      List.Forall₂ (fun row measurement => Denotes row.fields measurement) placed measurements := by
  obtain ⟨byte, hread⟩ := readLog_ofBytes hlog
  rw [hread, mapM_judged_placedRows_ok_iff]

/-- All times of a log are finite. -/
theorem isFinite_time_of_readLog {bytes : List UInt8} {measurements : List Measurement}
    (hlog : readLog (.ofBytes bytes) = .ok measurements) :
    ∀ measurement ∈ measurements, isFinite measurement.time = true := by
  obtain ⟨placed, htext⟩ := exists_logText (withoutMark bytes)
  obtain ⟨byte, hread⟩ := readLog_ofBytes htext
  rw [hread] at hlog
  intro measurement hmeasurement
  obtain ⟨row, -, hjudged⟩ := exists_of_mem_mapM hlog hmeasurement
  exact Row.isFinite_time hjudged

/-- The language of timing logs and what a log means. -/
theorem readLog_language (bytes : List UInt8) :
    (∃ placed, LogText (withoutMark bytes) placed) ∧
      ∀ placed, LogText (withoutMark bytes) placed →
        ((∃ measurements, readLog (.ofBytes bytes) = .ok measurements) ↔
          ∀ row ∈ placed, ∃ index tag negative magnitude,
            RowMeaning row.fields index tag negative magnitude) ∧
        ∀ measurements, readLog (.ofBytes bytes) = .ok measurements ↔
          List.Forall₂ (fun row measurement => Denotes row.fields measurement) placed
            measurements := by
  refine ⟨exists_logText _, fun placed hlog => ⟨?_, readLog_ok_iff hlog⟩⟩
  simp only [readLog_ok_iff hlog, ← exists_denotes_iff]
  exact exists_forall₂_iff _ _

end TimingReport.TimingLog
