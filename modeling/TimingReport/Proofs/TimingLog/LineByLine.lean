import TimingReport.Proofs.Table.Rearranged
import TimingReport.Proofs.TimingLog.Arrival

/-!
# Logs that are read line by line

Where no quote and no carriage return is in the way, a line feed ends a row whatever stands in
front of it.  Such a log has the measurements of its lines in their order, and empty lines have
none; so rearranging its lines rearranges its measurements.
-/

namespace TimingReport.TimingLog

open TimingReport.Fallible
open TimingReport.TimingTable (belongsTo)

/-- A line that is a row of its own wherever it stands. -/
structure PlainLine (line : List UInt8) : Prop where
  no_quote : quote ∉ line
  no_rowEnd : ∀ byte ∈ line, endsRow byte = false
  no_mark : ¬byteOrderMark <+: line

/-- The lines, each with its line feed. -/
def joinLines (lines : List (List UInt8)) : List UInt8 :=
  lines.flatMap fun line => line ++ [lineFeed]

/-- The measurement that a line is read as. -/
def lineMeasurement? (line : List UInt8) : Option Measurement :=
  match readLog (.ofBytes line) with
  | .ok [measurement] => some measurement
  | _ => none

/-- The index and the tag of a line. -/
def lineKey? (line : List UInt8) : Option (Int × String) :=
  (lineMeasurement? line).map fun measurement => (measurement.index, measurement.tag)

/-- The same lines, those with the same index and tag in the same order. -/
structure RearrangedLines (lines other : List (List UInt8)) : Prop where
  perm : lines.Perm other
  same_order : ∀ key, other.filter (fun line => lineKey? line = some key) =
    lines.filter fun line => lineKey? line = some key

/-! ## Single lines -/

theorem lineMeasurement?_eq_some_iff (line : List UInt8) (measurement : Measurement) :
    lineMeasurement? line = some measurement ↔ readLog (.ofBytes line) = .ok [measurement] := by
  rw [lineMeasurement?]
  split
  · next found hread => simp [hread]
  · next hother =>
    refine iff_of_false (by simp) fun hread => ?_
    exact hother measurement hread

theorem lineMeasurement?_nil : lineMeasurement? [] = none := rfl

namespace PlainLine

variable {line : List UInt8}

theorem exists_rowText (hline : PlainLine line) : ∃ fields, RowText FieldText line fields := by
  rcases TimingLog.exists_rowText line with
    ⟨fields, hfinal⟩ | ⟨text, fields, stop, rest, rfl, -, hstop⟩
  · exact ⟨fields, hfinal.of_final hline.no_quote⟩
  · have hnot := hline.no_rowEnd stop (by simp)
    rw [hstop] at hnot
    cases hnot

theorem withoutMark_eq (hline : PlainLine line) : withoutMark line = line :=
  withoutMark_eq_self hline.no_mark

/-- A line is read as what its fields denote. -/
theorem lineMeasurement?_iff (hline : PlainLine line) (hnonempty : line ≠ [])
    {fields : List (List UInt8)} (hrow : RowText FieldText line fields)
    (measurement : Measurement) :
    lineMeasurement? line = some measurement ↔ Denotes fields measurement := by
  have hlog : LogText ([] ++ line) [⟨[], line, [], fields⟩] := .last (by simp) hnonempty hrow.final
  rw [List.nil_append, ← hline.withoutMark_eq] at hlog
  rw [lineMeasurement?_eq_some_iff, readLog_ok_iff hlog]
  simp

end PlainLine

/-! ## All lines -/

/-- Every line that is not empty is a row; the line feeds of the others belong to the gaps. -/
theorem exists_logText_joinLines {lines : List (List UInt8)}
    (hlines : ∀ line ∈ lines, PlainLine line)
    {gap : List UInt8} (hgap : ∀ byte ∈ gap, endsRow byte = true) :
    ∃ placed, LogText (gap ++ joinLines lines) placed ∧
      List.Forall₂ (fun line row => ∀ measurement,
        lineMeasurement? line = some measurement ↔ Denotes row.fields measurement)
        (lines.filter (· ≠ [])) placed := by
  induction lines generalizing gap with
  | nil => exact ⟨[], by simpa [joinLines] using LogText.nil hgap, .nil⟩
  | cons line lines ih =>
    obtain ⟨hline, hrest⟩ := List.forall_mem_cons.1 hlines
    rw [joinLines, List.flatMap_cons, ← joinLines]
    by_cases hempty : line = []
    · have hlonger : ∀ byte ∈ gap ++ [lineFeed], endsRow byte = true := by
        simpa [or_imp, forall_and] using ⟨hgap, rfl⟩
      obtain ⟨placed, hlog, hall⟩ := ih hrest hlonger
      refine ⟨placed, ?_, by simpa [hempty] using hall⟩
      simpa [hempty] using hlog
    · obtain ⟨fields, hrow⟩ := hline.exists_rowText
      have hnoGap : ∀ byte ∈ ([] : List UInt8), endsRow byte = true := by simp
      have hstop : endsRow lineFeed = true := rfl
      obtain ⟨placed, hlog, hall⟩ := ih hrest hnoGap
      refine ⟨⟨gap, line, [lineFeed], fields⟩ :: placed, ?_, ?_⟩
      · have hcons := LogText.cons hgap hempty hrow hstop hlog
        simpa using hcons
      · rw [List.filter_cons_of_pos (by simpa using hempty)]
        exact .cons (hline.lineMeasurement?_iff hempty hrow) hall

theorem withoutMark_joinLines {lines : List (List UInt8)}
    (hlines : ∀ line ∈ lines, PlainLine line) :
    withoutMark (joinLines lines) = joinLines lines := by
  cases lines with
  | nil => rfl
  | cons line lines =>
    refine if_neg fun hprefix => ?_
    rw [List.isPrefixOf_iff_prefix, joinLines, List.flatMap_cons,
      mark_prefix_append_iff ⟨lineFeed, by simp, rfl⟩, mark_prefix_concat_iff line rfl] at hprefix
    exact (hlines line List.mem_cons_self).no_mark hprefix

/-- A log is read line by line: it has the measurements of its lines. -/
theorem readLog_joinLines_iff {lines : List (List UInt8)} (hlines : ∀ line ∈ lines, PlainLine line)
    (measurements : List Measurement) :
    readLog (.ofBytes (joinLines lines)) = .ok measurements ↔
      List.Forall₂ (fun line measurement => lineMeasurement? line = some measurement)
        (lines.filter (· ≠ [])) measurements := by
  have hnoGap : ∀ byte ∈ ([] : List UInt8), endsRow byte = true := by simp
  obtain ⟨placed, hlog, hall⟩ := exists_logText_joinLines hlines hnoGap
  rw [List.nil_append, ← withoutMark_joinLines hlines] at hlog
  rw [readLog_ok_iff hlog]
  exact (forall₂_congr_of_related (fun _ _ hrow => hrow) hall measurements).symm

/-- The measurements of a log in the order of its lines. -/
theorem eq_filterMap_of_readLog {lines : List (List UInt8)}
    (hlines : ∀ line ∈ lines, PlainLine line)
    {measurements : List Measurement}
    (hread : readLog (.ofBytes (joinLines lines)) = .ok measurements) :
    measurements = lines.filterMap lineMeasurement? := by
  have hall := (readLog_joinLines_iff hlines measurements).1 hread
  have hskip : lines.filterMap lineMeasurement? =
      (lines.filter (· ≠ [])).filterMap lineMeasurement? := by
    rw [List.filterMap_filter]
    refine List.filterMap_congr fun line _ => ?_
    by_cases hempty : line = []
    · rw [hempty, lineMeasurement?_nil]
      rfl
    · simp [hempty]
  rw [hskip]
  generalize lines.filter (· ≠ []) = rows at hall
  clear hread
  induction hall with
  | nil => rfl
  | cons hline _ ih => rw [List.filterMap_cons_some hline, ← ih]

/-- The measurements of a cell are those of the lines with its index and tag. -/
theorem filter_belongsTo_filterMap (lines : List (List UInt8)) (index : Int) (tag : String) :
    (lines.filterMap lineMeasurement?).filter (belongsTo index tag) =
      (lines.filter fun line => lineKey? line = some (index, tag)).filterMap lineMeasurement? := by
  rw [List.filter_filterMap, List.filterMap_filter]
  refine List.filterMap_congr fun line _ => ?_
  rw [lineKey?]
  cases lineMeasurement? line with
  | none => rfl
  | some measurement => simp [Option.filter_some, belongsTo]

/-- Rearranged lines are read as well, as rearranged measurements. -/
theorem RearrangedLines.exists_readLog {lines other : List (List UInt8)}
    (hother : RearrangedLines lines other) (hlines : ∀ line ∈ lines, PlainLine line)
    {measurements : List Measurement}
    (hread : readLog (.ofBytes (joinLines lines)) = .ok measurements) :
    ∃ otherMeasurements, readLog (.ofBytes (joinLines other)) = .ok otherMeasurements ∧
      TimingTable.Rearranged measurements otherMeasurements := by
  have hotherLines : ∀ line ∈ other, PlainLine line := fun line hline =>
    hlines line (hother.perm.mem_iff.2 hline)
  have hrows : ∀ line ∈ lines.filter (· ≠ []), ∃ measurement,
      lineMeasurement? line = some measurement :=
    (exists_forall₂_iff _ _).1 ⟨measurements, (readLog_joinLines_iff hlines _).1 hread⟩
  obtain ⟨otherMeasurements, hotherRead⟩ : ∃ otherMeasurements,
      readLog (.ofBytes (joinLines other)) = .ok otherMeasurements := by
    simp only [readLog_joinLines_iff hotherLines]
    rw [exists_forall₂_iff]
    exact fun line hline => hrows line ((hother.perm.filter _).mem_iff.2 hline)
  refine ⟨otherMeasurements, hotherRead, ?_, fun index tag => ?_⟩
  · rw [eq_filterMap_of_readLog hlines hread, eq_filterMap_of_readLog hotherLines hotherRead]
    exact hother.perm.filterMap _
  · rw [eq_filterMap_of_readLog hlines hread, eq_filterMap_of_readLog hotherLines hotherRead,
      filter_belongsTo_filterMap, filter_belongsTo_filterMap, hother.same_order]

end TimingReport.TimingLog
