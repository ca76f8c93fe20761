import TimingReport.Proofs.TimingLog.Reading

/-!
# The line of a fault

A fault is reported for the place where the row in front of the faulty one has ended.
That is the line of the faulty row itself unless a line feed lies between them: the
second byte of a two-byte row end, or the row end of an empty line.
-/

namespace TimingReport.TimingLog

open TimingReport.Fallible

/-- The bytes of a log up to a row, and those of the row. -/
theorem LogText.split {bytes : List UInt8} {placed : List PlacedRow} (hlog : LogText bytes placed)
    {earlier later : List PlacedRow} {row : PlacedRow}
    (hplaced : placed = earlier ++ row :: later) :
    ∃ rest, bytes = earlier.flatMap PlacedRow.bytes ++ (row.gap ++ (row.text ++ rest)) ∧
      (∀ byte ∈ row.gap, endsRow byte = true) ∧ row.text ≠ [] := by
  induction hlog generalizing earlier with
  | nil => simp at hplaced
  | @last gap text fields hgap htext _ =>
    cases earlier with
    | nil =>
      obtain ⟨rfl, -⟩ := List.cons.inj hplaced
      exact ⟨[], by simp, hgap, htext⟩
    | cons => simp at hplaced
  | @cons gap text rest fields stop placed hgap htext _ _ _ ih =>
    cases earlier with
    | nil =>
      obtain ⟨rfl, -⟩ := List.cons.inj hplaced
      exact ⟨stop :: rest, by simp, hgap, htext⟩
    | cons first earlier =>
      obtain ⟨rfl, hrest⟩ := List.cons.inj hplaced
      obtain ⟨later, rfl, hfacts⟩ := ih hrest
      exact ⟨later, by simp [PlacedRow.bytes], hfacts⟩

/-- A row is placed on the line that the rows in front of it lead to. -/
theorem placedRows_split {byte line : Nat} {start : Position} (hline : start.line = line)
    {placed : List PlacedRow} {earlier later : List Row} {row : Row}
    (hrows : Splitter.placedRows byte line start placed = earlier ++ row :: later) :
    ∃ placedEarlier placedRow placedLater,
      placed = placedEarlier ++ placedRow :: placedLater ∧
      earlier.map Row.fields = placedEarlier.map PlacedRow.fields ∧
      row.fields = placedRow.fields ∧
      row.start.line = line + (placedEarlier.flatMap PlacedRow.bytes).count lineFeed := by
  induction placed generalizing byte line start earlier with
  | nil => simp [Splitter.placedRows] at hrows
  | cons first placed ih =>
    cases earlier with
    | nil =>
      obtain ⟨rfl, -⟩ := List.cons.inj hrows
      exact ⟨[], first, placed, rfl, rfl, rfl, by simpa using hline⟩
    | cons firstRow earlier =>
      obtain ⟨rfl, hrest⟩ := List.cons.inj hrows
      obtain ⟨placedEarlier, placedRow, placedLater, rfl, hearlier, hfields, hrow⟩ :=
        @ih _ (line + first.bytes.count lineFeed) ⟨_, _, _⟩ rfl _ hrest
      refine ⟨first :: placedEarlier, placedRow, placedLater, rfl, ?_, hfields, ?_⟩
      · simp [hearlier]
      · rw [hrow, List.flatMap_cons, List.count_append, Nat.add_assoc]

theorem exists_mark (bytes : List UInt8) :
    ∃ mark, bytes = mark ++ withoutMark bytes ∧ mark.count lineFeed = 0 := by
  rw [withoutMark]
  split
  · next hmark =>
    refine ⟨byteOrderMark, ?_, by decide⟩
    obtain ⟨rest, rfl⟩ := List.isPrefixOf_iff_prefix.1 hmark
    rw [List.drop_left]
  · exact ⟨[], rfl, rfl⟩

/-- A row is blamed on the line where the row in front of it has ended. -/
theorem Row.line?_of_judged_error {row : Row} {failure : ReadFault}
    (hjudged : row.judged = .error failure) : failure.line? = some row.start.line := by
  obtain ⟨fault, -, rfl⟩ := Fallible.mapError_error_iff.1 hjudged
  rfl

/-- A log that cannot be read has a first row that denotes no measurement, and the line of
the failure is one more than the line feeds in front of the row ends that precede that
row. It is the line of the row's first byte exactly if no line feed is among them. -/
theorem readLog_error_line (bytes : List UInt8) {failure : ReadFault}
    (hfailure : readLog (.ofBytes bytes) = .error failure) :
    ∀ placed, LogText (withoutMark bytes) placed →
      ∃ earlier row later before rest line,
        placed = earlier ++ row :: later ∧
        (∀ other ∈ earlier, ∃ measurement, Denotes other.fields measurement) ∧
        (¬∃ measurement, Denotes row.fields measurement) ∧
        bytes = before ++ (row.gap ++ (row.text ++ rest)) ∧
        (∀ byte ∈ row.gap, endsRow byte = true) ∧ row.text ≠ [] ∧
        failure.line? = some line ∧ line = 1 + before.count lineFeed ∧
        (line = 1 + (before ++ row.gap).count lineFeed ↔ lineFeed ∉ row.gap) := by
  intro placed hlog
  obtain ⟨byte, hread⟩ := readLog_ofBytes hlog
  rw [hread, mapM_error_iff] at hfailure
  obtain ⟨earlierRows, faulty, laterRows, hrows, hearlierRows, hfaulty⟩ := hfailure
  obtain ⟨earlier, row, later, hplaced, hearlier, hfields, hline⟩ :=
    @placedRows_split byte 1 ⟨0, 1, 0⟩ rfl _ _ _ _ hrows
  obtain ⟨rest, hbody, hgap, htext⟩ := hlog.split hplaced
  obtain ⟨mark, hbytes, hmark⟩ := exists_mark bytes
  have hdenotes : ∀ other ∈ earlier, ∃ measurement, Denotes other.fields measurement := by
    intro other hother
    have hmem := List.mem_map_of_mem (f := PlacedRow.fields) hother
    rw [← hearlier] at hmem
    obtain ⟨otherRow, hotherRow, hsame⟩ := List.mem_map.1 hmem
    obtain ⟨measurement, hjudged⟩ := hearlierRows otherRow hotherRow
    rw [judged_ok_iff, hsame] at hjudged
    exact ⟨measurement, hjudged⟩
  have hundenoted : ¬∃ measurement, Denotes row.fields measurement := by
    rintro ⟨measurement, hmeasurement⟩
    rw [← hfields, ← judged_ok_iff, hfaulty] at hmeasurement
    cases hmeasurement
  have hbefore : (mark ++ earlier.flatMap PlacedRow.bytes).count lineFeed =
      (earlier.flatMap PlacedRow.bytes).count lineFeed := by
    rw [List.count_append, hmark, Nat.zero_add]
  refine ⟨earlier, row, later, mark ++ earlier.flatMap PlacedRow.bytes, rest, _, hplaced, hdenotes,
    hundenoted, ?_, hgap, htext, Row.line?_of_judged_error hfaulty, ?_, ?_⟩
  · rw [List.append_assoc, ← hbody, ← hbytes]
  · rw [hline, hbefore]
  · rw [hline, List.count_append, hbefore, ← List.count_eq_zero]
    omega

/-- The rows `0,a,1` and `1,a`, both ended by a carriage return and a line feed: the second
one is on line 2, but its fault is reported for line 1. -/
theorem readLog_error_line_carriage_return :
    ∃ failure before gap rest,
      readLog (.ofBytes [48, 44, 97, 44, 49, 13, 10, 49, 44, 97, 13, 10]) = .error failure ∧
      failure.line? = some 1 ∧
      [48, 44, 97, 44, 49, 13, 10, 49, 44, 97, 13, 10] = before ++ (gap ++ ([49, 44, 97] ++ rest)) ∧
      1 + (before ++ gap).count lineFeed = 2 := by
  have hreported : (match readLog (.ofBytes [48, 44, 97, 44, 49, 13, 10, 49, 44, 97, 13, 10]) with
      | .ok _ => none
      | .error failure => failure.line?) = some 1 := by
    decide +kernel
  have hone : FieldText [49] [49] := fieldText_byte (by decide) rfl (by decide)
  have hletter : FieldText [97] [97] := fieldText_byte (by decide) rfl (by decide)
  have hsecond : LogText ([10] ++ ([49, 44, 97] ++ 13 :: [10]))
      [⟨[10], [49, 44, 97], [13], [[49], [97]]⟩] := by
    refine .cons (by simp [endsRow, lineFeed]) (by simp) ?_ rfl (.nil (by simp [endsRow, lineFeed]))
    exact .more hone (.last hletter)
  have hlog : LogText ([] ++ ([48, 44, 97, 44, 49] ++ 13 :: [10, 49, 44, 97, 13, 10]))
      [⟨[], [48, 44, 97, 44, 49], [13], [[48], [97], [49]]⟩,
        ⟨[10], [49, 44, 97], [13], [[49], [97]]⟩] := by
    refine .cons (by simp) (by simp) ?_ rfl hsecond
    exact .more (fieldText_byte (by decide) rfl (by decide)) (.more hletter (.last hone))
  have hfirst : ∃ measurement, Denotes [[48], [97], [49]] measurement :=
    exists_denotes_of_isOk ⟨⟨0, 1, 0⟩, [[48], [97], [49]]⟩ (by decide +kernel)
  cases hread : readLog (.ofBytes [48, 44, 97, 44, 49, 13, 10, 49, 44, 97, 13, 10]) with
  | ok measurements => simp [hread] at hreported
  | error failure =>
    rw [hread] at hreported
    obtain ⟨earlier, row, later, before, rest, line, hplaced, -, hfaulty, hbytes, -, -, hline,
      hcount, -⟩ := readLog_error_line _ hread _ hlog
    obtain ⟨rfl, rfl⟩ : earlier = [⟨[], [48, 44, 97, 44, 49], [13], [[48], [97], [49]]⟩] ∧
        row = ⟨[10], [49, 44, 97], [13], [[49], [97]]⟩ := by
      rcases earlier with _ | ⟨first, _ | ⟨second, earlier⟩⟩
      · obtain ⟨rfl, -⟩ := List.cons.inj hplaced
        exact absurd hfirst hfaulty
      · obtain ⟨rfl, hrest⟩ := List.cons.inj hplaced
        exact ⟨rfl, (List.cons.inj hrest).1.symm⟩
      · simp at hplaced
    have hbefore : before.count lineFeed = 0 := by
      obtain rfl := Option.some.inj (hreported.symm.trans hline)
      omega
    refine ⟨failure, before, [10], rest, rfl, hreported, hbytes, ?_⟩
    rw [List.count_append, hbefore]
    rfl

end TimingReport.TimingLog
