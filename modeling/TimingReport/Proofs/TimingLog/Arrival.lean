import TimingReport.Proofs.TimingLog.Faults
import TimingReport.Proofs.TimingLog.Lines

/-!
# Logs that arrive in pieces

A source may hand out its log in reads of any size and may fail behind them.  The rows that
are ended in what it has handed out are judged before anything else, so a faulty one among
them decides, whatever follows.  If they all denote measurements, the failure of the source is
reported; the row that is open then is not judged.

A byte order mark is skipped in the first read alone, and a read that holds nothing but the
mark counts as empty, so the reads have to bring a byte that is no part of the mark with it.
-/

namespace TimingReport.TimingLog

open TimingReport.Fallible

/-- The reads bring the bytes, each of them some, and a byte order mark together with a byte
behind it. -/
structure Source.Brings (source : Source) (bytes : List UInt8) : Prop where
  flatten_reads : source.reads.flatten = bytes
  nonempty : [] ∉ source.reads
  mark : byteOrderMark <+: bytes →
    ∃ byte first rest, source.reads = (byteOrderMark ++ byte :: first) :: rest

/-! ## Reads -/

/-- Taking bytes judges the rows that they end. -/
theorem takeBytes_eq (progress : Progress) (bytes : List UInt8) :
    progress.takeBytes bytes =
      ((progress.splitter.take bytes).2.mapM Row.judged).map fun measurements =>
        ⟨(progress.splitter.take bytes).1, progress.measurements ++ measurements.toArray⟩ := by
  induction bytes generalizing progress with
  | nil => exact congrArg Except.ok (by simp [Splitter.take])
  | cons byte bytes ih =>
    have htake : progress.takeBytes (byte :: bytes) =
        (progress.takeByte byte).bind (fun next => next.takeBytes bytes) := List.foldlM_cons
    rw [htake, Splitter.take, Progress.takeByte]
    obtain ⟨next, row?⟩ := progress.splitter.step byte
    cases row? with
    | none => exact ih ⟨next, progress.measurements⟩
    | some row =>
      simp only [takeRow_eq, Option.toList_some, List.singleton_append, mapM_cons]
      cases row.judged with
      | error fault => rfl
      | ok measurement =>
        simp only [Except.map, Except.bind, ih ⟨next, progress.measurements.push measurement⟩]
        cases (next.take bytes).2.mapM Row.judged with
        | error fault => rfl
        | ok later => simp

/-- Reads that are not empty are taken like one. -/
theorem takeReads_eq (progress : Progress) (failure : Option String) {reads : List (List UInt8)}
    (hnonempty : [] ∉ reads) :
    progress.takeReads failure reads =
      (progress.takeBytes reads.flatten).bind (fun final => final.takeReads failure []) := by
  induction reads generalizing progress with
  | nil => rfl
  | cons bytes reads ih =>
    rw [List.mem_cons, not_or] at hnonempty
    rw [Progress.takeReads, List.flatten_cons, Progress.takeBytes_append]
    · cases progress.takeBytes bytes with
      | error fault => rfl
      | ok next => exact ih next hnonempty.2
    · exact fun h => hnonempty.1 h.symm

/-- The reading of a log up to what it has brought; a byte order mark counts as bytes taken. -/
def arrived (bytes : List UInt8) : Except ReadFault Progress :=
  (Progress.initial (if byteOrderMark.isPrefixOf bytes then byteOrderMark.length else 0)).takeBytes
    (withoutMark bytes)

theorem readLog_ofBytes_eq (bytes : List UInt8) :
    readLog (.ofBytes bytes) = (arrived bytes).bind Progress.finish := by
  rw [arrived, withoutMark, ← takeReads_single]
  simp only [readLog, Source.ofBytes]
  split <;> rfl

theorem Source.Brings.readLog_eq {source : Source} {bytes : List UInt8}
    (hbrings : source.Brings bytes) :
    readLog source = (arrived bytes).bind (fun final => final.takeReads source.failure []) := by
  obtain ⟨reads, failure⟩ := source
  obtain ⟨rfl, hnonempty, hmark⟩ := hbrings
  simp only at hnonempty hmark ⊢
  rw [arrived, withoutMark]
  by_cases hprefix : byteOrderMark <+: reads.flatten
  · obtain ⟨byte, first, rest, rfl⟩ := hmark hprefix
    have hfirst : byteOrderMark <+: byteOrderMark ++ byte :: first := List.prefix_append _ _
    have hrest : [] ∉ (byte :: first) :: rest := by
      simpa using fun h => hnonempty (List.mem_cons_of_mem _ h)
    have htake := takeReads_eq (.initial byteOrderMark.length) failure hrest
    simp only [readLog, if_pos (List.isPrefixOf_iff_prefix.2 hprefix),
      if_pos (List.isPrefixOf_iff_prefix.2 hfirst), List.drop_left, htake]
    rw [List.flatten_cons, List.flatten_cons, List.append_assoc, List.drop_left]
  · have hbytes : ¬byteOrderMark.isPrefixOf reads.flatten = true := by
      rwa [List.isPrefixOf_iff_prefix]
    cases reads with
    | nil => rfl
    | cons first rest =>
      have hfirst : ¬byteOrderMark.isPrefixOf first = true := by
        rw [List.isPrefixOf_iff_prefix]
        exact fun h => hprefix (h.trans (List.prefix_append _ _))
      simp only [readLog, if_neg hbytes, if_neg hfirst, takeReads_eq _ _ hnonempty]

/-! ## Rows that are ended -/

/-- The rows that have been ended are those with a row end behind them. -/
theorem take_between {bytes : List UInt8} {placed : List PlacedRow} (hlog : LogText bytes placed)
    (byte line : Nat) (start : Position) :
    ((Splitter.between byte line start).take bytes).2 =
      Splitter.placedRows byte line start (placed.filter fun row => row.stop ≠ []) := by
  induction hlog generalizing byte line start with
  | @nil gap hgap =>
    have hreaches : (Splitter.between byte line start).Reaches gap .between [] [] :=
      Splitter.reaches_gap rfl hgap
    rw [hreaches]
    rfl
  | @last gap text fields hgap htext hrow =>
    obtain ⟨mode, field, earlier, -, -, hreaches, -⟩ :=
      Splitter.reaches_gap_rowText Splitter.StartsField.extends_finalFieldText byte line start hgap
        htext hrow
    rw [hreaches]
    rfl
  | @cons gap text rest fields stop placed hgap htext hrow hstop _ ih =>
    obtain ⟨mode, field, earlier, hquoted, hmode, hreaches, rfl⟩ :=
      Splitter.reaches_gap_rowText Splitter.StartsField.extends_fieldText byte line start hgap htext
        hrow
    have hend := @Splitter.take_endRow
      ((Splitter.between byte line start).moved (gap ++ text) mode field earlier) stop
      (Splitter.effect_endsRow hquoted hmode hstop)
    rw [Splitter.next_moved] at hend
    have hbytes : gap ++ (text ++ stop :: rest) = (gap ++ text ++ [stop]) ++ rest := by simp
    rw [hbytes, Splitter.take_append, Splitter.take_append, hreaches, hend]
    simp only [List.nil_append, Splitter.next, ih]
    rw [List.filter_cons_of_pos (by simp), Splitter.placedRows, PlacedRow.bytes, List.append_assoc]
    rfl

/-- The place of a row tells how many rows stand in front of it. -/
theorem row_start_placedRows {byte line : Nat} {start : Position} {placed : List PlacedRow}
    {earlier later : List Row} {row : Row}
    (hrows : Splitter.placedRows byte line start placed = earlier ++ row :: later) :
    row.start.row = start.row + earlier.length := by
  induction placed generalizing byte line start earlier with
  | nil => simp [Splitter.placedRows] at hrows
  | cons first placed ih =>
    cases earlier with
    | nil =>
      obtain ⟨rfl, -⟩ := List.cons.inj hrows
      rfl
    | cons firstRow earlier =>
      obtain ⟨-, hrest⟩ := List.cons.inj hrows
      rw [ih hrest, List.length_cons]
      exact Nat.add_right_comm _ _ _

/-- What has arrived is refused exactly if an ended row denotes nothing. -/
theorem exists_arrived_iff {bytes : List UInt8} {placed : List PlacedRow}
    (hlog : LogText (withoutMark bytes) placed) :
    (∃ progress, arrived bytes = .ok progress) ↔
      ∀ row ∈ placed, row.stop ≠ [] → ∃ measurement, Denotes row.fields measurement := by
  rw [arrived, takeBytes_eq, Progress.initial, Splitter.initial_eq, take_between hlog]
  simp only [map_ok_iff, exists_comm, exists_and_left, exists_eq', and_true, mapM_ok_iff,
    judged_ok_iff]
  rw [exists_forall₂_iff (fun row : Row => Denotes row.fields)]
  have hfields := map_fields_placedRows
    (if byteOrderMark.isPrefixOf bytes then byteOrderMark.length else 0) 1 ⟨0, 1, 0⟩
    (placed.filter fun row => row.stop ≠ [])
  rw [← List.forall_mem_map (P := fun fields => ∃ measurement, Denotes fields measurement), hfields]
  simp only [List.forall_mem_map, List.mem_filter, decide_eq_true_eq, and_imp]

/-! ## What follows -/

theorem LogText.exists_rowEnd {bytes : List UInt8} {placed : List PlacedRow}
    (hlog : LogText bytes placed) {row : PlacedRow} (hrow : row ∈ placed) (hstop : row.stop ≠ []) :
    ∃ byte ∈ bytes, endsRow byte = true := by
  induction hlog with
  | nil => cases hrow
  | last => exact absurd (by rw [List.mem_singleton.1 hrow]) hstop
  | @cons gap text rest fields stop placed _ _ _ hend _ _ => exact ⟨stop, by simp, hend⟩

theorem not_mem_mark_of_endsRow {byte : UInt8} (hbyte : endsRow byte = true) :
    byte ∉ byteOrderMark := by
  intro hmem
  exact absurd hbyte ((by decide +kernel : ∀ byte ∈ byteOrderMark, ¬endsRow byte = true) byte hmem)

/-- A mark is not completed by what begins with none of its bytes. -/
theorem mark_prefix_of_append {front back : List UInt8}
    (hback : ∀ byte ∈ back.head?, byte ∉ byteOrderMark) (hmark : byteOrderMark <+: front ++ back) :
    byteOrderMark <+: front := by
  rcases List.prefix_or_prefix_of_prefix hmark (List.prefix_append front back) with
    h | ⟨rest, hrest⟩
  · exact h
  · rw [← hrest, List.prefix_append_right_inj] at hmark
    obtain ⟨more, rfl⟩ := hmark
    cases rest with
    | nil =>
      rw [List.append_nil] at hrest
      exact hrest ▸ List.prefix_rfl
    | cons byte rest =>
      have hmem : byte ∈ byteOrderMark := by simp [← hrest]
      exact absurd hmem (hback byte (by simp))

theorem not_mark_prefix_of_head {bytes : List UInt8}
    (hbytes : ∀ byte ∈ bytes.head?, byte ∉ byteOrderMark) :
    ¬byteOrderMark <+: bytes := fun hmark =>
  absurd (@mark_prefix_of_append [] bytes hbytes hmark) (by decide)

/-- Behind a row end, no more bytes can complete a byte order mark. -/
theorem mark_prefix_append_iff {bytes : List UInt8} (hend : ∃ byte ∈ bytes, endsRow byte = true)
    (more : List UInt8) : byteOrderMark <+: bytes ++ more ↔ byteOrderMark <+: bytes := by
  constructor
  · intro hmark
    rcases List.prefix_or_prefix_of_prefix hmark (List.prefix_append bytes more) with h | h
    · exact h
    · obtain ⟨byte, hbyte, hend⟩ := hend
      exact absurd (h.subset hbyte) (not_mem_mark_of_endsRow hend)
  · exact fun h => h.trans (List.prefix_append bytes more)

/-- A row end completes no byte order mark itself. -/
theorem mark_prefix_concat_iff (bytes : List UInt8) {stop : UInt8} (hstop : endsRow stop = true) :
    byteOrderMark <+: bytes ++ [stop] ↔ byteOrderMark <+: bytes :=
  ⟨mark_prefix_of_append (by simpa using not_mem_mark_of_endsRow hstop),
    fun h => h.trans (List.prefix_append _ _)⟩

theorem arrived_append {bytes : List UInt8} (hend : ∃ byte ∈ bytes, endsRow byte = true)
    (more : List UInt8) :
    arrived (bytes ++ more) = (arrived bytes).bind (fun next => next.takeBytes more) := by
  have hmark := mark_prefix_append_iff hend more
  simp only [← List.isPrefixOf_iff_prefix] at hmark
  simp only [arrived, withoutMark, hmark]
  split
  · next hbytes =>
    obtain ⟨rest, rfl⟩ := List.isPrefixOf_iff_prefix.1 hbytes
    rw [List.append_assoc, List.drop_left, List.drop_left, Progress.takeBytes_append]
  · exact Progress.takeBytes_append _ _ _

/-- The row that a log is refused for is the first one that denotes nothing, and the reason is
the first fault of its fields. -/
theorem first_fault_of_readLog {bytes : List UInt8} {placed : List PlacedRow}
    (hlog : LogText (withoutMark bytes) placed) {failure : ReadFault}
    (hfailure : readLog (.ofBytes bytes) = .error failure) :
    ∃ earlier row later start fault, placed = earlier ++ row :: later ∧
      (∀ other ∈ earlier, ∃ measurement, Denotes other.fields measurement) ∧
      HasFault row.fields fault ∧ failure = .badRow start fault ∧ start.row = earlier.length := by
  obtain ⟨byte, hread⟩ := readLog_ofBytes hlog
  rw [hread, mapM_error_iff] at hfailure
  obtain ⟨earlierRows, faulty, laterRows, hrows, hearlierRows, hfaulty⟩ := hfailure
  obtain ⟨earlier, row, later, hplaced, hearlier, hfields, -⟩ :=
    @placedRows_split byte 1 ⟨0, 1, 0⟩ rfl _ _ _ _ hrows
  obtain ⟨fault, hfault, rfl⟩ := (judged_error_iff _ _).1 hfaulty
  have hlength : earlierRows.length = earlier.length := by
    simpa using congrArg List.length hearlier
  refine ⟨earlier, row, later, faulty.start, fault, hplaced, ?_, hfields ▸ hfault, rfl, ?_⟩
  · rw [← List.forall_mem_map (P := fun fields => ∃ measurement, Denotes fields measurement),
      ← hearlier, List.forall_mem_map]
    simpa only [judged_ok_iff] using hearlierRows
  · rw [row_start_placedRows hrows, hlength, Nat.zero_add]

/-- The first faulty row that is ended decides, whatever follows it and however it arrives; where
every ended row denotes a measurement, the failure of a source is told, with no line. -/
theorem readLog_first_fault (bytes : List UInt8) :
    (∃ placed, LogText (withoutMark bytes) placed) ∧
      ∀ placed, LogText (withoutMark bytes) placed →
        (∀ failure, readLog (.ofBytes bytes) = .error failure →
          ∃ earlier row later start fault, placed = earlier ++ row :: later ∧
            (∀ other ∈ earlier, ∃ measurement, Denotes other.fields measurement) ∧
            HasFault row.fields fault ∧ failure = .badRow start fault ∧
            start.row = earlier.length ∧
            (row.stop ≠ [] → ∀ more, readLog (.ofBytes (bytes ++ more)) = .error failure ∧
              ∀ source : Source, source.Brings (bytes ++ more) → readLog source = .error failure)) ∧
        ((∀ row ∈ placed, row.stop ≠ [] → ∃ measurement, Denotes row.fields measurement) →
          ∀ (source : Source) (reason : String), source.Brings bytes →
            source.failure = some reason →
            ∃ failure, readLog source = .error failure ∧ failure.line? = none ∧
              failure.reason = reason) := by
  refine ⟨exists_logText _, fun placed hlog => ⟨fun failure hfailure => ?_, ?_⟩⟩
  · obtain ⟨earlier, row, later, start, fault, hplaced, hearlier, hfault, hbad, hstart⟩ :=
      first_fault_of_readLog hlog hfailure
    refine ⟨earlier, row, later, start, fault, hplaced, hearlier, hfault, hbad, hstart, ?_⟩
    intro hstop more
    have hrow : row ∈ placed := by simp [hplaced]
    obtain ⟨decisive, hdecisive⟩ : ∃ decisive, arrived bytes = .error decisive := by
      cases harrived : arrived bytes with
      | error decisive => exact ⟨decisive, rfl⟩
      | ok progress =>
        exact absurd ((exists_arrived_iff hlog).1 ⟨progress, harrived⟩ row hrow hstop)
          (not_denotes_of_hasFault hfault)
    rw [readLog_ofBytes_eq, hdecisive] at hfailure
    obtain rfl := Except.error.inj hfailure
    obtain ⟨mark, hbytes, -⟩ := exists_mark bytes
    obtain ⟨byte, hbyte, hend⟩ := hlog.exists_rowEnd hrow hstop
    have hmem : byte ∈ bytes := by
      rw [hbytes]
      exact List.mem_append_right mark hbyte
    have happend := arrived_append ⟨byte, hmem, hend⟩ more
    rw [hdecisive] at happend
    refine ⟨?_, fun source hbrings => ?_⟩
    · rw [readLog_ofBytes_eq, happend]
      rfl
    · rw [hbrings.readLog_eq, happend]
      rfl
  · intro hdenote source reason hbrings hreason
    obtain ⟨progress, hprogress⟩ := (exists_arrived_iff hlog).2 hdenote
    refine ⟨.unreadable reason, ?_, rfl, rfl⟩
    rw [hbrings.readLog_eq, hprogress, hreason]
    rfl

/-- The rows `0,a,1` and `1,a` and an open row `2`: the second row decides, also if the source
fails within the third one; within the second one, the failure is told. -/
theorem readLog_first_fault_second_row :
    (∃ failure, readLog (.ofBytes [48, 44, 97, 44, 49, 10, 49, 44, 97, 10, 50]) = .error failure ∧
      readLog ⟨[[48, 44, 97, 44], [49, 10, 49, 44, 97, 10, 50]], some "device gone"⟩ =
        .error failure) ∧
    ∃ failure, readLog ⟨[[48, 44, 97, 44], [49, 10, 49, 44, 97]], some "device gone"⟩ =
        .error failure ∧ failure.line? = none ∧ failure.reason = "device gone" := by
  have hone : FieldText [49] [49] := fieldText_byte (by decide) rfl (by decide)
  have hletter : FieldText [97] [97] := fieldText_byte (by decide) rfl (by decide)
  have hfirst : RowText FieldText [48, 44, 97, 44, 49] [[48], [97], [49]] :=
    .more (fieldText_byte (by decide) rfl (by decide)) (.more hletter (.last hone))
  have hdenotes : ∃ measurement, Denotes [[48], [97], [49]] measurement :=
    exists_denotes_of_isOk ⟨⟨0, 1, 0⟩, [[48], [97], [49]]⟩ (by decide +kernel)
  constructor
  · have hrow : RowText FieldText [49, 44, 97] [[49], [97]] := .more hone (.last hletter)
    have hopen : LogText ([] ++ [50]) [⟨[], [50], [], [[50]]⟩] :=
      .last (by simp) (by simp) (.last (.closed (fieldText_byte (by decide) rfl (by decide))))
    have hlog : LogText ([] ++ ([48, 44, 97, 44, 49] ++ 10 :: ([] ++ ([49, 44, 97] ++ 10 :: [50]))))
        [⟨[], [48, 44, 97, 44, 49], [10], [[48], [97], [49]]⟩,
          ⟨[], [49, 44, 97], [10], [[49], [97]]⟩, ⟨[], [50], [], [[50]]⟩] :=
      .cons (by simp) (by simp) hfirst rfl (.cons (by simp) (by simp) hrow rfl hopen)
    obtain ⟨failure, hread⟩ := exists_of_not_isOk (show
      (readLog (.ofBytes [48, 44, 97, 44, 49, 10, 49, 44, 97, 10, 50])).isOk = false by
        decide +kernel)
    obtain ⟨earlier, row, later, start, fault, hplaced, hearlier, hfault, -, -, hdecides⟩ :=
      ((readLog_first_fault [48, 44, 97, 44, 49, 10, 49, 44, 97, 10, 50]).2 _ hlog).1 failure hread
    have hstop : row.stop ≠ [] := by
      rcases earlier with _ | ⟨first, _ | ⟨second, earlier⟩⟩
      · obtain ⟨rfl, -⟩ := List.cons.inj hplaced
        exact absurd hdenotes (not_denotes_of_hasFault hfault)
      · obtain ⟨-, hrest⟩ := List.cons.inj hplaced
        obtain ⟨rfl, -⟩ := List.cons.inj hrest
        simp
      · obtain ⟨-, hrest⟩ := List.cons.inj hplaced
        obtain ⟨rfl, -⟩ := List.cons.inj hrest
        obtain ⟨measurement, hmeasurement⟩ := hearlier _ (List.mem_cons_of_mem _ List.mem_cons_self)
        exact absurd hmeasurement.length_fields (by decide)
    exact ⟨failure, hread,
      (hdecides hstop []).2 _ ⟨rfl, by simp, fun hmark => absurd hmark (by decide)⟩⟩
  · have hlog : LogText ([] ++ ([48, 44, 97, 44, 49] ++ 10 :: ([] ++ [49, 44, 97])))
        [⟨[], [48, 44, 97, 44, 49], [10], [[48], [97], [49]]⟩,
          ⟨[], [49, 44, 97], [], [[49], [97]]⟩] :=
      .cons (by simp) (by simp) hfirst rfl
        (.last (by simp) (by simp) (.more hone (.last (.closed hletter))))
    refine ((readLog_first_fault [48, 44, 97, 44, 49, 10, 49, 44, 97]).2 _ hlog).2 ?_ _ _
      ⟨rfl, by simp, fun hmark => absurd hmark (by decide)⟩ rfl
    intro row hrow hstop
    rcases List.mem_cons.1 hrow with rfl | hlater
    · exact hdenotes
    · obtain rfl := List.mem_singleton.1 hlater
      exact absurd rfl hstop

/-- A read that holds nothing but a byte order mark counts as the end of the log, so the failure
behind it is lost. -/
theorem readLog_mark_then_failure :
    readLog ⟨[byteOrderMark], some "device gone"⟩ = .ok [] := rfl

end TimingReport.TimingLog
