import TimingReport.Proofs.Box.Finite
import TimingReport.Proofs.Box.Whiskers
import TimingReport.Proofs.Report.Meaning

/-!
# Finite logs have finite boxes

Every measurement that is taken while a log arrives has a finite time, however the log is cut
into reads.  A box of finite samples has finite numbers, and its fences are numbers even where
the range of its quartiles overflows, so a search for a whisker never compares with anything
that is not one.
-/

namespace TimingReport

open Number

/-! ## Times -/

namespace TimingLog

/-- All measurements read so far have finite times. -/
def Progress.IsFinite (progress : Progress) : Prop :=
  ∀ measurement ∈ progress.measurements, isFinite measurement.time = true

namespace Progress.IsFinite

variable {progress next : Progress}

theorem takeRow (hprogress : progress.IsFinite) {row : Row}
    (htake : progress.takeRow row = .ok next) : next.IsFinite := by
  rw [takeRow_eq, Fallible.map_ok_iff] at htake
  obtain ⟨taken, hjudged, rfl⟩ := htake
  intro measurement hmeasurement
  rcases Array.mem_push.1 hmeasurement with hbefore | rfl
  · exact hprogress measurement hbefore
  · exact Row.isFinite_time hjudged

theorem takeByte (hprogress : progress.IsFinite) {byte : UInt8}
    (htake : progress.takeByte byte = .ok next) : next.IsFinite := by
  rw [Progress.takeByte] at htake
  split at htake
  · obtain rfl := Except.ok.inj htake
    exact hprogress
  · next splitter row hstep =>
    exact @takeRow ⟨splitter, progress.measurements⟩ next hprogress row htake

/-- By induction on the bytes of a read. -/
theorem takeBytes (hprogress : progress.IsFinite) {bytes : List UInt8}
    (htake : progress.takeBytes bytes = .ok next) : next.IsFinite := by
  induction bytes generalizing progress with
  | nil =>
    obtain rfl := Except.ok.inj htake
    exact hprogress
  | cons byte bytes ih =>
    rw [Progress.takeBytes, List.foldlM_cons] at htake
    obtain ⟨taken, hbyte, hrest⟩ := Fallible.bind_ok_iff.1 htake
    exact ih (hprogress.takeByte hbyte) hrest

theorem finish (hprogress : progress.IsFinite) {measurements : List Measurement}
    (hfinish : progress.finish = .ok measurements) :
    ∀ measurement ∈ measurements, isFinite measurement.time = true := by
  rw [Progress.finish] at hfinish
  split at hfinish
  · obtain rfl := Except.ok.inj hfinish
    exact fun measurement hmeasurement => hprogress _ (Array.mem_toList_iff.1 hmeasurement)
  · obtain ⟨final, hfinal, rfl⟩ := Fallible.map_ok_iff.1 hfinish
    exact fun measurement hmeasurement =>
      hprogress.takeRow hfinal _ (Array.mem_toList_iff.1 hmeasurement)

/-- By induction on the reads that are left. -/
theorem takeReads (hprogress : progress.IsFinite) {failure : Option String}
    {reads : List (List UInt8)} {measurements : List Measurement}
    (hread : progress.takeReads failure reads = .ok measurements) :
    ∀ measurement ∈ measurements, isFinite measurement.time = true := by
  induction reads generalizing progress with
  | nil =>
    cases failure with
    | none => exact hprogress.finish hread
    | some reason => cases hread
  | cons bytes reads ih =>
    cases bytes with
    | nil => exact hprogress.finish hread
    | cons byte bytes =>
      rw [Progress.takeReads] at hread
      · split at hread
        · next taken htake => exact ih (hprogress.takeBytes htake) hread
        · cases hread
      · simp

end Progress.IsFinite

theorem Progress.isFinite_initial (skipped : Nat) : (Progress.initial skipped).IsFinite :=
  fun _ hmeasurement => absurd hmeasurement (Array.not_mem_empty _)

/-- All times of a log are finite, however it arrives. -/
theorem isFinite_time_of_arrival {source : Source} {measurements : List Measurement}
    (hlog : readLog source = .ok measurements) :
    ∀ measurement ∈ measurements, isFinite measurement.time = true := by
  rw [readLog] at hlog
  split at hlog
  · exact (Progress.isFinite_initial _).takeReads hlog
  · split at hlog <;> exact (Progress.isFinite_initial _).takeReads hlog

end TimingLog

/-! ## Fences -/

/-- No fence is lost between infinities: the range of two finite quartiles and its multiple
may be infinite, but what they are added to or taken from is finite. -/
theorem BoxSummary.isNaN_fences {box : BoxSummary} (hq1 : isFinite box.q1 = true)
    (hq3 : isFinite box.q3 = true) :
    box.lowFence.isNaN = false ∧ box.highFence.isNaN = false := by
  have hreach := isNaN_mul isFinite_whiskerReach rank_whiskerReach_pos
    (isNaN_sub hq3 (isNaN_eq_false_of_isFinite hq1))
  exact ⟨isNaN_sub hq1 hreach, isNaN_add hq3 hreach⟩

/-! ## Boxes -/

/-- Finite samples have a box, all numbers of a box of finite samples are finite, and its fences
are numbers or infinite.  Whatever arrives as a log and can be read is all finite, and every
tag that is kept of its table has a box. -/
theorem finite_boxes :
    (∀ (tag : String) (values : List Float), values ≠ [] →
      (∀ x ∈ values, isFinite x = true) →
      ∃ box, BoxSummary.ofSamples tag values = some box ∧
        (∀ x ∈ box.numbers, isFinite x = true) ∧
        box.lowFence.isNaN = false ∧ box.highFence.isNaN = false) ∧
    ∀ (source : TimingLog.Source) (measurements : List TimingLog.Measurement),
      TimingLog.readLog source = .ok measurements →
      ∀ (rule : DuplicateRule) (table : TimingTable) (keep : String → Bool),
        TimingTable.ofMeasurements rule measurements = .ok table →
        (Report.boxesOf (table.select keep)).map BoxSummary.tag = table.tags.filter keep ∧
        ∀ box ∈ Report.boxesOf (table.select keep), ∀ x ∈ box.numbers, isFinite x = true := by
  constructor
  · intro tag values hvalues hfinite
    obtain ⟨box, hbox, -⟩ := Report.exists_ofSamples_eq_some tag hvalues hfinite
    have hnumbers := isFinite_of_mem_numbers hfinite hbox
    exact ⟨box, hbox, hnumbers, box.isNaN_fences (hnumbers _ (by simp [BoxSummary.numbers]))
      (hnumbers _ (by simp [BoxSummary.numbers]))⟩
  · intro source measurements hlog rule table keep htable
    have hfinite := TimingLog.isFinite_time_of_arrival hlog
    obtain ⟨cells, hfills⟩ := TimingTable.exists_fills_of_ofMeasurements htable
    refine ⟨Report.map_tag_boxesOf_select hfills hfinite keep, fun box hbox => ?_⟩
    rw [Report.boxesOf_select hfills] at hbox
    obtain ⟨tag, -, hsamples⟩ := List.mem_filterMap.1 hbox
    refine isFinite_of_mem_numbers (fun time htime => ?_) hsamples
    obtain ⟨measurement, hmeasurement, rfl⟩ := TimingTable.exists_time_eq_of_mem_timesOf htime
    exact hfinite measurement hmeasurement

/-- The range of the quartiles of four times at the ends of the doubles overflows, and so do
both fences.  The log brings its times in two reads. -/
theorem finite_boxes_largest :
    let source : TimingLog.Source :=
      ⟨["0,a,-1.7976931348623157e3".toUTF8.data.toList,
        "08\n1,b,1.7976931348623157e308\n".toUTF8.data.toList], none⟩
    (∃ box, BoxSummary.ofSamples "a" [-1.7976931348623157e308, -1.7976931348623157e308,
        1.7976931348623157e308, 1.7976931348623157e308] = some box ∧
      (∀ x ∈ box.numbers, isFinite x = true) ∧ isFinite (box.q3 - box.q1) = false ∧
      isFinite box.lowFence = false ∧ isFinite box.highFence = false) ∧
    ∃ measurements table, TimingLog.readLog source = .ok measurements ∧
      TimingTable.ofMeasurements .reject measurements = .ok table ∧
      (Report.boxesOf (table.select (· = "a"))).map BoxSummary.tag = ["a"] ∧
      ∀ box ∈ Report.boxesOf (table.select (· = "a")), ∀ x ∈ box.numbers,
        isFinite x = true := by
  intro source
  constructor
  · obtain ⟨box, hbox, hfinite, -⟩ := finite_boxes.1 "a" [-1.7976931348623157e308,
      -1.7976931348623157e308, 1.7976931348623157e308, 1.7976931348623157e308]
      (List.cons_ne_nil _ _) (by decide +kernel)
    rw [ofSamples_of_pairwise _ (List.cons_ne_nil _ _) (by decide +kernel)
      (by decide +kernel)] at hbox ⊢
    obtain rfl := Option.some.inj hbox
    refine ⟨_, rfl, hfinite, ?_⟩
    decide +kernel
  · have hchecks : (TimingLog.readLog source).toOption.bind (fun measurements =>
        (TimingTable.ofMeasurements .reject measurements).toOption.map TimingTable.tags) =
        some ["a", "b"] := by decide +kernel
    obtain ⟨measurements, hread, htabulate⟩ := Option.bind_eq_some_iff.1 hchecks
    obtain ⟨table, htable, htags⟩ := Option.map_eq_some_iff.1 htabulate
    rw [Fallible.toOption_eq_some_iff] at hread htable
    obtain ⟨hboxes, hfinite⟩ := finite_boxes.2 source measurements hread .reject table
      (fun tag => tag = "a") htable
    rw [htags] at hboxes
    exact ⟨measurements, table, hread, htable, hboxes, hfinite⟩

end TimingReport
