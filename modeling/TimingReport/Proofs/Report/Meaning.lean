import TimingReport.Proofs.Box.Order
import TimingReport.Proofs.Report.Course
import TimingReport.Proofs.Table.Columns
import TimingReport.Proofs.TimingLog.Reading
import TimingReport.Report.Reference

/-!
# What a result says about the log

The rows, the tags and the boxes of a result are those of the measurements of the log, and
nothing else in a plan has a say in them but its rule for duplicates and its tags.  No tag
is lost on the way: a tag that is a column was measured, and what was measured is finite.
-/

namespace TimingReport.Report

open TimingReport.TimingLog (Measurement)
open TimingTable

/-! ## The boxes of a table -/

/-- Finite samples have a box, which counts all of them. -/
theorem exists_ofSamples_eq_some (tag : String) {values : List Float} (hvalues : values ≠ [])
    (hfinite : ∀ x ∈ values, Number.isFinite x = true) :
    ∃ box, BoxSummary.ofSamples tag values = some box ∧ box.tag = tag ∧
      box.count = values.length := by
  exact ⟨_, ofSamples_of_isFinite tag hvalues hfinite, rfl, (perm_sortedSamples hfinite).length_eq⟩

section

variable {rule : DuplicateRule} {measurements : List Measurement} {cells : Cells}
  {table : TimingTable}

theorem exists_box_of_tag (hfinite : ∀ measurement ∈ measurements,
      Number.isFinite measurement.time = true) {tag : String}
    (htag : ∃ measurement ∈ measurements, measurement.tag = tag) :
    ∃ box, BoxSummary.ofSamples tag (timesOf rule measurements tag) = some box ∧
      box.tag = tag ∧ box.count = (indicesOf measurements tag).card := by
  rw [← length_timesOf rule]
  refine exists_ofSamples_eq_some tag ?_ fun time htime => ?_
  · obtain ⟨measurement, hmeasurement, htag⟩ := htag
    rw [ne_eq, ← List.length_eq_zero_iff, length_timesOf, Finset.card_eq_zero]
    have hindex : measurement.index ∈ indicesOf measurements tag :=
      mem_indicesOf.2 ⟨measurement, hmeasurement, by simp [belongsTo, htag]⟩
    exact Finset.ne_empty_of_mem hindex
  · obtain ⟨measurement, hmeasurement, rfl⟩ := exists_time_eq_of_mem_timesOf htime
    exact hfinite measurement hmeasurement

theorem boxesOf_select (hfills : Fills rule measurements cells table) (keep : String → Bool) :
    boxesOf (table.select keep) = (table.tags.filter keep).filterMap fun tag =>
      BoxSummary.ofSamples tag (timesOf rule measurements tag) := by
  rw [boxesOf]
  refine List.filterMap_congr fun tag htag => ?_
  rw [column_select (List.mem_filter.1 htag).2, hfills.column_eq]

/-- Every column has a box. -/
theorem map_tag_boxesOf_select (hfills : Fills rule measurements cells table)
    (hfinite : ∀ measurement ∈ measurements, Number.isFinite measurement.time = true)
    (keep : String → Bool) :
    (boxesOf (table.select keep)).map BoxSummary.tag = table.tags.filter keep := by
  rw [boxesOf_select hfills, List.map_filterMap]
  have hsome : ∀ tag ∈ table.tags.filter keep,
      (BoxSummary.ofSamples tag (timesOf rule measurements tag)).map BoxSummary.tag = some tag := by
    intro tag htag
    obtain ⟨box, hbox, hname, -⟩ := @exists_box_of_tag rule measurements hfinite tag
      ((hfills.mem_tags_iff tag).1 (List.mem_of_mem_filter htag))
    rw [hbox, Option.map_some, hname]
  rw [List.filterMap_congr hsome, List.filterMap_some]

end

/-! ## The result -/

/-- What a successful report tells about its log: it has counted the indices of all
measurements, and its tags are the measured tags that its plan keeps, in ascending order.
There is a box for each of them, in the same order; it counts the indices at which the tag was
measured and describes the times that the rule for duplicates picks there.  Any other plan
with this rule and these tags tells the same about the same log, on whatever machine. -/
theorem run_meaning {machine : Machine} {plan : Plan} {files : FileStore} {fonts : FontCache}
    {result : Result} {after : Session}
    (hrun : (run machine plan).runOn files fonts = (.ok result, after)) :
    ∃ content measurements, files.read plan.input = .ok content ∧
      TimingLog.readLog (.ofBytes content.bytes) = .ok measurements ∧
      result.rows = (measuredIndices measurements).card ∧
      result.tags.Pairwise (· < ·) ∧
      (∀ tag, tag ∈ result.tags ↔
        (∃ measurement ∈ measurements, measurement.tag = tag) ∧ plan.plots tag = true) ∧
      result.boxes.map BoxSummary.tag = result.tags ∧
      (∀ box ∈ result.boxes, box.count = (indicesOf measurements box.tag).card ∧
        BoxSummary.ofSamples box.tag (timesOf plan.duplicateRule measurements box.tag) =
          some box) ∧
      ∀ (otherMachine : Machine) (other : Plan) (otherFiles : FileStore)
        (otherFonts : FontCache) (otherContent : Content) (otherResult : Result)
        (otherAfter : Session),
        (run otherMachine other).runOn otherFiles otherFonts = (.ok otherResult, otherAfter) →
        otherFiles.read other.input = .ok otherContent → otherContent.bytes = content.bytes →
        other.duplicateRule = plan.duplicateRule → other.tags = plan.tags →
        otherResult.rows = result.rows ∧ otherResult.tags = result.tags ∧
          otherResult.boxes = result.boxes := by
  obtain ⟨sketch, hsketch, rfl⟩ := sketch_of_run hrun
  obtain ⟨hdraft, -⟩ := sketched_ok_iff.1 hsketch
  obtain ⟨hmeasured, htabulated, -⟩ := drafted_ok_iff.1 hdraft
  obtain ⟨content, hread, hlog⟩ := measured_ok_iff.1 hmeasured
  obtain ⟨table, htable, hselect⟩ := tabulated_ok_iff.1 htabulated
  obtain ⟨cells, hfills⟩ := exists_fills_of_ofMeasurements htable
  have hfinite := TimingLog.isFinite_time_of_readLog hlog
  have hboxes : sketch.boxes = boxesOf (table.select plan.plots) := by rw [hselect]; rfl
  have htags : (sketch.result plan).tags = table.tags.filter plan.plots := by
    rw [Sketch.result, hboxes, map_tag_boxesOf_select hfills hfinite]
  refine ⟨content, sketch.measurements, hread, hlog, ?_, ?_, fun tag => ?_, rfl,
    fun box hbox => ?_, ?_⟩
  · rw [← hfills.rowCount_eq, ← rowCount_select plan.plots, hselect]
    rfl
  · rw [htags, hfills.tags_eq]
    exact (Table.ascending_sortedKeys _).filter _
  · rw [htags, List.mem_filter, hfills.mem_tags_iff]
  · change box ∈ sketch.boxes at hbox
    rw [hboxes, boxesOf_select hfills] at hbox
    obtain ⟨tag, htag, hsamples⟩ := List.mem_filterMap.1 hbox
    obtain ⟨found, hfound, rfl, hcount⟩ := @exists_box_of_tag plan.duplicateRule
      sketch.measurements hfinite tag
      ((hfills.mem_tags_iff tag).1 (List.mem_of_mem_filter htag))
    obtain rfl : found = box := Option.some.inj (hfound.symm.trans hsamples)
    exact ⟨hcount, hfound⟩
  · intro otherMachine other otherFiles otherFonts otherContent otherResult otherAfter hother
      hotherRead hbytes hrule hkeep
    obtain ⟨otherSketch, hotherSketch, rfl⟩ := sketch_of_run hother
    obtain ⟨hotherDraft, -⟩ := sketched_ok_iff.1 hotherSketch
    obtain ⟨hotherMeasured, hotherTabulated, -⟩ := drafted_ok_iff.1 hotherDraft
    obtain ⟨found, hfound, hotherLog⟩ := measured_ok_iff.1 hotherMeasured
    obtain rfl : otherContent = found := Except.ok.inj (hotherRead.symm.trans hfound)
    rw [hbytes, hlog] at hotherLog
    have hplots : other.plots = plan.plots := by
      funext tag
      rw [Plan.plots, Plan.plots, hkeep]
    have hsame : otherSketch.table = sketch.table := by
      rw [tabulated, ← Except.ok.inj hotherLog, hrule, htable, hplots] at hotherTabulated
      rw [← Except.ok.inj hotherTabulated, ← hselect]
    simp only [Sketch.result, Sketch.boxes, Draft.boxes, hsame, and_self]

/-- A row without a plotted tag is counted, and neither size nor axis matter to the box. -/
theorem run_meaning_kept_tag :
    let log := "1,b,2\n0,a,1\n1,b,3\n".toUTF8
    let files : FileStore := ⟨[(["a.csv"], .file (.data log))], []⟩
    let plan : Plan :=
      { Plan.default with
        input := "a.csv", output := "p.png", duplicateRule := .last
        tags := Pattern.Compiler.reference "b" }
    let other : Plan := { plan with output := "q.png", width := 2, bounded := false }
    let machine := Machine.reference
    ∃ result otherResult,
      ((run machine plan).runOn files []).1 = .ok result ∧
      ((run machine other).runOn files []).1 = .ok otherResult ∧
      result.rows = 2 ∧ otherResult.rows = 2 ∧
      result.tags = ["b"] ∧ otherResult.tags = ["b"] ∧
      result.boxes.map BoxSummary.tag = ["b"] ∧ otherResult.boxes = result.boxes := by
  intro log files plan other machine
  obtain ⟨result, after, hrun⟩ := @exists_of_isOk _ (run machine plan) files []
    (by decide +kernel)
  obtain ⟨otherResult, otherAfter, hother⟩ := @exists_of_isOk _ (run machine other) files []
    (by decide +kernel)
  have hchecks : (((run machine plan).runOn files []).1.toOption.map fun result =>
      (result.rows, result.tags)) = some (2, ["b"]) := by decide +kernel
  rw [hrun] at hchecks
  obtain ⟨hrows, htags⟩ : result.rows = 2 ∧ result.tags = ["b"] :=
    Prod.mk.inj (Option.some.inj hchecks)
  obtain ⟨content, -, hread, -, -, -, -, hboxes, -, hsame⟩ := run_meaning hrun
  obtain ⟨hrows', htags', hboxes'⟩ :=
    hsame machine other files [] content otherResult otherAfter hother hread rfl rfl rfl
  exact ⟨result, otherResult, by rw [hrun], by rw [hother], hrows, hrows'.trans hrows, htags,
    htags'.trans htags, hboxes.trans htags, hboxes'⟩

end TimingReport.Report
