import TimingReport.Proofs.Report.Course
import TimingReport.Report.Reference

/-!
# What a successful report leaves

The chart is moved into place first and the summary is written after it.  Nothing keeps the
paths of a plan apart, so where two of them lead to one file, that file holds what was written
to it last.
-/

namespace TimingReport.Report

open Step
open Files.Store (Placed)

/-- A successful report has put its chart into place and then written its summary. -/
theorem exists_charted_of_run {machine : Machine} {plan : Plan} {files : FileStore}
    {fonts : FontCache} {result : Result} {after : Session}
    (hrun : (run machine plan).runOn files fonts = (.ok result, after)) :
    ∃ found image charted, searchFont machine.library files fonts plan.font = .ok found ∧
      result.labeled = found.font.isSome ∧
      Pictures machine plan found.font result.boxes image ∧
      Placed (.picture image) plan.output files charted ∧
      match plan.summary with
      | none => after.files = charted
      | some summary => Placed (.data result.summaryText.toUTF8) summary charted after.files := by
  rcases runOn_cases machine plan files fonts with
    ⟨failure, -, hfails⟩ | ⟨draft, found, hdraft, hfound, last, hends, hended⟩
  · rw [hfails] at hrun
    cases hrun
  · have hfont := Fallible.mapError_ok_iff.1 hfound
    rw [hended] at hrun
    cases hends with
    | notPictured | notSaved => cases hrun
    | charted hpictured hsummary =>
      cases hrun
      obtain ⟨hpictures, hplaced⟩ := pictures_of_pictured hdraft hpictured
      exact ⟨found, _, _, hfont, rfl, hpictures, hplaced, by rw [hsummary]; rfl⟩
    | saved hpictured hsummary hsaves =>
      cases hrun
      obtain ⟨hpictures, hplaced⟩ := pictures_of_pictured hdraft hpictured
      cases hsaves with
      | whole htold hwhole hwritten =>
        exact ⟨found, _, _, hfont, rfl, hpictures, hplaced, by rw [hsummary]; exact hwritten⟩

theorem read_summary_of_run {machine : Machine} {plan : Plan} {files : FileStore}
    {fonts : FontCache} {result : Result} {after : Session} {summary : String}
    (hrun : (run machine plan).runOn files fonts = (.ok result, after))
    (hsummary : plan.summary = some summary) :
    after.files.read summary = .ok (.data result.summaryText.toUTF8) := by
  obtain ⟨found, image, charted, -, -, -, -, hfinal⟩ := exists_charted_of_run hrun
  rw [hsummary] at hfinal
  exact Placed.read_eq hfinal

/-- Whether a path leads to the file that the summary is written to. -/
def summaryTakes (plan : Plan) (files : FileStore) (path : String) : Bool :=
  plan.summary.any fun summary => files.target? path = files.target? summary

/-- What is left of a file after the summary has been written. -/
theorem read_of_summary {plan : Plan} {files charted final : FileStore} {content found : Content}
    {chart : Content} {path : String} (hchart : Placed chart plan.output files charted)
    (hfinal : match plan.summary with
      | none => final = charted
      | some summary => Placed content summary charted final)
    (hread : charted.read path = .ok found) :
    final.read path = .ok (if summaryTakes plan files path then content else found) := by
  have htarget := hchart.sameDirectories.target?_eq
  cases hsummary : plan.summary with
  | none =>
    rw [hsummary] at hfinal
    obtain rfl : final = charted := hfinal
    simpa [summaryTakes, hsummary] using hread
  | some summary =>
    rw [hsummary] at hfinal
    have hafter := Placed.read_of_read hfinal hread
    rw [htarget, htarget] at hafter
    simpa [summaryTakes, hsummary] using hafter

/-- A successful report has parsed the log at its input and drawn the boxes of its result, in the
size of its plan and with labels in the font that it has found.  Its summary holds the result as
JSON.  Its output holds that picture as a PNG file, unless the summary goes into the same file; and
its input holds what was parsed, unless it is the file of the chart or of the summary. -/
theorem run_outputs {machine : Machine} {plan : Plan} {files : FileStore} {fonts : FontCache}
    {result : Result} {after : Session}
    (hrun : (run machine plan).runOn files fonts = (.ok result, after)) :
    ∃ content measurements found image,
      files.read plan.input = .ok content ∧
      TimingLog.readLog (.ofBytes content.bytes) = .ok measurements ∧
      searchFont machine.library files fonts plan.font = .ok found ∧
      result.labeled = found.font.isSome ∧
      Pictures machine plan found.font result.boxes image ∧
      (image.width, image.height) = plan.imageSize ∧
      Chart.Png.decode (Content.picture image).bytes = some image.raster ∧
      let json := Content.data result.summaryText.toUTF8
      (∀ summary, plan.summary = some summary → after.files.read summary = .ok json) ∧
      after.files.read plan.output =
        .ok (if summaryTakes plan files plan.output then json else .picture image) ∧
      after.files.read plan.input =
        .ok (if summaryTakes plan files plan.input then json
          else if files.target? plan.input = files.target? plan.output then .picture image
          else content) := by
  obtain ⟨sketch, hsketch, rfl⟩ := sketch_of_run hrun
  obtain ⟨hdraft, -⟩ := sketched_ok_iff.1 hsketch
  obtain ⟨hmeasured, -⟩ := drafted_ok_iff.1 hdraft
  obtain ⟨content, hread, hlog⟩ := measured_ok_iff.1 hmeasured
  obtain ⟨found, image, charted, hfound, hlabeled, hpictures, hchart, hfinal⟩ :=
    exists_charted_of_run hrun
  refine ⟨content, sketch.measurements, found, image, hread, hlog, hfound, hlabeled, hpictures,
    hpictures.size_eq, hpictures.decode_eq, ?_, ?_, ?_⟩
  · intro summary hsummary
    exact read_summary_of_run hrun hsummary
  · exact read_of_summary hchart hfinal hchart.read_eq
  · exact read_of_summary hchart hfinal (hchart.read_of_read hread)

/-- Three files that are not the same hold the log, the chart and the summary. -/
theorem run_outputs_three_files :
    let log := Content.data "0,a,1\n".toUTF8
    let files : FileStore := ⟨[(["a.csv"], .file log)], []⟩
    let plan : Plan :=
      { Plan.default with input := "a.csv", output := "p.png", summary := some "s.json" }
    ∃ result after image, (run Machine.reference plan).runOn files [] = (.ok result, after) ∧
      Pictures Machine.reference plan none result.boxes image ∧
      after.files.read "p.png" = .ok (.picture image) ∧
      Chart.Png.decode (Content.picture image).bytes = some image.raster ∧
      after.files.read "s.json" = .ok (.data result.summaryText.toUTF8) ∧
      after.files.read "a.csv" = .ok log := by
  intro log files plan
  obtain ⟨result, after, hrun⟩ : ∃ result after,
      (run Machine.reference plan).runOn files [] = (.ok result, after) :=
    exists_of_isOk (by decide +kernel)
  obtain ⟨content, measurements, found, image, hread, -, hfound, -, hpictures, -, hdecode,
    hsummary, houtput, hinput⟩ := run_outputs hrun
  have hlog : files.read "a.csv" = .ok log := rfl
  obtain rfl : log = content := Except.ok.inj (hlog.symm.trans hread)
  have hfont : found.font = none := by
    rw [← show searchSystem Machine.reference.library files [] systemFonts = found from
      Except.ok.inj hfound]
    decide +kernel
  have happart : summaryTakes plan files "p.png" = false ∧
      summaryTakes plan files "a.csv" = false ∧
      files.target? "a.csv" ≠ files.target? "p.png" := by decide +kernel
  refine ⟨result, after, image, hrun, hfont ▸ hpictures, ?_, hdecode, hsummary _ rfl, ?_⟩
  · exact houtput.trans (by rw [if_neg (by simp [plan, happart.1])])
  · exact hinput.trans (by rw [if_neg (by simp [plan, happart.2.1]), if_neg happart.2.2])

/-- What a report on the reference machine, if it succeeds, leaves at a path. -/
def leftAt (plan : Plan) (files : FileStore) (fonts : FontCache) (path : String) :
    Option Content :=
  match (run Machine.reference plan).runOn files fonts with
  | (.ok _, after) => (after.files.read path).toOption
  | (.error _, _) => none

/-- The first byte of a file; that of a picture is known without drawing it. -/
def Content.firstByte? : Content → Option UInt8
  | .data bytes => bytes.data.toList.head?
  | .picture _ => Chart.Png.signature.head?

theorem head?_bytes (content : Content) : content.bytes.head? = content.firstByte? := by
  cases content <;> rfl

/-- A summary takes the place of the chart or of the log if it is given the same path, and so
does a chart that is given the path of the log. -/
theorem run_outputs_same_file :
    let log := "0,a,1\n".toUTF8
    let files : FileStore := ⟨[(["a.csv"], .file (.data log))], []⟩
    let plan : Plan := { Plan.default with input := "a.csv", output := "p.png" }
    (∃ content, leftAt { plan with summary := some "p.png" } files [] "p.png" = some content ∧
        content.bytes.take 8 ≠ Chart.Png.signature) ∧
      (∃ content, leftAt { plan with summary := some "a.csv" } files [] "a.csv" = some content ∧
        content.bytes ≠ log.data.toList) ∧
      ∃ content, leftAt { plan with output := "a.csv" } files [] "a.csv" = some content ∧
        content.bytes ≠ log.data.toList := by
  intro log files plan
  have hlog : log.data.toList.head? = some 48 := by decide +kernel
  have honChart : (leftAt { plan with summary := some "p.png" } files [] "p.png").bind
      Content.firstByte? = some 123 := by decide +kernel
  have honLog : (leftAt { plan with summary := some "a.csv" } files [] "a.csv").bind
      Content.firstByte? = some 123 := by decide +kernel
  have hchart : (leftAt { plan with output := "a.csv" } files [] "a.csv").bind
      Content.firstByte? = some 137 := by decide +kernel
  simp only [Option.bind_eq_some_iff, ← head?_bytes] at honChart honLog hchart
  refine ⟨?_, ?_, ?_⟩
  · obtain ⟨content, hleft, hfirst⟩ := honChart
    refine ⟨content, hleft, fun hsignature => ?_⟩
    have hhead := congrArg List.head? hsignature
    rw [List.head?_take, hfirst] at hhead
    revert hhead
    decide
  · obtain ⟨content, hleft, hfirst⟩ := honLog
    refine ⟨content, hleft, fun hsame => ?_⟩
    rw [hsame, hlog] at hfirst
    revert hfirst
    decide
  · obtain ⟨content, hleft, hfirst⟩ := hchart
    refine ⟨content, hleft, fun hsame => ?_⟩
    rw [hsame, hlog] at hfirst
    revert hfirst
    decide

end TimingReport.Report
