import TimingReport.Proofs.Report.FontFiles
import TimingReport.Proofs.Report.Lockstep
import TimingReport.Proofs.Report.Outputs
import TimingReport.Proofs.TimingLog.LineByLine

/-!
# The order of lines

A report on a log whose lines have been rearranged ends as a report on the log itself, and it
leaves the same chart and the same summary.  Only which of several clashes is told of may differ.
-/

namespace TimingReport.Report

open TimingReport.TimingLog
open Step

/-- A file that holds the lines. -/
def logContent (lines : List (List UInt8)) : Content := .data ⟨(joinLines lines).toArray⟩

theorem bytes_logContent (lines : List (List UInt8)) : (logContent lines).bytes = joinLines lines :=
  List.toList_toArray

/-- Successful reports that had the same result and found the same font on stores that are alike
have left the same chart and the same summary. -/
theorem read_eq_of_run_alike {machine : Machine} {plan : Plan}
    {related : Content → Content → Prop} {files other : FileStore}
    (halike : Files.Store.Alike related files other) {fonts : FontCache}
    (hfont : searchFont machine.library other fonts plan.font =
      searchFont machine.library files fonts plan.font)
    {result : Result} {after otherAfter : Session}
    (hrun : (run machine plan).runOn files fonts = (.ok result, after))
    (hother : (run machine plan).runOn other fonts = (.ok result, otherAfter)) :
    (∃ chart, after.files.read plan.output = .ok chart ∧
        otherAfter.files.read plan.output = .ok chart) ∧
      ∀ summary, plan.summary = some summary →
        after.files.read summary = .ok (.data result.summaryText.toUTF8) ∧
          otherAfter.files.read summary = .ok (.data result.summaryText.toUTF8) := by
  obtain ⟨found, image, charted, hfound, -, hpictures, hchart, hfinal⟩ :=
    exists_charted_of_run hrun
  obtain ⟨otherFound, otherImage, otherCharted, hotherFound, -, hotherPictures, hotherChart,
    hotherFinal⟩ := exists_charted_of_run hother
  rw [hfont, hfound] at hotherFound
  obtain rfl : found = otherFound := Except.ok.inj hotherFound
  obtain rfl : image = otherImage := hpictures.unique hotherPictures
  have htakes : summaryTakes plan other plan.output = summaryTakes plan files plan.output := by
    simp only [summaryTakes, halike.sameDirectories.target?_eq]
  refine ⟨⟨_, read_of_summary hchart hfinal hchart.read_eq, ?_⟩, fun summary hsummary => ?_⟩
  · have hread := read_of_summary hotherChart hotherFinal hotherChart.read_eq
    rwa [htakes] at hread
  · exact ⟨read_summary_of_run hrun hsummary, read_summary_of_run hother hsummary⟩

/-- Where the lines of a log have been rearranged, those with one index and tag among themselves
in their order, a report on it has the same outcome and tells the same events.  Where clashes are
rejected, both may tell of a clash, not always of the same one.  What is left is the same at every
path, but for the log itself; the chart and the summary of a successful report are among it. -/
theorem run_line_order {machine : Machine} (hknows : KnowsFonts machine.library) {plan : Plan}
    {files : FileStore} {fonts : FontCache} {lines otherLines : List (List UInt8)}
    {location : Files.Location}
    (hlines : ∀ line ∈ lines, PlainLine line) (hrearranged : RearrangedLines lines otherLines)
    (hinput : files.lookup plan.input = .ok (location, .file (logContent lines)))
    (hparses : ∃ measurements, readLog (.ofBytes (joinLines lines)) = .ok measurements) :
    let outcome := (run machine plan).runOn files fonts
    let otherOutcome :=
      (run machine plan).runOn (files.rewrite location (logContent otherLines)) fonts
    SameOrClash plan outcome.1 otherOutcome.1 ∧
      otherOutcome.2.events = outcome.2.events ∧
      (∀ path, otherOutcome.2.files.read path = outcome.2.files.read path ∨
        outcome.2.files.read path = .ok (logContent lines) ∧
          otherOutcome.2.files.read path = .ok (logContent otherLines)) ∧
      ∀ result, outcome.1 = .ok result →
        otherOutcome.1 = .ok result ∧
        (∃ chart, outcome.2.files.read plan.output = .ok chart ∧
          otherOutcome.2.files.read plan.output = .ok chart) ∧
        ∀ summary, plan.summary = some summary →
          outcome.2.files.read summary = .ok (.data result.summaryText.toUTF8) ∧
            otherOutcome.2.files.read summary = .ok (.data result.summaryText.toUTF8) := by
  intro outcome otherOutcome
  obtain ⟨measurements, hlog⟩ := hparses
  obtain ⟨otherMeasurements, hotherLog, hmeasurements⟩ := hrearranged.exists_readLog hlines hlog
  have hotherInput := Files.Store.lookup_rewrite_file hinput (logContent otherLines)
  have halike : Session.Alike
      (fun content other => content = logContent lines ∧ other = logContent otherLines)
      ⟨files, fonts, []⟩ ⟨files.rewrite location (logContent otherLines), fonts, []⟩ :=
    ⟨Files.Store.alike_rewrite (Files.Store.node?_of_lookup hinput) ⟨rfl, rfl⟩, rfl, rfl⟩
  rw [← bytes_logContent] at hlog hotherLog
  have hnoFont : ∀ content other, content = logContent lines ∧ other = logContent otherLines →
      machine.library.isFont content.bytes = false ∧
        machine.library.isFont other.bytes = false := by
    rintro content other ⟨rfl, rfl⟩
    exact ⟨hknows.not_isFont_of_readLog hlog, hknows.not_isFont_of_readLog hotherLog⟩
  obtain ⟨houtcome, hafter⟩ := run_alike hnoFont halike (Files.Store.read_of_lookup hinput) hlog
    (Files.Store.read_of_lookup hotherInput) hotherLog hmeasurements
  refine ⟨houtcome, hafter.events, fun path => ?_, fun result hresult => ?_⟩
  · rcases hafter.files.read_cases path with hsame | ⟨_, _, ⟨rfl, rfl⟩, hread, hotherRead⟩
    · exact .inl hsame
    · exact .inr ⟨hread, hotherRead⟩
  · have hotherResult : otherOutcome.1 = .ok result := by
      rcases houtcome with hsame | ⟨-, clash, -, hclash, -⟩
      · exact hsame.trans hresult
      · exact absurd (hresult.symm.trans hclash) (by simp)
    have hfont := searchFont_alike hnoFont halike.files fonts plan.font
    exact ⟨hotherResult, read_eq_of_run_alike halike.files hfont (Prod.ext hresult rfl)
      (Prod.ext hotherResult rfl)⟩

/-- The last of two times counts, and it stays the last. -/
theorem run_line_order_last_counts :
    let line : String → List UInt8 := fun text => text.toUTF8.data.toList
    let lines := [line "0,a,1", line "", line "0,a,2", line "7,b,3"]
    let otherLines := [line "7,b,3", line "0,a,1", line "0,a,2", line ""]
    let files : FileStore := ⟨[(["a.csv"], .file (logContent lines))], []⟩
    let other : FileStore := ⟨[(["a.csv"], .file (logContent otherLines))], []⟩
    let plan : Plan :=
      { Plan.default with
        input := "a.csv", output := "p.png", summary := some "s.json", duplicateRule := .last }
    let machine := Machine.reference
    ∃ result after otherAfter chart, (run machine plan).runOn files [] = (.ok result, after) ∧
      (run machine plan).runOn other [] = (.ok result, otherAfter) ∧ result.rows = 2 ∧
      after.files.read "p.png" = .ok chart ∧ otherAfter.files.read "p.png" = .ok chart ∧
      otherAfter.files.read "s.json" = after.files.read "s.json" := by
  intro line lines otherLines files other plan machine
  have hlines : ∀ line ∈ lines, PlainLine line := by
    have hplain : ∀ line ∈ lines, quote ∉ line ∧ (∀ byte ∈ line, endsRow byte = false) ∧
        ¬byteOrderMark <+: line := by decide +kernel
    intro line hline
    obtain ⟨hquote, hends, hmark⟩ := hplain line hline
    exact ⟨hquote, hends, hmark⟩
  have hkeys : lineKey? (line "0,a,1") = some (0, "a") ∧ lineKey? (line "") = none ∧
      lineKey? (line "0,a,2") = some (0, "a") ∧ lineKey? (line "7,b,3") = some (7, "b") := by
    decide +kernel
  have hrearranged : RearrangedLines lines otherLines := by
    refine ⟨by decide +kernel, fun key => ?_⟩
    obtain ⟨hfirst, hempty, hsecond, hthird⟩ := hkeys
    by_cases hkey : key = (7, "b")
    · subst hkey
      simp [lines, otherLines, hfirst, hempty, hsecond, hthird]
    · have hapart : (some (7, "b") : Option (Int × String)) ≠ some key := by
        simpa using fun h => hkey h.symm
      simp only [lines, otherLines, List.filter_cons, hfirst, hempty, hsecond, hthird, hapart]
      simp
  have hparses : ∃ measurements, readLog (.ofBytes (joinLines lines)) = .ok measurements :=
    Fallible.exists_of_isOk (by decide +kernel)
  have hinput : files.lookup "a.csv" = .ok (["a.csv"], .file (logContent lines)) := rfl
  have hrows : ((run machine plan).runOn files []).1.toOption.map Result.rows = some 2 := by
    decide +kernel
  obtain ⟨result, after, hrun⟩ := @exists_of_isOk _ (run machine plan) files []
    (by decide +kernel)
  obtain ⟨-, -, -, hsuccess⟩ := @run_line_order machine knowsFonts_reference plan files [] lines
    otherLines _ hlines hrearranged hinput hparses
  obtain ⟨hresult, ⟨chart, hchart, hotherChart⟩, hsummary⟩ :=
    hsuccess result (congrArg Prod.fst hrun)
  obtain ⟨hjson, hotherJson⟩ := hsummary "s.json" rfl
  rw [hrun] at hrows hchart hjson
  refine ⟨result, after, _, chart, hrun, Prod.ext hresult rfl, Option.some.inj hrows, hchart,
    hotherChart, ?_⟩
  exact hotherJson.trans hjson.symm

end TimingReport.Report
