import TimingReport.Proofs.Files.Parent
import TimingReport.Proofs.Report.FontSearch
import TimingReport.Proofs.Report.Meaning

/-!
# When a report succeeds

A report passes nine stages, each of which asks something of its plan, its files, its fonts or the
machine.  On a machine that draws everything, it succeeds if all of them hold, and otherwise the
first stage that does not hold is the one that its failure tells of.
-/

namespace TimingReport.Report

open Step
open TimingReport.TimingLog (Measurement)
open TimingTable

/-- What is asked of a report, in the order in which it is asked. -/
inductive Stage where
  | log
  | cells
  | chartParent
  | summaryParent
  | tags
  | axis
  | font
  | chart
  | summary
  deriving DecidableEq, Repr

def Stage.number : Stage → Nat
  | .log => 1
  | .cells => 2
  | .chartParent => 3
  | .summaryParent => 4
  | .tags => 5
  | .axis => 6
  | .font => 7
  | .chart => 8
  | .summary => 9

theorem Stage.number_injective : Function.Injective Stage.number := by
  intro stage other
  cases stage <;> cases other <;> simp [Stage.number]

/-- The log of a plan has these measurements. -/
def HasLog (plan : Plan) (files : FileStore) (measurements : List Measurement) : Prop :=
  ∃ content, files.read plan.input = .ok content ∧
    TimingLog.readLog (.ofBytes content.bytes) = .ok measurements

/-- The boxes of the tags that a plan keeps. -/
def plottedBoxes (plan : Plan) (measurements : List Measurement) : List BoxSummary :=
  ((Table.sortedKeys (measurements.map Measurement.tag)).filter plan.plots).filterMap fun tag =>
    BoxSummary.ofSamples tag (timesOf plan.duplicateRule measurements tag)

/-- What a report tells of these measurements where no font is at the usual paths. -/
def reported (plan : Plan) (measurements : List Measurement) : Result where
  input := plan.input
  output := plan.output
  rows := (measuredIndices measurements).card
  tags := (plottedBoxes plan measurements).map BoxSummary.tag
  axisBound := plan.axisBound
  labeled := plan.font.isSome
  boxes := plottedBoxes plan measurements

/-- The machine can tell a result in JSON and write all of its text to a path. -/
def Machine.Saves (machine : Machine) (path : String) (result : Result) : Prop :=
  machine.faults.serializing result = none ∧
    machine.faults.saving path result.summaryText.toUTF8 = none

/-- What a stage asks for. -/
def Stage.Holds (machine : Machine) (plan : Plan) (files : FileStore) (fonts : FontCache) :
    Stage → Prop
  | .log => ∃ measurements, HasLog plan files measurements
  | .cells => plan.duplicateRule ≠ .reject ∨
    ∀ measurements, HasLog plan files measurements → NoClash measurements
  | .chartParent => files.HasParent plan.output
  | .summaryParent => ∀ summary, plan.summary = some summary → files.HasParent summary
  | .tags => ∀ measurements, HasLog plan files measurements →
    ∃ measurement ∈ measurements, plan.plots measurement.tag = true
  | .axis =>
    if plan.bounded then Number.isFinite plan.yMax = true ∧ 0 < plan.yMax
    else ∀ measurements, HasLog plan files measurements →
      Number.isFinite (Chart.fittedRange (plottedBoxes plan measurements)).low = true ∧
        Number.isFinite (Chart.fittedRange (plottedBoxes plan measurements)).high = true
  | .font => ∀ font, plan.font = some font → Usable machine.library files fonts font
  | .chart => files.TakesFile plan.output
  | .summary => ∀ summary, plan.summary = some summary →
    files.TakesFile summary ∧ ∀ measurements, HasLog plan files measurements →
      machine.Saves summary (reported plan measurements)

/-- The failures that tell of a stage. -/
inductive Stage.Blames (plan : Plan) (files : FileStore) : Stage → Failure → Prop
  | unreadable {error : Files.SystemError} (hread : files.read plan.input = .error error) :
    Blames plan files .log (.read plan.input (.unreadable error.message))
  | malformed {content : Content} {fault : TimingLog.ReadFault}
    (hread : files.read plan.input = .ok content)
    (hlog : TimingLog.readLog (.ofBytes content.bytes) = .error fault) :
    Blames plan files .log (.read plan.input fault)
  | clash {measurements : List Measurement} {clash : Clash}
    (hlog : HasLog plan files measurements)
    (hclash : ofMeasurements plan.duplicateRule measurements = .error clash) :
    Blames plan files .cells (.duplicate clash)
  | noChartParent {parent : String} (hparent : Files.parent? plan.output = some parent) :
    Blames plan files .chartParent (.write plan.output (.missingDirectory parent))
  | noSummaryParent {summary parent : String} (hsummary : plan.summary = some summary)
    (hparent : Files.parent? summary = some parent) :
    Blames plan files .summaryParent (.write summary (.missingDirectory parent))
  | noTags : Blames plan files .tags (.draw .noColumns)
  | noRange {measurements : List Measurement} {fault : Chart.RangeFault}
    (hlog : HasLog plan files measurements)
    (hrange : Chart.axisRange (plottedBoxes plan measurements) plan.axisBound = .error fault) :
    Blames plan files .axis (.draw (.range fault))
  | unreadableFont {font : String} {error : Files.SystemError} (hfont : plan.font = some font)
    (hread : files.read font = .error error) :
    Blames plan files .font (.draw (.unreadableFont font error))
  | invalidFont {font : String} (hfont : plan.font = some font) :
    Blames plan files .font (.draw (.invalidFont font))
  | noChart {error : Files.SystemError} :
    Blames plan files .chart (.write plan.output (.system error))
  | noSummary {summary : String} {error : Files.SystemError}
    (hsummary : plan.summary = some summary) :
    Blames plan files .summary (.write summary (.system error))
  | unwrittenSummary {summary reason : String} (hsummary : plan.summary = some summary) :
    Blames plan files .summary (.write summary (.other reason))

/-! ## The stages one by one -/

section

variable {machine : Machine} {plan : Plan} {files : FileStore} {fonts : FontCache}
  {measurements : List Measurement}

/-- An outcome settles a stage: it is a success if the stage holds, and a failure that tells
of the stage otherwise. -/
def Settles {α : Type} (machine : Machine) (plan : Plan) (files : FileStore) (fonts : FontCache)
    (stage : Stage) : Except Failure α → Prop
  | .ok _ => stage.Holds machine plan files fonts
  | .error failure => ¬ stage.Holds machine plan files fonts ∧ stage.Blames plan files failure

theorem settles_log : Settles machine plan files fonts .log (measured files plan.input) := by
  cases hmeasured : measured files plan.input with
  | ok measurements => exact ⟨measurements, measured_ok_iff.1 hmeasured⟩
  | error failure =>
    constructor
    · rintro ⟨measurements, hlog⟩
      rw [measured_ok_iff.2 hlog] at hmeasured
      cases hmeasured
    · rw [measured] at hmeasured
      cases hread : files.read plan.input with
      | error error =>
        rw [hread] at hmeasured
        cases hmeasured
        exact .unreadable hread
      | ok content =>
        rw [hread] at hmeasured
        obtain ⟨fault, hlog, rfl⟩ := Fallible.mapError_error_iff.1 hmeasured
        exact .malformed hread hlog

/-- A log has one list of measurements. -/
theorem HasLog.forall_iff (hlog : HasLog plan files measurements)
    {property : List Measurement → Prop} :
    (∀ other, HasLog plan files other → property other) ↔ property measurements := by
  refine ⟨fun hall => hall measurements hlog, fun hproperty other hother => ?_⟩
  obtain ⟨content, hread, hlog⟩ := hlog
  obtain ⟨found, hfound, hother⟩ := hother
  obtain rfl : content = found := Except.ok.inj (hread.symm.trans hfound)
  rwa [Except.ok.inj (hother.symm.trans hlog)]

theorem settles_cells (hlog : HasLog plan files measurements) :
    Settles machine plan files fonts .cells (tabulated plan measurements) := by
  have hcells : Stage.cells.Holds machine plan files fonts ↔
      ∃ table, ofMeasurements plan.duplicateRule measurements = .ok table := by
    rw [exists_ofMeasurements_iff, Stage.Holds, hlog.forall_iff, imp_iff_not_or]
  rw [tabulated]
  cases htable : ofMeasurements plan.duplicateRule measurements with
  | ok table => exact hcells.2 ⟨table, htable⟩
  | error clash => exact ⟨by simp [hcells, htable], .clash hlog htable⟩

/-- The check of a parent finds it, or names it. -/
theorem parentFound_cases (files : FileStore) (path : String) :
    files.HasParent path ∧ parentFound files path = .ok () ∨
      ¬ files.HasParent path ∧ ∃ parent, Files.parent? path = some parent ∧
        parentFound files path = .error (.write path (.missingDirectory parent)) := by
  rw [parentFound, missingParent?, Files.Store.HasParent]
  cases Files.parent? path with
  | none => simp
  | some parent =>
    by_cases hfound : parent = "" ∨ files.isDirectory parent = true
    · simp [hfound]
    · rw [not_or] at hfound
      simp [hfound]

theorem settles_chartParent :
    Settles machine plan files fonts .chartParent (parentFound files plan.output) := by
  rcases parentFound_cases files plan.output with
    ⟨hparent, hfound⟩ | ⟨hmissing, parent, hpath, hfound⟩
  · rw [hfound]
    exact hparent
  · rw [hfound]
    exact ⟨hmissing, .noChartParent hpath⟩

theorem settles_summaryParent :
    Settles machine plan files fonts .summaryParent (plan.summary.forM (parentFound files)) := by
  have hholds : Stage.summaryParent.Holds machine plan files fonts ↔
      ∀ summary, plan.summary = some summary → files.HasParent summary := Iff.rfl
  cases hsummary : plan.summary with
  | none => exact hholds.2 (by simp [hsummary])
  | some summary =>
    change Settles machine plan files fonts .summaryParent (parentFound files summary)
    rcases parentFound_cases files summary with
      ⟨hparent, hfound⟩ | ⟨hmissing, parent, hpath, hfound⟩
    · rw [hfound]
      exact hholds.2 (by simpa [hsummary] using hparent)
    · rw [hfound]
      exact ⟨fun hall => hmissing (hholds.1 hall summary hsummary), .noSummaryParent hsummary hpath⟩

theorem settles_font :
    Settles machine plan files fonts .font (fontFound machine files fonts plan.font) := by
  rw [fontFound]
  rcases searchFont_cases machine.library files fonts plan.font with
    ⟨before, path, found, hgets, hfound, hsearch⟩ | ⟨hnone, -, hsearch⟩ |
      ⟨path, fault, hfont, hfault, hsearch⟩
  · rw [hsearch]
    intro font hfont
    rw [hfont] at hgets
    cases hgets
    exact (registers_of_register hfound).usable
  · rw [hsearch]
    intro font hfont
    rw [hnone] at hfont
    cases hfont
  · rw [hsearch]
    have hregisters := registers_of_register hfault
    refine ⟨fun hholds => hregisters.not_usable (hholds path hfont), ?_⟩
    cases hregisters with
    | unreadable hnew hread => exact .unreadableFont hfont hread
    | invalid hnew hread hisFont => exact .invalidFont hfont

theorem boxesOf_eq_plottedBoxes {table : TimingTable}
    (htable : tabulated plan measurements = .ok table) :
    boxesOf table = plottedBoxes plan measurements := by
  obtain ⟨whole, hwhole, rfl⟩ := tabulated_ok_iff.1 htable
  obtain ⟨cells, hfills⟩ := exists_fills_of_ofMeasurements hwhole
  rw [boxesOf_select hfills, hfills.tags_eq, plottedBoxes]

/-- There are boxes exactly if there are tags to plot. -/
theorem tags_holds_iff (hlog : HasLog plan files measurements) :
    Stage.tags.Holds machine plan files fonts ↔ plottedBoxes plan measurements ≠ [] := by
  rw [Stage.Holds, hlog.forall_iff, plottedBoxes]
  constructor
  · rintro ⟨measurement, hmeasurement, hplots⟩
    obtain ⟨content, -, hread⟩ := hlog
    have htag : measurement.tag ∈
        (Table.sortedKeys (measurements.map Measurement.tag)).filter plan.plots :=
      List.mem_filter.2
        ⟨(Table.mem_sortedKeys _ _).2 (List.mem_map_of_mem hmeasurement), hplots⟩
    obtain ⟨box, hbox, -⟩ := @exists_box_of_tag plan.duplicateRule measurements
      (TimingLog.isFinite_time_of_readLog hread) measurement.tag ⟨measurement, hmeasurement, rfl⟩
    exact List.ne_nil_of_mem (List.mem_filterMap.2 ⟨_, htag, hbox⟩)
  · intro hboxes
    obtain ⟨box, hbox⟩ := List.exists_mem_of_ne_nil _ hboxes
    obtain ⟨tag, htag, -⟩ := List.mem_filterMap.1 hbox
    obtain ⟨hmem, hplots⟩ := List.mem_filter.1 htag
    obtain ⟨measurement, hmeasurement, rfl⟩ :=
      List.mem_map.1 ((Table.mem_sortedKeys _ _).1 hmem)
    exact ⟨measurement, hmeasurement, hplots⟩

theorem axis_holds_iff (hlog : HasLog plan files measurements) :
    Stage.axis.Holds machine plan files fonts ↔
      ∃ range, Chart.axisRange (plottedBoxes plan measurements) plan.axisBound = .ok range := by
  rw [Stage.Holds, hlog.forall_iff, Plan.axisBound]
  cases plan.bounded with
  | true =>
    simp only [if_true, Chart.axisRange]
    split
    · next hbound => simpa using hbound
    · next hbound => simpa using hbound
  | false =>
    simp only [Bool.false_eq_true, if_false, Chart.axisRange]
    split
    · next hfinite => simpa using hfinite
    · next hfinite => simpa using hfinite

theorem settles_ranged (hlog : HasLog plan files measurements)
    (hboxes : plottedBoxes plan measurements ≠ []) :
    Settles machine plan files fonts .axis (ranged plan (plottedBoxes plan measurements)) := by
  have haxis := @axis_holds_iff machine plan files fonts measurements hlog
  have hempty : (plottedBoxes plan measurements).isEmpty = false := by simpa using hboxes
  rw [ranged, hempty]
  cases hrange : Chart.axisRange (plottedBoxes plan measurements) plan.axisBound with
  | ok range => exact haxis.2 ⟨range, hrange⟩
  | error fault => exact ⟨by simp [haxis, hrange], .noRange hlog hrange⟩

/-- The table of a log counts its indices. -/
theorem rowCount_tabulated {table : TimingTable}
    (htable : tabulated plan measurements = .ok table) :
    table.rowCount = (measuredIndices measurements).card := by
  obtain ⟨whole, hwhole, rfl⟩ := tabulated_ok_iff.1 htable
  obtain ⟨cells, hfills⟩ := exists_fills_of_ofMeasurements hwhole
  rw [rowCount_select, hfills.rowCount_eq]

/-- Where no font is at the usual paths, labels are drawn if a font is named. -/
theorem isSome_of_fontFound (hsystem : ∀ path ∈ systemFonts, files.isFile path = false)
    {found : FontSearch} (hfound : fontFound machine files fonts plan.font = .ok found) :
    found.font.isSome = plan.font.isSome := by
  rw [fontFound, Fallible.mapError_ok_iff] at hfound
  rcases searchFont_cases machine.library files fonts plan.font with
    ⟨before, path, loaded, hgets, hloaded, hsearch⟩ | ⟨hnone, -, hsearch⟩ | ⟨_, _, -, -, hsearch⟩
  · rw [hsearch] at hfound
    obtain rfl := Except.ok.inj hfound
    have hsome := (registers_of_register hloaded).keys_eq.1
    cases hfont : plan.font with
    | some named => exact hsome
    | none =>
      rw [hfont] at hgets
      cases hgets with
      | usual hpaths huseless hfile =>
        have hmem : path ∈ systemFonts := by simp [hpaths]
        rw [hsystem path hmem] at hfile
        cases hfile
  · rw [hsearch] at hfound
    obtain rfl := Except.ok.inj hfound
    rw [hnone]
    rfl
  · rw [hsearch] at hfound
    cases hfound

/-- What is reported is the result of the sketch. -/
theorem result_eq_reported (hsystem : ∀ path ∈ systemFonts, files.isFile path = false)
    {draft : Draft} (hdraft : drafted plan files = .ok draft) {found : FontSearch}
    (hfound : fontFound machine files fonts plan.font = .ok found) :
    HasLog plan files draft.measurements ∧
      (draft.sketch found.font).result plan = reported plan draft.measurements := by
  obtain ⟨hmeasured, htable, -⟩ := drafted_ok_iff.1 hdraft
  have hboxes : (draft.sketch found.font).boxes = plottedBoxes plan draft.measurements :=
    boxesOf_eq_plottedBoxes htable
  have hrows : (draft.sketch found.font).table.rowCount =
      (measuredIndices draft.measurements).card := rowCount_tabulated htable
  have hlabeled : (draft.sketch found.font).font.isSome = plan.font.isSome :=
    isSome_of_fontFound hsystem hfound
  exact ⟨measured_ok_iff.1 hmeasured, by rw [Sketch.result, hboxes, hrows, hlabeled, reported]⟩

end

/-! ## The stages in their order -/

section

variable (machine : Machine) (plan : Plan) (files : FileStore) (fonts : FontCache)

/-- All stages in front of a place hold. -/
def Passes (place : Nat) : Prop :=
  ∀ stage : Stage, stage.number < place → stage.Holds machine plan files fonts

/-- The stage is the first that does not hold, and the failure tells of it. -/
structure FirstFault (stage : Stage) (failure : Failure) : Prop where
  passes : Passes machine plan files fonts stage.number
  fails : ¬ stage.Holds machine plan files fonts
  blames : stage.Blames plan files failure

/-- An outcome decides the stages in front of a place: on success they hold, and a failure
tells of the first that does not. -/
def Decides {α : Type} (place : Nat) : Except Failure α → Prop
  | .ok _ => Passes machine plan files fonts place
  | .error failure => ∃ stage, FirstFault machine plan files fonts stage failure

end

section

variable {machine : Machine} {plan : Plan} {files : FileStore} {fonts : FontCache}

theorem Passes.succ {stage : Stage} (hpasses : Passes machine plan files fonts stage.number)
    (hstage : stage.Holds machine plan files fonts) :
    Passes machine plan files fonts (stage.number + 1) := by
  intro other hother
  rcases Nat.lt_succ_iff_lt_or_eq.1 hother with hearlier | hsame
  · exact hpasses other hearlier
  · exact Stage.number_injective hsame ▸ hstage

/-- What settles the next stage is followed by what decides the later ones. -/
theorem Settles.decides_bind {α β : Type} {stage : Stage} {outcome : Except Failure α}
    {next : α → Except Failure β} {place : Nat}
    (hstage : Settles machine plan files fonts stage outcome)
    (hpasses : Passes machine plan files fonts stage.number)
    (hnext : ∀ value, outcome = .ok value → Passes machine plan files fonts (stage.number + 1) →
      Decides machine plan files fonts place (next value)) :
    Decides machine plan files fonts place (outcome >>= next) := by
  cases outcome with
  | ok value => exact hnext value rfl (hpasses.succ hstage)
  | error failure => exact ⟨stage, hpasses, hstage.1, hstage.2⟩

theorem drafted_decides (machine : Machine) (plan : Plan) (files : FileStore)
    (fonts : FontCache) :
    Decides machine plan files fonts Stage.font.number (drafted plan files) := by
  rw [drafted]
  have hnone : Passes machine plan files fonts Stage.log.number := fun stage hstage => by
    cases stage <;> simp [Stage.number] at hstage
  refine settles_log.decides_bind hnone fun measurements hmeasured hpasses => ?_
  have hlog : HasLog plan files measurements := measured_ok_iff.1 hmeasured
  refine (settles_cells hlog).decides_bind hpasses fun table htable hpasses => ?_
  refine settles_chartParent.decides_bind hpasses fun _ _ hpasses => ?_
  refine settles_summaryParent.decides_bind hpasses fun _ _ hpasses => ?_
  rw [boxesOf_eq_plottedBoxes htable]
  have htags := @tags_holds_iff machine plan files fonts measurements hlog
  by_cases hboxes : plottedBoxes plan measurements = []
  · rw [hboxes]
    exact ⟨.tags, hpasses, fun hholds => htags.1 hholds hboxes, .noTags⟩
  · exact (settles_ranged hlog hboxes).decides_bind (hpasses.succ (htags.2 hboxes))
      fun range _ hpasses => hpasses

theorem sketched_decides (machine : Machine) (plan : Plan) (files : FileStore)
    (fonts : FontCache) :
    Decides machine plan files fonts Stage.chart.number (sketched machine plan files fonts) := by
  have hdraft := drafted_decides machine plan files fonts
  rw [sketched]
  cases hdrafted : drafted plan files with
  | error failure =>
    rw [hdrafted] at hdraft
    exact hdraft
  | ok draft =>
    rw [hdrafted] at hdraft
    exact settles_font.decides_bind hdraft fun found _ hpasses => hpasses

theorem hasParent_of_parentFound {path : String} (hfound : parentFound files path = .ok ()) :
    files.HasParent path := by
  rcases parentFound_cases files path with ⟨hparent, -⟩ | ⟨-, parent, -, hmissing⟩
  · exact hparent
  · rw [hfound] at hmissing
    cases hmissing

/-- What comes of saving the summary settles the last stage. -/
theorem Saves.settles {summary : String} {measurements : List Measurement}
    (hlog : HasLog plan files measurements) (hsummary : plan.summary = some summary)
    (hparent : files.HasParent summary) {charted after : FileStore}
    (hsame : Files.Store.SameDirectories files charted) {outcome : Except Failure Unit}
    (hsaves : Saves machine charted summary (reported plan measurements) (outcome, after)) :
    Settles machine plan files fonts .summary outcome := by
  have hholds : Stage.summary.Holds machine plan files fonts ↔
      charted.CanHold summary ∧ machine.Saves summary (reported plan measurements) := by
    rw [Stage.Holds, hsummary, hsame.canHold_iff, ← Files.Store.takesFile_iff hparent]
    simp [hlog.forall_iff]
  cases hsaves with
  | notTold hreason =>
    refine ⟨fun hall => ?_, .unwrittenSummary hsummary⟩
    rw [(hholds.1 hall).2.1] at hreason
    cases hreason
  | notOpened htold hplace => exact ⟨fun hall => hplace (hholds.1 hall).1, .noSummary hsummary⟩
  | cutOff htold hcut hplaced =>
    refine ⟨fun hall => ?_, .unwrittenSummary hsummary⟩
    rw [(hholds.1 hall).2.2] at hcut
    cases hcut
  | whole htold hwhole hplaced =>
    obtain ⟨location, htarget, hnode, -⟩ := hplaced
    exact hholds.2 ⟨⟨location, htarget, hnode⟩, htold, hwhole⟩

/-- On a machine that draws everything, a chart is written exactly if its path takes a file. -/
theorem settles_chart (hdraws : machine.DrawsAll) (hparent : parentFound files plan.output = .ok ())
    (chart : Chart) :
    Settles machine plan files fonts .chart (pictured machine files plan.output chart) := by
  have hmissing := parentFound_ok_iff.1 hparent
  have hholds : Stage.chart.Holds machine plan files fonts ↔ files.CanHold plan.output :=
    Files.Store.takesFile_iff (hasParent_of_parentFound hparent)
  obtain ⟨image, hdrawn⟩ := hdraws.exists_drawn plan.output chart
  cases hpictured : pictured machine files plan.output chart with
  | ok placed =>
    obtain ⟨-, htarget, hnode⟩ := chartLocation_ok_iff.1 (pictured_ok_iff.1 hpictured).1
    exact hholds.2 ⟨_, htarget, hnode⟩
  | error failure =>
    rcases pictured_error_cases hmissing hpictured with hundrawn | ⟨-, hlocation⟩
    · rw [hdrawn] at hundrawn
      cases hundrawn
    · obtain ⟨error, rfl⟩ := exists_of_chartLocation_error hmissing hlocation
      refine ⟨fun hall => ?_, .noChart⟩
      obtain ⟨location, htarget, hnode⟩ := hholds.1 hall
      rw [chartLocation_ok_iff.2 ⟨hmissing, htarget, hnode⟩] at hlocation
      cases hlocation

theorem run_decides (hsystem : ∀ path ∈ systemFonts, files.isFile path = false)
    (hdraws : machine.DrawsAll) :
    Decides machine plan files fonts (Stage.summary.number + 1)
      ((run machine plan).runOn files fonts).1 := by
  have hdecides := sketched_decides machine plan files fonts
  rcases runOn_cases machine plan files fonts with
    ⟨failure, hsketch, hfails⟩ | ⟨draft, found, hdraft, hfound, last, hends, hended⟩
  · rw [hsketch] at hdecides
    rw [hfails]
    exact hdecides
  · have hsketch : sketched machine plan files fonts = .ok (draft.sketch found.font) :=
      sketched_ok_iff.2 ⟨hdraft, found, hfound, rfl⟩
    rw [hsketch] at hdecides
    rw [hended]
    obtain ⟨hlog, hresult⟩ := result_eq_reported hsystem hdraft hfound
    obtain ⟨-, -, hparent, hparents, -⟩ := drafted_ok_iff.1 hdraft
    have hchart := @settles_chart machine plan files fonts hdraws hparent
      ((draft.sketch found.font).chart machine plan)
    have hsummaries : ∀ summary, plan.summary = some summary → files.HasParent summary := by
      intro summary hsummary
      rw [hsummary] at hparents
      exact hasParent_of_parentFound hparents
    cases hends with
    | notPictured hpictured =>
      rw [hpictured] at hchart
      exact ⟨.chart, hdecides, hchart.1, hchart.2⟩
    | charted hpictured hsummary =>
      rw [hpictured] at hchart
      have hnone : Stage.summary.Holds machine plan files fonts := fun summary hsome => by
        rw [hsummary] at hsome
        cases hsome
      exact (hdecides.succ hchart).succ hnone
    | @notSaved _ _ _ failure _ hpictured hsummary hsaves =>
      rw [hpictured] at hchart
      rw [hresult] at hsaves
      have hsettles : Settles machine plan files fonts .summary (.error failure) :=
        hsaves.settles hlog hsummary (hsummaries _ hsummary)
          (pictures_of_pictured hdraft hpictured).2.sameDirectories
      exact ⟨.summary, hdecides.succ hchart, hsettles.1, hsettles.2⟩
    | saved hpictured hsummary hsaves =>
      rw [hpictured] at hchart
      rw [hresult] at hsaves
      have hsettles : Settles machine plan files fonts .summary (.ok ()) :=
        hsaves.settles hlog hsummary (hsummaries _ hsummary)
          (pictures_of_pictured hdraft hpictured).2.sameDirectories
      exact (hdecides.succ hchart).succ hsettles

/-- Where no font is at the usual paths and everything can be drawn, a report succeeds exactly if
all stages hold.  Otherwise it fails for the first stage that does not hold, whatever becomes of
those behind it. -/
theorem run_ok_iff_stages (hsystem : ∀ path ∈ systemFonts, files.isFile path = false)
    (hdraws : machine.DrawsAll) :
    ((∃ result, ((run machine plan).runOn files fonts).1 = .ok result) ↔
        ∀ stage : Stage, stage.Holds machine plan files fonts) ∧
      ∀ stage : Stage,
        (∀ earlier : Stage, earlier.number < stage.number →
          earlier.Holds machine plan files fonts) →
        ¬ stage.Holds machine plan files fonts →
        ∃ failure, ((run machine plan).runOn files fonts).1 = .error failure ∧
          stage.Blames plan files failure := by
  have hdecides := @run_decides machine plan files fonts hsystem hdraws
  cases hrun : ((run machine plan).runOn files fonts).1 with
  | ok result =>
    rw [hrun] at hdecides
    have hall : ∀ stage : Stage, stage.Holds machine plan files fonts := fun stage =>
      hdecides stage (by cases stage <;> decide)
    exact ⟨iff_of_true ⟨result, rfl⟩ hall, fun stage _ hfails => absurd (hall stage) hfails⟩
  | error failure =>
    rw [hrun] at hdecides
    obtain ⟨first, hpasses, hfails, hblames⟩ := hdecides
    refine ⟨iff_of_false (by simp) fun hall => hfails (hall first), fun stage hbefore hstage => ?_⟩
    obtain rfl : first = stage := by
      rcases Nat.lt_trichotomy first.number stage.number with hlt | hsame | hlt
      · exact absurd (hbefore first hlt) hfails
      · exact Stage.number_injective hsame
      · exact absurd (hpasses stage hlt) hstage
    exact ⟨failure, rfl, hblames⟩

/-- Of a bad bound and a font that is not there, the bound is told. -/
theorem run_ok_iff_stages_bound_and_font :
    let files : FileStore := ⟨[(["a.csv"], .file (.data "0,a,1\n".toUTF8))], []⟩
    let plan : Plan :=
      { Plan.default with input := "a.csv", output := "p.png", summary := some "s.json" }
    let faulty : Plan := { plan with yMax := -1, font := some "f.ttf" }
    let machine := Machine.reference
    (∀ path ∈ systemFonts, files.isFile path = false) ∧ machine.DrawsAll ∧
      (∀ stage : Stage, stage.Holds machine plan files []) ∧
      ∃ failure, ((run machine faulty).runOn files []).1 = .error failure ∧
        Stage.axis.Blames faulty files failure := by
  intro files plan faulty machine
  have hsystem : ∀ path ∈ systemFonts, files.isFile path = false := by decide +kernel
  have hdraws : machine.DrawsAll := Machine.drawsAll_reference
  obtain ⟨result, after, hrun⟩ := @exists_of_isOk _ (run machine plan) files []
    (by decide +kernel)
  have hall : ∀ stage : Stage, stage.Holds machine plan files [] :=
    (run_ok_iff_stages hsystem hdraws).1.1 ⟨result, by rw [hrun]⟩
  refine ⟨hsystem, hdraws, hall, (run_ok_iff_stages hsystem hdraws).2 .axis ?_ ?_⟩
  · -- What is asked for before the range is the same of both plans.
    intro earlier hearlier
    cases earlier with
    | log => exact hall .log
    | cells => exact hall .cells
    | chartParent => exact hall .chartParent
    | summaryParent => exact hall .summaryParent
    | tags => exact hall .tags
    | axis | font | chart | summary => simp [Stage.number] at hearlier
  · intro hholds
    have hpositive : (0 : Float) < -1 := hholds.2
    exact absurd hpositive (by decide +kernel)

/-- It is not enough that a summary can be opened: where its device is full, the report fails
although all else is as it should be. -/
theorem run_not_ok_full_device :
    let files : FileStore :=
      ⟨[(["a.csv"], .file (.data "0,a,1\n".toUTF8)), (["dev"], .directory),
        (["dev", "full"], .file (.data .empty))], []⟩
    let plan : Plan :=
      { Plan.default with
        input := "a.csv", output := "p.png", summary := some Machine.fullDevice }
    let machine := Machine.reference
    (∀ path ∈ systemFonts, files.isFile path = false) ∧ machine.DrawsAll ∧
      (∀ stage : Stage, stage ≠ .summary → stage.Holds machine plan files []) ∧
      files.TakesFile Machine.fullDevice ∧
      ((run machine plan).runOn files []).1.isOk = false := by
  intro files plan machine
  have hsystem : ∀ path ∈ systemFonts, files.isFile path = false := by decide +kernel
  have hdraws : machine.DrawsAll := Machine.drawsAll_reference
  -- On a machine on which there is room, the same report succeeds, and so all stages hold.
  let roomy : Machine := { machine with faults := .none }
  have hroomy : roomy.DrawsAll := ⟨fun _ _ => rfl, fun _ => rfl⟩
  have hdecides := @run_decides roomy plan files [] hsystem hroomy
  obtain ⟨result, hresult⟩ : ∃ result, ((run roomy plan).runOn files []).1 = .ok result :=
    Fallible.exists_of_isOk (by decide +kernel)
  rw [hresult] at hdecides
  have hall : ∀ stage : Stage, stage.Holds roomy plan files [] := fun stage =>
    hdecides stage (by cases stage <;> decide)
  refine ⟨hsystem, hdraws, fun stage hstage => ?_, (hall .summary _ rfl).1, by decide +kernel⟩
  cases stage with
  | summary => exact absurd rfl hstage
  | log => exact hall .log
  | cells => exact hall .cells
  | chartParent => exact hall .chartParent
  | summaryParent => exact hall .summaryParent
  | tags => exact hall .tags
  | axis => exact hall .axis
  | font => exact hall .font
  | chart => exact hall .chart

end

end TimingReport.Report
