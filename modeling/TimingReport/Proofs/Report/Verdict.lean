import TimingReport.Proofs.Report.Placing

/-!
# What is known before a chart is written

Until its chart is written, a report only looks at its files and fonts, so what it comes to is a
function of these.  It looks at its log, its directories and its axis without a thought of fonts,
and only then it looks for its font.
-/

namespace TimingReport.Report

open Step
open Chart (Font)

/-! ## The steps before the chart -/

/-- The measurements of the log at a path. -/
def measured (files : FileStore) (path : String) :
    Except Failure (List TimingLog.Measurement) :=
  match files.read path with
  | .error error => .error (.read path (.unreadable error.message))
  | .ok content => (TimingLog.readLog (.ofBytes content.bytes)).mapError (.read path)

theorem exec_readMeasurements_eq (path : String) (session : Session) :
    (readMeasurements path).exec session =
      match measured session.files path with
      | .error failure => (.error failure, session)
      | .ok measurements =>
        (.ok measurements,
          { session with
            events := session.events ++ [.parsed measurements.length path] }) := by
  rw [exec_readMeasurements, measured]
  cases session.files.read path with
  | error error => rfl
  | ok content =>
    dsimp only
    cases TimingLog.readLog (.ofBytes content.bytes) <;> rfl

/-- The columns that are plotted. -/
def tabulated (plan : Plan) (measurements : List TimingLog.Measurement) :
    Except Failure TimingTable :=
  match TimingTable.ofMeasurements plan.duplicateRule measurements with
  | .ok table => .ok (table.select plan.plots)
  | .error clash => .error (.duplicate clash)

theorem exec_tabulate_eq (plan : Plan) (measurements : List TimingLog.Measurement)
    (session : Session) :
    (tabulate plan measurements).exec session = (tabulated plan measurements, session) := by
  rw [exec_tabulate, tabulated]
  cases TimingTable.ofMeasurements plan.duplicateRule measurements <;> rfl

/-- Whether the directory that a file goes into is there. -/
def parentFound (files : FileStore) (path : String) : Except Failure Unit :=
  match missingParent? files path with
  | none => .ok ()
  | some parent => .error (.write path (.missingDirectory parent))

theorem parentFound_ok_iff {files : FileStore} {path : String} :
    parentFound files path = .ok () ↔ missingParent? files path = none := by
  rw [parentFound]
  cases missingParent? files path <;> simp

theorem exec_checkParent_eq (path : String) (session : Session) :
    (checkParent path).exec session = (parentFound session.files path, session) := by
  rw [exec_checkParent, parentFound]
  cases missingParent? session.files path <;> rfl

theorem exec_forM_checkParent (path : Option String) (session : Session) :
    (path.forM checkParent).exec session =
      (path.forM (parentFound session.files), session) := by
  cases path with
  | none => rfl
  | some path => exact exec_checkParent_eq path session

/-- The range of the vertical axis for the boxes that are plotted. -/
def ranged (plan : Plan) (boxes : List BoxSummary) : Except Failure Chart.Range :=
  if boxes.isEmpty then .error (.draw .noColumns)
  else (Chart.axisRange boxes plan.axisBound).mapError (fun fault => .draw (.range fault))

theorem axisRange_of_ranged {plan : Plan} {boxes : List BoxSummary} {range : Chart.Range}
    (hrange : ranged plan boxes = .ok range) :
    Chart.axisRange boxes plan.axisBound = .ok range := by
  rw [ranged] at hrange
  split at hrange
  · cases hrange
  · exact Fallible.mapError_ok_iff.1 hrange

/-- What comes of looking for the font of the tick labels. -/
def fontFound (machine : Machine) (files : FileStore) (fonts : FontCache)
    (path : Option String) : Except Failure FontSearch :=
  (searchFont machine.library files fonts path).mapError .draw

theorem exec_findFont_eq (machine : Machine) (path : Option String) (session : Session) :
    (findFont machine path).exec session =
      match fontFound machine session.files session.fonts path with
      | .error failure => (.error failure, session)
      | .ok found =>
        (.ok found.font,
          { session with
            fonts := found.fonts
            events := session.events ++ found.events }) := by
  rw [exec_findFont, fontFound]
  cases searchFont machine.library session.files session.fonts path <;> rfl

/-! ## What a report knows -/

/-- What a report knows when it begins to look for its font. -/
structure Draft where
  measurements : List TimingLog.Measurement
  table : TimingTable
  range : Chart.Range

def Draft.boxes (draft : Draft) : List BoxSummary := boxesOf draft.table

/-- What a report knows when it begins to write its chart. -/
structure Sketch extends Draft where
  font : Option Font

def Draft.sketch (draft : Draft) (font : Option Font) : Sketch := { draft with font }

namespace Sketch

def boxes (sketch : Sketch) : List BoxSummary := sketch.toDraft.boxes

/-- The result of a report that comes to its end from here. -/
def result (plan : Plan) (sketch : Sketch) : Result where
  input := plan.input
  output := plan.output
  rows := sketch.table.rowCount
  tags := sketch.boxes.map BoxSummary.tag
  axisBound := plan.axisBound
  labeled := sketch.font.isSome
  boxes := sketch.boxes

/-- The chart of a report with a sketch. -/
def chart (machine : Machine) (plan : Plan) (sketch : Sketch) : Chart :=
  .ofBoxes machine.library plan sketch.range sketch.font sketch.boxes

end Sketch

/-- What is known before the font is looked for, or why it is never looked for. -/
def drafted (plan : Plan) (files : FileStore) : Except Failure Draft := do
  let measurements ← measured files plan.input
  let table ← tabulated plan measurements
  parentFound files plan.output
  plan.summary.forM (parentFound files)
  let range ← ranged plan (boxesOf table)
  return ⟨measurements, table, range⟩

/-- What is known before the chart is written, or why it is never written. -/
def sketched (machine : Machine) (plan : Plan) (files : FileStore) (fonts : FontCache) :
    Except Failure Sketch := do
  let draft ← drafted plan files
  let found ← fontFound machine files fonts plan.font
  return draft.sketch found.font

theorem drafted_ok_iff {plan : Plan} {files : FileStore} {draft : Draft} :
    drafted plan files = .ok draft ↔
      measured files plan.input = .ok draft.measurements ∧
        tabulated plan draft.measurements = .ok draft.table ∧
        parentFound files plan.output = .ok () ∧
        plan.summary.forM (parentFound files) = .ok () ∧
        ranged plan draft.boxes = .ok draft.range := by
  simp only [drafted, bind, Fallible.bind_ok_iff, pure, Except.pure, Except.ok.injEq]
  constructor
  · rintro ⟨measurements, hlog, table, htable, _, houtput, _, hsummary, range, hrange, rfl⟩
    exact ⟨hlog, htable, houtput, hsummary, hrange⟩
  · rintro ⟨hlog, htable, houtput, hsummary, hrange⟩
    exact ⟨_, hlog, _, htable, _, houtput, _, hsummary, _, hrange, rfl⟩

theorem sketched_ok_iff {machine : Machine} {plan : Plan} {files : FileStore}
    {fonts : FontCache} {sketch : Sketch} :
    sketched machine plan files fonts = .ok sketch ↔
      drafted plan files = .ok sketch.toDraft ∧
        ∃ found, fontFound machine files fonts plan.font = .ok found ∧
          found.font = sketch.font := by
  simp only [sketched, bind, Fallible.bind_ok_iff, pure, Except.pure, Except.ok.injEq]
  constructor
  · rintro ⟨draft, hdraft, found, hfound, rfl⟩
    exact ⟨hdraft, found, hfound, rfl⟩
  · rintro ⟨hdraft, found, hfound, hfont⟩
    exact ⟨_, hdraft, found, hfound, by rw [Draft.sketch, hfont]⟩

theorem measured_ok_iff {files : FileStore} {path : String}
    {measurements : List TimingLog.Measurement} :
    measured files path = .ok measurements ↔ ∃ content, files.read path = .ok content ∧
      TimingLog.readLog (.ofBytes content.bytes) = .ok measurements := by
  rw [measured]
  cases files.read path with
  | error error => simp
  | ok content => simp [Fallible.mapError_ok_iff]

theorem tabulated_ok_iff {plan : Plan} {measurements : List TimingLog.Measurement}
    {table : TimingTable} :
    tabulated plan measurements = .ok table ↔
      ∃ whole, TimingTable.ofMeasurements plan.duplicateRule measurements = .ok whole ∧
        whole.select plan.plots = table := by
  rw [tabulated]
  cases TimingTable.ofMeasurements plan.duplicateRule measurements <;> simp

end TimingReport.Report
