import TimingReport.Report.LabelFont

/-!
# Running a report

The measurements of a log are read and put into a table, the boxes of its columns are
drawn, and the chart and the summary are written. Nothing is written before the log has
been read and the output directories have been found. The chart is made in a file of its
own and takes the place of an older one only once it is complete.
-/

namespace TimingReport.Report

open TimingReport.Chart (Font)

/-- What a report works on, and the events so far. -/
structure Session where
  files : FileStore
  fonts : FontCache
  events : List Event

/-- Steps of a report. What they did to the session stays when one of them fails. -/
abbrev Step := ExceptT Failure (StateM Session)

def emit (event : Event) : Step Unit :=
  modify (fun session => { session with events := session.events ++ [event] })

/-- The measurements of the log at a path. -/
def readMeasurements (path : String) : Step (List TimingLog.Measurement) := do
  match (← get).files.read path with
  | .error error => throw (.read path (.unreadable error.message))
  | .ok content =>
    match TimingLog.readLog (.ofBytes content.bytes) with
    | .error fault => throw (.read path fault)
    | .ok measurements =>
      emit (.parsed measurements.length path)
      return measurements

/-- The table of the measurements, with the columns that are plotted. -/
def tabulate (plan : Plan) (measurements : List TimingLog.Measurement) :
    Step TimingTable :=
  match TimingTable.ofMeasurements plan.duplicateRule measurements with
  | .ok table => pure (table.select plan.plots)
  | .error clash => throw (.duplicate clash)

/-- The boxes of the columns that have a value. -/
def boxesOf (table : TimingTable) : List BoxSummary :=
  table.tags.filterMap (fun tag => BoxSummary.ofSamples tag (table.column tag))

/-- Fails if the directory that a file goes into does not exist. -/
def checkParent (path : String) : Step Unit := do
  match Files.parent? path with
  | none => pure ()
  | some parent =>
    if parent = "" || (← get).files.isDirectory parent then pure ()
    else throw (.write path (.missingDirectory parent))

/-- Finds the font for tick labels, if there is one. -/
def findFont (machine : Machine) (path : Option String) : Step (Option Font) := do
  let session ← get
  match searchFont machine.library session.files session.fonts path with
  | .error fault => throw (.draw fault)
  | .ok found =>
    let events := session.events ++ found.events
    set { session with fonts := found.fonts, events }
    return found.font

/-- The directory of a path, in which the chart is made before it is moved there. -/
def stagingDirectory (path : String) : Step Files.Location := do
  let files := (← get).files
  match Files.parent? path with
  | none => return files.workingDirectory
  | some parent =>
    if parent = "" then return files.workingDirectory
    else
      match files.lookup parent with
      | .ok (location, .directory) => return location
      | .ok (_, .file _) => throw (.write path (.system .notADirectory))
      | .error error => throw (.write path (.system error))

/-- Puts a file to a location, in place of one that may be there. -/
def putFile (location : Files.Location) (content : Content) : Step Unit :=
  modify (fun session =>
    { session with files := session.files.put location (.file content) })

/-- Makes an empty file in the directory of a path, under a name that is not taken. -/
def openStaging (path : String) : Step Files.Location := do
  let directory ← stagingDirectory path
  let staging := directory ++ [(← get).files.freshName ".perf-report-" ".png"]
  putFile staging (.data .empty)
  return staging

/-- Fails, and nothing stays of the file in which a chart was made. -/
def discard (staging : Files.Location) (failure : Failure) : Step Unit := do
  modify (fun session => { session with files := session.files.remove staging })
  throw failure

/-- Moves the finished chart onto a path. -/
def placeChart (staging : Files.Location) (path : String) : Step Unit := do
  let session ← get
  match session.files.moveOnto staging path with
  | .error error => discard staging (.write path (.system error))
  | .ok files => set { session with files }

/-- Draws a chart into a file of its own, which is then moved onto a path. -/
def writeChart (machine : Machine) (path : String) (chart : Chart) : Step Unit := do
  let staging ← openStaging path
  match machine.draw chart with
  | .error reason => discard staging (.draw (.library reason))
  | .ok image =>
    match machine.faults.presenting image with
    | some reason => discard staging (.write path (.other reason))
    | none =>
      putFile staging (.picture image)
      placeChart staging path

/-- Draws the chart of some boxes to a path, and tells whether it has tick labels. -/
def drawChart (machine : Machine) (plan : Plan) (boxes : List BoxSummary)
    (path : String) : Step Bool := do
  if boxes.isEmpty then throw (.draw .noColumns)
  match Chart.axisRange boxes plan.axisBound with
  | .error fault => throw (.draw (.range fault))
  | .ok range =>
    let font ← findFont machine plan.font
    let (width, height) := plan.imageSize
    emit (.rendering width height range.low range.high boxes.length)
    writeChart machine path (.ofBoxes machine.library plan range font boxes)
    return font.isSome

/-- Writes the summary, in place of a file that may be there, or the part of it that can
be written. -/
def saveSummary (machine : Machine) (path : String) (result : Result) : Step Unit := do
  match machine.faults.serializing result with
  | some reason => throw (.write path (.other reason))
  | none =>
    let text := result.summaryText.toUTF8
    let cut? := machine.faults.saving path text
    let written := cut?.elim text (CutOff.rest · text)
    let session ← get
    match session.files.write path (.data written) with
    | .error error => throw (.write path (.system error))
    | .ok files =>
      set { session with files }
      cut?.forM fun cut => throw (.write path (.other cut.reason))

/-- Reads the log of a plan and writes its chart. -/
def plotLog (machine : Machine) (plan : Plan) : Step Result := do
  emit (.loading plan.input)
  let measurements ← readMeasurements plan.input
  let table ← tabulate plan measurements
  emit (.pivoted measurements.length table.rowCount table.columnCount)
  let boxes := boxesOf table
  checkParent plan.output
  plan.summary.forM checkParent
  let labeled ← drawChart machine plan boxes plan.output
  emit (.wroteChart plan.output boxes.length)
  return {
    input := plan.input
    output := plan.output
    rows := table.rowCount
    tags := boxes.map BoxSummary.tag
    axisBound := plan.axisBound
    labeled
    boxes }

/-- Carries out a plan: the chart first, then the summary if there is one. -/
def run (machine : Machine) (plan : Plan) : Step Result := do
  let result ← plotLog machine plan
  plan.summary.forM fun path => do
    saveSummary machine path result
    emit (.wroteSummary path)
  return result

/-- A step run on some files and fonts: its result, and the session that it leaves. -/
def Step.runOn {α : Type} (step : Step α) (files : FileStore) (fonts : FontCache) :
    Except Failure α × Session :=
  step.run.run ⟨files, fonts, []⟩

end TimingReport.Report
