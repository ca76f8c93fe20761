import TimingReport.Proofs.Chart.Png
import TimingReport.Proofs.Chart.Size
import TimingReport.Proofs.Report.Verdict

/-!
# The course of a report

The equations below give the outcome, the files, the fonts and the events of a report as
functions of the files and fonts that it began with: what it says before its font, what comes of
its font, and how it ends once it has begun to draw.
-/

namespace TimingReport.Report

open Step
open Chart (Font Image)
open Files (Location)
open Files.Store (Placed)

/-! ## The chart -/

theorem exec_drawChart (machine : Machine) (plan : Plan) (boxes : List BoxSummary)
    (path : String) (session : Session) :
    (drawChart machine plan boxes path).exec session =
      match ranged plan boxes with
      | .error failure => (.error failure, session)
      | .ok range =>
        match fontFound machine session.files session.fonts plan.font with
        | .error failure => (.error failure, session)
        | .ok found =>
          let begun : Session :=
            { session with
              fonts := found.fonts
              events := session.events ++ found.events ++
                [.rendering plan.imageSize.1 plan.imageSize.2 range.low range.high
                  boxes.length] }
          match pictured machine session.files path
              (.ofBoxes machine.library plan range found.font boxes) with
          | .error failure => (.error failure, begun)
          | .ok (location, image) =>
            (.ok found.font.isSome,
              { begun with
                files := session.files.put location (.file (.picture image)) }) := by
  rw [drawChart, ranged]
  cases boxes.isEmpty with
  | true => rfl
  | false =>
    simp only [Bool.false_eq_true, if_false]
    cases Chart.axisRange boxes plan.axisBound with
    | error fault => rfl
    | ok range =>
      change (findFont machine plan.font >>= _).exec session = _
      rw [exec_bind, exec_findFont_eq]
      dsimp only [Except.mapError]
      cases fontFound machine session.files session.fonts plan.font with
      | error failure => rfl
      | ok found =>
        dsimp only
        rw [exec_bind_of_ok (exec_emit _ _), exec_bind, exec_writeChart]
        dsimp only
        cases pictured machine session.files path
          (.ofBoxes machine.library plan range found.font boxes) <;> rfl

/-! ## Before the font -/

/-- What a report says before it looks for its font. -/
def openingEvents (plan : Plan) (files : FileStore) : List Event :=
  .loading plan.input ::
    match measured files plan.input with
    | .error _ => []
    | .ok measurements =>
      .parsed measurements.length plan.input ::
        match tabulated plan measurements with
        | .error _ => []
        | .ok table => [.pivoted measurements.length table.rowCount table.columnCount]

/-- The session of a report that has said what it says before it looks for its font. -/
def Session.opened (plan : Plan) (session : Session) : Session :=
  { session with events := session.events ++ openingEvents plan session.files }

/-- A log is plotted by drawing the boxes of its draft. -/
theorem exec_plotLog_eq (machine : Machine) (plan : Plan) (session : Session) :
    (plotLog machine plan).exec session =
      match drafted plan session.files with
      | .error failure => (.error failure, session.opened plan)
      | .ok draft =>
        match (drawChart machine plan draft.boxes plan.output).exec
            (session.opened plan) with
        | (.error failure, after) => (.error failure, after)
        | (.ok labeled, after) =>
          (.ok
            { input := plan.input
              output := plan.output
              rows := draft.table.rowCount
              tags := draft.boxes.map BoxSummary.tag
              axisBound := plan.axisBound
              labeled
              boxes := draft.boxes },
            { after with
              events := after.events ++ [.wroteChart plan.output draft.boxes.length] }) := by
  -- A plot looks at the same things as a draft and in the same order, so both stop at the same
  -- place.
  dsimp only [drafted, bind, Except.bind]
  rw [plotLog, exec_bind_of_ok (exec_emit _ _), exec_bind, exec_readMeasurements_eq,
    Session.opened, openingEvents]
  dsimp only
  cases measured session.files plan.input with
  | error failure => rfl
  | ok measurements =>
    dsimp only
    rw [exec_bind, exec_tabulate_eq]
    cases tabulated plan measurements with
    | error failure => simp
    | ok table =>
      dsimp only
      rw [exec_bind_of_ok (exec_emit _ _), exec_bind, exec_checkParent_eq]
      simp only [List.append_assoc, List.cons_append, List.nil_append]
      cases parentFound session.files plan.output with
      | error failure => rfl
      | ok _ =>
        dsimp only
        rw [exec_bind, exec_forM_checkParent]
        cases plan.summary.forM (parentFound session.files) with
        | error failure => rfl
        | ok _ =>
          dsimp only
          rw [exec_bind]
          cases hrange : ranged plan (boxesOf table) with
          | error failure => rw [exec_drawChart, hrange]
          | ok range =>
            dsimp only [pure, Except.pure, Draft.boxes]
            generalize (drawChart machine plan (boxesOf table) plan.output).exec _ = drawn
            rcases drawn with ⟨failure | labeled, after⟩ <;> rfl

/-! ## Behind the font -/

/-- How a report ends: its outcome, the files that it leaves and what it says last. -/
structure Ending where
  outcome : Except Failure Result
  files : FileStore
  events : List Event

/-- How a plot ends once it has begun to draw. -/
def plotEnding (machine : Machine) (plan : Plan) (files : FileStore) (sketch : Sketch) :
    Ending :=
  match pictured machine files plan.output (sketch.chart machine plan) with
  | .error failure => ⟨.error failure, files, []⟩
  | .ok (location, image) =>
    ⟨.ok (sketch.result plan), files.put location (.file (.picture image)),
      [.wroteChart plan.output sketch.boxes.length]⟩

/-- How a report ends once it has begun to draw. -/
def ending (machine : Machine) (plan : Plan) (files : FileStore) (sketch : Sketch) :
    Ending :=
  let plot := plotEnding machine plan files sketch
  match plot.outcome with
  | .error _ => plot
  | .ok result =>
    match plan.summary with
    | none => plot
    | some summary =>
      match saved machine plot.files summary result with
      | (.error failure, after) => ⟨.error failure, after, plot.events⟩
      | (.ok _, after) => ⟨.ok result, after, plot.events ++ [.wroteSummary summary]⟩

/-- The session of a report that has found its font and comes to an end. -/
def Session.ended (session : Session) (plan : Plan) (draft : Draft) (found : FontSearch)
    (last : Ending) : Session where
  files := last.files
  fonts := found.fonts
  events := (session.opened plan).events ++ found.events ++
    [.rendering plan.imageSize.1 plan.imageSize.2 draft.range.low draft.range.high
      draft.boxes.length] ++ last.events

/-- A plot that has its draft looks for its font and goes on to its ending. -/
theorem exec_plotLog (machine : Machine) (plan : Plan) (session : Session) :
    (plotLog machine plan).exec session =
      match drafted plan session.files with
      | .error failure => (.error failure, session.opened plan)
      | .ok draft =>
        match fontFound machine session.files session.fonts plan.font with
        | .error failure => (.error failure, session.opened plan)
        | .ok found =>
          let last := plotEnding machine plan session.files (draft.sketch found.font)
          (last.outcome, session.ended plan draft found last) := by
  rw [exec_plotLog_eq]
  cases hdraft : drafted plan session.files with
  | error failure => rfl
  | ok draft =>
    obtain ⟨-, -, -, -, hrange⟩ := drafted_ok_iff.1 hdraft
    dsimp only
    rw [exec_drawChart, hrange]
    dsimp only [Session.opened]
    cases fontFound machine session.files session.fonts plan.font with
    | error failure => rfl
    | ok found =>
      dsimp only
      rw [plotEnding]
      dsimp only [Sketch.chart, Sketch.boxes, Draft.sketch]
      cases pictured machine session.files plan.output
          (.ofBoxes machine.library plan draft.range found.font draft.boxes) with
      | error failure => simp [Session.ended, Session.opened]
      | ok placed => simp [Session.ended, Session.opened, Sketch.result, Sketch.boxes]

/-- A report that has its draft looks for its font and goes on to its ending. -/
theorem exec_run_eq (machine : Machine) (plan : Plan) (session : Session) :
    (run machine plan).exec session =
      match drafted plan session.files with
      | .error failure => (.error failure, session.opened plan)
      | .ok draft =>
        match fontFound machine session.files session.fonts plan.font with
        | .error failure => (.error failure, session.opened plan)
        | .ok found =>
          let last := ending machine plan session.files (draft.sketch found.font)
          (last.outcome, session.ended plan draft found last) := by
  rw [exec_run, exec_plotLog]
  cases drafted plan session.files with
  | error failure => rfl
  | ok draft =>
    dsimp only
    cases fontFound machine session.files session.fonts plan.font with
    | error failure => rfl
    | ok found =>
      dsimp only
      rw [ending]
      generalize plotEnding machine plan session.files (draft.sketch found.font) = plot
      obtain ⟨failure | result, files, events⟩ := plot
      · rfl
      · cases plan.summary with
        | none => rfl
        | some summary =>
          dsimp only [Session.ended]
          rcases saved machine files summary result with ⟨failure | _, after⟩
          · rfl
          · simp

/-! ## The picture -/

/-- The image is what the machine draws for some boxes, with tick labels if there is a font. -/
def Pictures (machine : Machine) (plan : Plan) (font : Option Font) (boxes : List BoxSummary)
    (image : Image) : Prop :=
  ∃ range, Chart.axisRange boxes plan.axisBound = .ok range ∧
    machine.draw (.ofBoxes machine.library plan range font boxes) = .ok image

namespace Pictures

variable {machine : Machine} {plan : Plan} {font : Option Font} {boxes : List BoxSummary}
  {image : Image}

theorem unique (hpictures : Pictures machine plan font boxes image) {other : Image}
    (hother : Pictures machine plan font boxes other) : image = other := by
  obtain ⟨range, hrange, hdraw⟩ := hpictures
  obtain ⟨otherRange, hotherRange, hotherDraw⟩ := hother
  obtain rfl : range = otherRange := Except.ok.inj (hrange.symm.trans hotherRange)
  exact Except.ok.inj (hdraw.symm.trans hotherDraw)

theorem size_eq (hpictures : Pictures machine plan font boxes image) :
    (image.width, image.height) = plan.imageSize := by
  obtain ⟨range, -, hdraw⟩ := hpictures
  obtain ⟨-, rfl⟩ := Machine.draw_ok_iff.1 hdraw
  obtain ⟨hwidth, hheight⟩ := Chart.size_image
    (.ofBoxes machine.library plan range font boxes) machine.library
  rw [hwidth, hheight]
  rfl

/-- The file of the picture is a PNG file that can be read again. -/
theorem decode_eq (hpictures : Pictures machine plan font boxes image) :
    Chart.Png.decode (Content.picture image).bytes = some image.raster := by
  have hsize := hpictures.size_eq
  rw [Plan.imageSize, Prod.mk.injEq] at hsize
  exact Chart.Png.decode_encode (hsize.1 ▸ Chart.pixels_bounds plan _)
    (hsize.2 ▸ Chart.pixels_bounds plan _)

end Pictures

/-- A chart that is put into place is the picture of its draft. -/
theorem pictures_of_pictured {machine : Machine} {plan : Plan} {files : FileStore}
    {draft : Draft} {font : Option Font} {location : Location} {image : Image}
    (hdraft : drafted plan files = .ok draft)
    (hpictured : pictured machine files plan.output ((draft.sketch font).chart machine plan) =
      .ok (location, image)) :
    Pictures machine plan font draft.boxes image ∧
      Placed (.picture image) plan.output files
        (files.put location (.file (.picture image))) := by
  obtain ⟨hlocation, hdrawn⟩ := pictured_ok_iff.1 hpictured
  obtain ⟨-, -, -, -, hrange⟩ := drafted_ok_iff.1 hdraft
  exact ⟨⟨_, axisRange_of_ranged hrange, (drawn_ok_iff.1 hdrawn).1⟩,
    placed_of_chartLocation hlocation _⟩

/-- The ways in which a report ends that has begun to draw. -/
inductive Ends (machine : Machine) (plan : Plan) (files : FileStore) (sketch : Sketch) :
    Ending → Prop where
  | notPictured {failure : Failure}
    (hpictured : pictured machine files plan.output (sketch.chart machine plan) =
      .error failure) :
    Ends machine plan files sketch ⟨.error failure, files, []⟩
  | charted {location : Location} {image : Image}
    (hpictured : pictured machine files plan.output (sketch.chart machine plan) =
      .ok (location, image))
    (hsummary : plan.summary = none) :
    Ends machine plan files sketch
      ⟨.ok (sketch.result plan), files.put location (.file (.picture image)),
        [.wroteChart plan.output sketch.boxes.length]⟩
  | notSaved {location : Location} {image : Image} {summary : String} {failure : Failure}
    {after : FileStore}
    (hpictured : pictured machine files plan.output (sketch.chart machine plan) =
      .ok (location, image))
    (hsummary : plan.summary = some summary)
    (hsaves : Saves machine (files.put location (.file (.picture image))) summary
      (sketch.result plan) (.error failure, after)) :
    Ends machine plan files sketch
      ⟨.error failure, after, [.wroteChart plan.output sketch.boxes.length]⟩
  | saved {location : Location} {image : Image} {summary : String} {after : FileStore}
    (hpictured : pictured machine files plan.output (sketch.chart machine plan) =
      .ok (location, image))
    (hsummary : plan.summary = some summary)
    (hsaves : Saves machine (files.put location (.file (.picture image))) summary
      (sketch.result plan) (.ok (), after)) :
    Ends machine plan files sketch
      ⟨.ok (sketch.result plan), after,
        [.wroteChart plan.output sketch.boxes.length, .wroteSummary summary]⟩

theorem ends_ending (machine : Machine) (plan : Plan) (files : FileStore)
    (sketch : Sketch) :
    Ends machine plan files sketch (ending machine plan files sketch) := by
  rw [ending, plotEnding]
  cases hpictured : pictured machine files plan.output (sketch.chart machine plan) with
  | error failure => exact .notPictured hpictured
  | ok placed =>
    obtain ⟨location, image⟩ := placed
    cases hsummary : plan.summary with
    | none => exact .charted hpictured hsummary
    | some summary =>
      dsimp only
      have hsaves := saves_saved machine (files.put location (.file (.picture image)))
        summary (sketch.result plan)
      rcases hsaved : saved machine (files.put location (.file (.picture image))) summary
        (sketch.result plan) with ⟨failure | _, after⟩
      · rw [hsaved] at hsaves
        exact .notSaved hpictured hsummary hsaves
      · rw [hsaved] at hsaves
        exact .saved hpictured hsummary hsaves

/-- A report stops before it has found its font, or goes on to its ending. -/
theorem runOn_cases (machine : Machine) (plan : Plan) (files : FileStore)
    (fonts : FontCache) :
    (∃ failure, sketched machine plan files fonts = .error failure ∧
      (run machine plan).runOn files fonts =
        (.error failure, ⟨files, fonts, openingEvents plan files⟩)) ∨
      ∃ draft found, drafted plan files = .ok draft ∧
        fontFound machine files fonts plan.font = .ok found ∧
        ∃ last, Ends machine plan files (draft.sketch found.font) last ∧
          (run machine plan).runOn files fonts =
            (last.outcome, Session.ended ⟨files, fonts, []⟩ plan draft found last) := by
  rw [runOn_eq_exec, exec_run_eq, sketched]
  dsimp only
  cases drafted plan files with
  | error failure => exact .inl ⟨failure, rfl, rfl⟩
  | ok draft =>
    cases hfound : fontFound machine files fonts plan.font with
    | error failure => exact .inl ⟨failure, rfl, rfl⟩
    | ok found => exact .inr ⟨draft, found, rfl, rfl, _, ends_ending .., rfl⟩

/-- A report that succeeds has the result of its sketch. -/
theorem sketch_of_run {machine : Machine} {plan : Plan} {files : FileStore}
    {fonts : FontCache} {result : Result} {after : Session}
    (hrun : (run machine plan).runOn files fonts = (.ok result, after)) :
    ∃ sketch, sketched machine plan files fonts = .ok sketch ∧
      result = sketch.result plan := by
  rcases runOn_cases machine plan files fonts with
    ⟨failure, -, hfails⟩ | ⟨draft, found, hdraft, hfound, last, hends, hended⟩
  · rw [hfails] at hrun
    cases hrun
  · refine ⟨draft.sketch found.font, sketched_ok_iff.2 ⟨hdraft, found, hfound, rfl⟩, ?_⟩
    rw [hended] at hrun
    cases hends with
    | notPictured | notSaved => cases hrun
    | charted | saved => exact (Except.ok.inj (Prod.mk.inj hrun).1).symm

theorem exists_of_isOk {α : Type} {step : Step α} {files : FileStore} {fonts : FontCache}
    (hfinishes : (step.runOn files fonts).1.isOk = true) :
    ∃ value after, step.runOn files fonts = (.ok value, after) := by
  obtain ⟨value, hvalue⟩ := Fallible.exists_of_isOk hfinishes
  exact ⟨value, (step.runOn files fonts).2, Prod.ext hvalue rfl⟩

end TimingReport.Report
