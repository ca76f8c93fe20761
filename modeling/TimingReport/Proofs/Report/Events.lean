import TimingReport.Proofs.Report.Success

/-!
# What the events of a report tell

A report says each thing when it has done it.  Its events are those of a report that succeeds, up
to the place where it fails, and they can be replayed: every change of a file or of the loaded
fonts is told by the event that belongs to it, and the other events change nothing.  Only of a
summary that is broken off nothing is said.
-/

namespace TimingReport.Report

open Step
open TimingReport.Chart (Font Image)
open Files (Location)
open Files.Store (Placed)
open TimingReport.TimingLog (Measurement)
open TimingTable

/-- The tags of the measurements that a plan keeps. -/
def plottedTags (plan : Plan) (measurements : List Measurement) : Finset String :=
  (measurements.map Measurement.tag).toFinset.filter fun tag => plan.plots tag = true

/-- The files and the loaded fonts, which are all that a report changes. -/
structure World where
  files : FileStore
  fonts : FontCache

section

variable (machine : Machine) (plan : Plan) (files : FileStore) (fonts : FontCache)
  (outcome : Except Failure Result)

/-- What an event says of a report with this plan, files, fonts and outcome is true, and so is what
it says to have changed. -/
inductive Event.IsTrue : Event → World → World → Prop
  | loading {world : World} : IsTrue (.loading plan.input) world world
  | parsed {measurements : List Measurement} {world : World}
    (hlog : HasLog plan files measurements) :
    IsTrue (.parsed measurements.length plan.input) world world
  | pivoted {measurements : List Measurement} {world : World}
    (hlog : HasLog plan files measurements) :
    IsTrue
      (.pivoted measurements.length (measuredIndices measurements).card
        (plottedTags plan measurements).card) world world
  | skippedFont {path : String} {fault : DrawFault} (hfont : plan.font = none)
    (hpath : path ∈ systemFonts) (hfile : files.isFile path = true)
    (hregisters : Registers machine.library files fonts path (.error fault)) :
    IsTrue (.skippedFont path (Failure.draw fault).message) ⟨files, fonts⟩ ⟨files, fonts⟩
  | registeredFont {before : List String} {path : String} {content : Content}
    (hgets : GetsTo machine.library files fonts plan.font before path)
    (hnew : Files.pathKey path ∉ fonts.keys) (hread : files.read path = .ok content)
    (hfont : machine.library.isFont content.bytes = true) :
    IsTrue (.registeredFont path fonts.nextFamily) ⟨files, fonts⟩
      ⟨files, fonts ++ [⟨Files.pathKey path, ⟨fonts.nextFamily, content.bytes⟩⟩]⟩
  | noFont (hfont : plan.font = none) (huseless : Useless machine.library files fonts systemFonts) :
    IsTrue .noFont ⟨files, fonts⟩ ⟨files, fonts⟩
  | rendering {measurements : List Measurement} {range : Chart.Range} {world : World}
    (hlog : HasLog plan files measurements)
    (hrange : Chart.axisRange (plottedBoxes plan measurements) plan.axisBound = .ok range) :
    IsTrue
      (.rendering plan.imageSize.1 plan.imageSize.2 range.low range.high
        (plottedBoxes plan measurements).length) world world
  | wroteChart {measurements : List Measurement} {found : FontSearch} {image : Image}
    {charted : FileStore} (hlog : HasLog plan files measurements)
    (hsearch : searchFont machine.library files fonts plan.font = .ok found)
    (hpictures : Pictures machine plan found.font (plottedBoxes plan measurements) image)
    (hdecodes : Chart.Png.decode (Content.picture image).bytes = some image.raster)
    (hplaced : Placed (.picture image) plan.output files charted) :
    IsTrue (.wroteChart plan.output (plottedBoxes plan measurements).length)
      ⟨files, found.fonts⟩ ⟨charted, found.fonts⟩
  | wroteSummary {summary : String} {result : Result} {charted finished : FileStore}
    {loaded : FontCache} (hsummary : plan.summary = some summary) (hresult : outcome = .ok result)
    (hplaced : Placed (.data result.summaryText.toUTF8) summary charted finished) :
    IsTrue (.wroteSummary summary) ⟨charted, loaded⟩ ⟨finished, loaded⟩

/-- The events lead from one state of files and fonts to another, each of them by what it says. -/
inductive Replays : List Event → World → World → Prop
  | nil {world : World} : Replays [] world world
  | cons {event : Event} {events : List Event} {before between after : World} :
    event.IsTrue machine plan files fonts outcome before between → Replays events between after →
    Replays (event :: events) before after

/-- What a report says of the font that it finds, or of its going without one. -/
inductive SaysOfFont : List String → Prop
  | cached {before : List String} {path : String}
    (hgets : GetsTo machine.library files fonts plan.font before path)
    (hcached : Files.pathKey path ∈ fonts.keys) :
    SaysOfFont ((before.filter files.isFile).map fun _ => "skipping unusable font")
  | registered {before : List String} {path : String}
    (hgets : GetsTo machine.library files fonts plan.font before path)
    (hnew : Files.pathKey path ∉ fonts.keys) (hfont : HasFont machine.library files path) :
    SaysOfFont (((before.filter files.isFile).map fun _ => "skipping unusable font") ++
      ["registered label font"])
  | without (hfont : plan.font = none)
    (huseless : Useless machine.library files fonts systemFonts) :
    SaysOfFont (((systemFonts.filter files.isFile).map fun _ => "skipping unusable font") ++
      ["no label font found; drawing chart without tick labels"])

end

/-- What a report says before it looks for its font. -/
def openingMessages : List String :=
  ["loading timing log", "parsed timing log", "pivoted timing log"]

/-- What a report says once its chart is drawn. -/
def closingMessages (plan : Plan) : List String :=
  "wrote boxplot" :: (plan.summary.map fun _ => "wrote summary").toList

/-- What a report says that succeeds, with what it says of its font. -/
def allMessages (plan : Plan) (ofFont : List String) : List String :=
  openingMessages ++ (ofFont ++ ("rendering boxplot" :: closingMessages plan))

/-- The report has failed as the text of its summary was broken off, and that is all that
has changed. -/
def BreaksOff (machine : Machine) (plan : Plan) (outcome : Except Failure Result)
    (before after : FileStore) : Prop :=
  ∃ summary text cut, plan.summary = some summary ∧
    machine.faults.saving summary text = some cut ∧
    outcome = .error (.write summary (.other cut.reason)) ∧
    Placed (.data (cut.rest text)) summary before after

section

variable {machine : Machine} {plan : Plan} {files : FileStore} {fonts : FontCache}
  {outcome : Except Failure Result}

/-! ## Replaying -/

theorem Replays.append {first second : List Event} {before between after : World}
    (hfirst : Replays machine plan files fonts outcome first before between)
    (hsecond : Replays machine plan files fonts outcome second between after) :
    Replays machine plan files fonts outcome (first ++ second) before after := by
  induction hfirst with
  | nil => exact hsecond
  | cons htrue _ ih => exact .cons htrue (ih hsecond)

theorem Event.IsTrue.replays {event : Event} {before after : World}
    (htrue : event.IsTrue machine plan files fonts outcome before after) :
    Replays machine plan files fonts outcome [event] before after := .cons htrue .nil

/-! ## Before the font -/

theorem columnCount_tabulated {measurements : List Measurement} {table : TimingTable}
    (htable : tabulated plan measurements = .ok table) :
    table.columnCount = (plottedTags plan measurements).card := by
  obtain ⟨whole, hwhole, rfl⟩ := tabulated_ok_iff.1 htable
  obtain ⟨cells, hfills⟩ := exists_fills_of_ofMeasurements hwhole
  have hnodup : (whole.tags.filter plan.plots).Nodup := by
    rw [hfills.tags_eq]
    exact ((Table.ascending_sortedKeys _).imp ne_of_lt).filter _
  rw [columnCount, select, ← List.toFinset_card_of_nodup hnodup]
  congr 1
  ext tag
  simp [plottedTags, hfills.tags_eq, Table.mem_sortedKeys]

theorem replays_openingEvents (machine : Machine) (plan : Plan) (files : FileStore)
    (fonts : FontCache) (outcome : Except Failure Result) (world : World) :
    Replays machine plan files fonts outcome (openingEvents plan files) world world := by
  refine .cons .loading ?_
  cases hmeasured : measured files plan.input with
  | error failure => exact .nil
  | ok measurements =>
    have hlog : HasLog plan files measurements := measured_ok_iff.1 hmeasured
    refine .cons (.parsed hlog) ?_
    cases htable : tabulated plan measurements with
    | error failure => exact .nil
    | ok table =>
      dsimp only
      rw [rowCount_tabulated htable, columnCount_tabulated htable]
      exact (Event.IsTrue.pivoted hlog).replays

theorem openingEvents_messages (plan : Plan) (files : FileStore) :
    (openingEvents plan files).map Event.message <+: openingMessages := by
  rw [openingEvents]
  cases measured files plan.input with
  | error failure => exact ⟨_, rfl⟩
  | ok measurements =>
    dsimp only
    cases tabulated plan measurements <;> exact ⟨_, rfl⟩

theorem openingEvents_messages_of_drafted {draft : Draft}
    (hdraft : drafted plan files = .ok draft) :
    (openingEvents plan files).map Event.message = openingMessages := by
  obtain ⟨hmeasured, htable, -⟩ := drafted_ok_iff.1 hdraft
  rw [openingEvents, hmeasured]
  dsimp only
  rw [htable]
  rfl

/-! ## The font -/

theorem GetsTo.useless {font : Option String} {before : List String} {path : String}
    (hgets : GetsTo machine.library files fonts font before path) :
    Useless machine.library files fonts before := by
  cases hgets with
  | named => exact fun _ hmem => absurd hmem List.not_mem_nil
  | usual hpaths huseless hfile => exact huseless

/-- Of every file that is passed over it is said that it is skipped. -/
theorem map_message_skips {paths : List String}
    (huseless : Useless machine.library files fonts paths) :
    (paths.filterMap (skipEvent? machine.library files fonts)).map Event.message =
      (paths.filter files.isFile).map fun _ => "skipping unusable font" := by
  induction paths with
  | nil => rfl
  | cons path rest ih =>
    obtain ⟨hpath, hrest⟩ := List.forall_mem_cons.1 huseless
    rw [List.filterMap_cons, List.filter_cons, skipEvent?]
    cases hfile : files.isFile path with
    | false => simpa using ih hrest
    | true =>
      obtain ⟨fault, hfault⟩ := exists_register_error (hpath hfile)
      simpa [hfault, Event.message] using ih hrest

theorem replays_skips {paths : List String} (hfont : plan.font = none)
    (hpaths : ∀ path ∈ paths, path ∈ systemFonts) :
    Replays machine plan files fonts outcome
      (paths.filterMap (skipEvent? machine.library files fonts)) ⟨files, fonts⟩
      ⟨files, fonts⟩ := by
  induction paths with
  | nil => exact .nil
  | cons path rest ih =>
    obtain ⟨hpath, hrest⟩ := List.forall_mem_cons.1 hpaths
    rw [List.filterMap_cons, skipEvent?]
    cases hfile : files.isFile path with
    | false => exact ih hrest
    | true =>
      cases hregister : register machine.library files fonts path with
      | ok found => simpa [hregister] using ih hrest
      | error fault =>
        simpa using Replays.cons
          (.skippedFont hfont hpath hfile (registers_of_register hregister)) (ih hrest)

/-- On the way to a path, nothing is said but that files are skipped. -/
theorem GetsTo.replays_skips {before : List String} {path : String}
    (hgets : GetsTo machine.library files fonts plan.font before path)
    (outcome : Except Failure Result) :
    Replays machine plan files fonts outcome
      (before.filterMap (skipEvent? machine.library files fonts)) ⟨files, fonts⟩
      ⟨files, fonts⟩ := by
  cases hfont : plan.font with
  | none =>
    rw [hfont] at hgets
    cases hgets with
    | usual hpaths huseless hfile =>
      exact Report.replays_skips hfont fun earlier hearlier => by simp [hpaths, hearlier]
  | some named =>
    rw [hfont] at hgets
    cases hgets
    exact .nil

/-- What is said of a font that is found is true, and so is what is said without one. -/
theorem says_of_searchFont {found : FontSearch}
    (hsearch : searchFont machine.library files fonts plan.font = .ok found)
    (outcome : Except Failure Result) :
    SaysOfFont machine plan files fonts (found.events.map Event.message) ∧
      Replays machine plan files fonts outcome found.events ⟨files, fonts⟩
        ⟨files, found.fonts⟩ := by
  rcases searchFont_cases machine.library files fonts plan.font with
    ⟨before, path, loaded, hgets, hloaded, hfound⟩ | ⟨hfont, huseless, hfound⟩ |
      ⟨_, _, -, -, hfound⟩
  · rw [hsearch] at hfound
    obtain rfl := Except.ok.inj hfound
    have hskips := hgets.replays_skips outcome
    have hsaid := map_message_skips hgets.useless
    rw [List.map_append, hsaid]
    cases registers_of_register hloaded with
    | cached hcached =>
      have hmem := FontCache.isSome_font?_iff.1 (Option.isSome_of_eq_some hcached)
      exact ⟨by simpa using SaysOfFont.cached hgets hmem, hskips.append .nil⟩
    | loaded hnew hread hfont =>
      have hmem := FontCache.font?_eq_none_iff.1 hnew
      exact ⟨.registered hgets hmem ⟨_, hread, hfont⟩,
        hskips.append (Event.IsTrue.registeredFont hgets hmem hread hfont).replays⟩
  · rw [hsearch] at hfound
    obtain rfl := Except.ok.inj hfound
    dsimp only
    rw [List.map_append, map_message_skips huseless]
    exact ⟨.without hfont huseless, (replays_skips hfont fun _ => id).append
      (Event.IsTrue.noFont hfont huseless).replays⟩
  · rw [hsearch] at hfound
    cases hfound

theorem SaysOfFont.not_mem_rendering {said : List String}
    (hofFont : SaysOfFont machine plan files fonts said) : "rendering boxplot" ∉ said := by
  cases hofFont <;> simp

/-! ## Behind the font -/

theorem not_mem_closingMessages (plan : Plan) : "rendering boxplot" ∉ closingMessages plan := by
  cases hsummary : plan.summary <;> simp [closingMessages, hsummary]

theorem Ends.messages {sketch : Sketch} {last : Ending}
    (hends : Ends machine plan files sketch last) :
    last.events.map Event.message <+: closingMessages plan ∧
      ((∃ result, last.outcome = .ok result) ↔
        last.events.map Event.message = closingMessages plan) := by
  cases hends with
  | notPictured hpictured => simp [closingMessages]
  | charted hpictured hsummary => simp [closingMessages, hsummary, Event.message]
  | notSaved hpictured hsummary hsaves =>
    exact ⟨by simp [closingMessages, hsummary, Event.message], by
      simp [closingMessages, hsummary, Event.message]⟩
  | saved hpictured hsummary hsaves => simp [closingMessages, hsummary, Event.message]

theorem rendering_isTrue {draft : Draft} (hdraft : drafted plan files = .ok draft) (world : World) :
    Event.IsTrue machine plan files fonts outcome
      (.rendering plan.imageSize.1 plan.imageSize.2 draft.range.low draft.range.high
        draft.boxes.length) world world := by
  obtain ⟨hmeasured, htable, -, -, hrange⟩ := drafted_ok_iff.1 hdraft
  have hboxes : draft.boxes = plottedBoxes plan draft.measurements :=
    boxesOf_eq_plottedBoxes htable
  have haxis := axisRange_of_ranged hrange
  rw [hboxes] at haxis ⊢
  exact .rendering (measured_ok_iff.1 hmeasured) haxis

theorem wroteChart_isTrue {draft : Draft} {found : FontSearch} {location : Location} {image : Image}
    (hdraft : drafted plan files = .ok draft)
    (hsearch : searchFont machine.library files fonts plan.font = .ok found)
    (hpictured : pictured machine files plan.output
      ((draft.sketch found.font).chart machine plan) = .ok (location, image)) :
    Event.IsTrue machine plan files fonts outcome
      (.wroteChart plan.output (draft.sketch found.font).boxes.length) ⟨files, found.fonts⟩
      ⟨files.put location (.file (.picture image)), found.fonts⟩ := by
  obtain ⟨hmeasured, htable, -⟩ := drafted_ok_iff.1 hdraft
  obtain ⟨hpictures, hplaced⟩ := pictures_of_pictured hdraft hpictured
  have hboxes : draft.boxes = plottedBoxes plan draft.measurements :=
    boxesOf_eq_plottedBoxes htable
  rw [hboxes] at hpictures
  rw [show (draft.sketch found.font).boxes = plottedBoxes plan draft.measurements from hboxes]
  exact .wroteChart (measured_ok_iff.1 hmeasured) hsearch hpictures hpictures.decode_eq hplaced

/-- What is said at the end is true, and says of all files that change, unless the summary is
broken off. -/
theorem Ends.told {draft : Draft} {found : FontSearch} {last : Ending}
    (hdraft : drafted plan files = .ok draft)
    (hsearch : searchFont machine.library files fonts plan.font = .ok found)
    (hends : Ends machine plan files (draft.sketch found.font) last) :
    ∃ told, Replays machine plan files fonts last.outcome last.events ⟨files, found.fonts⟩
        ⟨told, found.fonts⟩ ∧
      (last.files = told ∨ BreaksOff machine plan last.outcome told last.files) ∧
      ("wrote boxplot" ∉ last.events.map Event.message → last.files = files) ∧
      ("wrote summary" ∉ last.events.map Event.message → told = files ∨
        ∃ image, Placed (.picture image) plan.output files told) := by
  cases hends with
  | notPictured => exact ⟨files, .nil, .inl rfl, fun _ => rfl, fun _ => .inl rfl⟩
  | charted hpictured =>
    have hplaced := (pictures_of_pictured hdraft hpictured).2
    exact ⟨_, (wroteChart_isTrue hdraft hsearch hpictured).replays, .inl rfl,
      by simp [Event.message], fun _ => .inr ⟨_, hplaced⟩⟩
  | notSaved hpictured hsummary hsaves =>
    have hplaced := (pictures_of_pictured hdraft hpictured).2
    refine ⟨_, (wroteChart_isTrue hdraft hsearch hpictured).replays, ?_,
      by simp [Event.message], fun _ => .inr ⟨_, hplaced⟩⟩
    cases hsaves with
    | notTold | notOpened => exact .inl rfl
    | cutOff htold hcut hbroken => exact .inr ⟨_, _, _, hsummary, hcut, rfl, hbroken⟩
  | saved hpictured hsummary hsaves =>
    cases hsaves with
    | whole htold hwhole hwritten =>
      exact ⟨_, .cons (wroteChart_isTrue hdraft hsearch hpictured)
        (Event.IsTrue.wroteSummary hsummary rfl hwritten).replays, .inl rfl,
        by simp [Event.message], by simp [Event.message]⟩

end

/-! ## The whole report -/

/-- What a report says is a first part of what it says when it succeeds, and it is all of that
exactly if the report succeeds.  Its events can be replayed from the files and fonts before it to
those after it, but for a summary that is broken off, so each of them is true: the log has as many
measurements, indices and plotted tags as they tell, the fonts that are skipped are of no use, the
chart that has taken the place of the output has as many boxes, and the summary that was written is
that of the result.  Where no chart is told of, no file has changed, and where no summary is, no
whole summary was written. -/
theorem run_events (machine : Machine) (plan : Plan) (files : FileStore) (fonts : FontCache) :
    let finished := (run machine plan).runOn files fonts
    let said := finished.2.events.map Event.message
    (said <+: openingMessages ∨
        ∃ ofFont, SaysOfFont machine plan files fonts ofFont ∧ said <+: allMessages plan ofFont) ∧
      ((∃ result, finished.1 = .ok result) ↔
        ∃ ofFont, SaysOfFont machine plan files fonts ofFont ∧ said = allMessages plan ofFont) ∧
      ∃ told, Replays machine plan files fonts finished.1 finished.2.events ⟨files, fonts⟩
          ⟨told, finished.2.fonts⟩ ∧
        (finished.2.files = told ∨ BreaksOff machine plan finished.1 told finished.2.files) ∧
        ("wrote boxplot" ∉ said → finished.2.files = files) ∧
        ("wrote summary" ∉ said → told = files ∨
          ∃ image, Placed (.picture image) plan.output files told) := by
  intro finished said
  rcases runOn_cases machine plan files fonts with
    ⟨failure, -, hrun⟩ | ⟨draft, found, hdraft, hfound, last, hends, hrun⟩
  · have hfinished : finished = (.error failure, ⟨files, fonts, openingEvents plan files⟩) := hrun
    clear_value finished
    subst hfinished
    have hopening : said <+: openingMessages := openingEvents_messages plan files
    have hshort : ¬ ∃ ofFont, SaysOfFont machine plan files fonts ofFont ∧
        said = allMessages plan ofFont := by
      rintro ⟨ofFont, -, hall⟩
      have hlength := hopening.length_le
      rw [hall] at hlength
      simp [allMessages] at hlength
    exact ⟨.inl hopening, iff_of_false (by simp) hshort, files,
      replays_openingEvents machine plan files fonts _ _, .inl rfl, fun _ => rfl,
      fun _ => .inl rfl⟩
  · have hsearch := Fallible.mapError_ok_iff.1 hfound
    obtain ⟨hsegment, houtcome⟩ := hends.messages
    obtain ⟨told, hreplays, hfiles, hchart, hsummary⟩ := hends.told hdraft hsearch
    obtain ⟨hofFont, hfont⟩ := says_of_searchFont hsearch last.outcome
    have hfinished : finished = _ := hrun
    clear_value finished
    subst hfinished
    have hsaid : said = openingMessages ++ (found.events.map Event.message ++
        ("rendering boxplot" :: last.events.map Event.message)) := by
      simp only [said, Session.ended, Session.opened, List.nil_append, List.map_append,
        List.append_assoc, openingEvents_messages_of_drafted hdraft]
      rfl
    have hlater : ∀ message ∈ last.events.map Event.message, message ∈ said := by
      intro message hmessage
      rw [hsaid]
      simp [hmessage]
    refine ⟨.inr ⟨_, hofFont, ?_⟩, ?_, told, ?_, hfiles, fun h => hchart (mt (hlater _) h),
      fun h => hsummary (mt (hlater _) h)⟩
    · rw [hsaid, allMessages, List.prefix_append_right_inj, List.prefix_append_right_inj,
        List.cons_prefix_cons]
      exact ⟨rfl, hsegment⟩
    · rw [houtcome]
      refine ⟨fun hall => ⟨_, hofFont, by rw [hsaid, hall, allMessages]⟩, ?_⟩
      rintro ⟨ofFont, -, hall⟩
      rw [hsaid, allMessages, List.append_cancel_left_eq, List.append_cons_inj_of_notMem
        hofFont.not_mem_rendering (mt (hsegment.subset ·) (not_mem_closingMessages plan))] at hall
      exact hall.2.2
    · exact (((replays_openingEvents machine plan files fonts _ _).append hfont).append
        (rendering_isTrue hdraft _).replays).append hreplays

/-- A chart is told of also where the summary cannot be written. -/
example :
    let files : FileStore :=
      ⟨[(["a.csv"], .file (.data "0,a,1\n".toUTF8)), (["s"], .directory)], []⟩
    let plan : Plan :=
      { Plan.default with input := "a.csv", output := "p.png", summary := some "s" }
    ((run Machine.reference plan).runOn files []).2.events.map Event.message =
      ["loading timing log", "parsed timing log", "pivoted timing log",
        "no label font found; drawing chart without tick labels", "rendering boxplot",
        "wrote boxplot"] := by
  decide +kernel

/-- A file at a usual path that is no font is spoken of, too. -/
theorem run_events_skipped :
    let path := "C:\\Windows\\Fonts\\arial.ttf"
    let files : FileStore :=
      ⟨[(["a.csv"], .file (.data "0,a,1\n".toUTF8)),
        ([path], .file (.data "not a font".toUTF8))], []⟩
    let plan : Plan := { Plan.default with input := "a.csv", output := "p.png" }
    let finished := (run Machine.reference plan).runOn files []
    finished.1.isOk = true ∧
      finished.2.events.map Event.message =
        ["loading timing log", "parsed timing log", "pivoted timing log",
          "skipping unusable font", "no label font found; drawing chart without tick labels",
          "rendering boxplot", "wrote boxplot"] := by
  decide +kernel

end TimingReport.Report
