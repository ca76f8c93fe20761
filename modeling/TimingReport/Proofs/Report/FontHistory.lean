import TimingReport.Proofs.Report.Success

/-!
# The loaded fonts of a process

The loaded fonts are all that a process takes along from one report to the next.  A report looks at
them at one place only, and there it loads a font at most, the one that it finds.  Hence what is
loaded is what some report has found in the past, at the path that it named or at one of the usual
paths, whatever has become of its file, and of that report, since then.
-/

namespace TimingReport.Report

open Step
open TimingReport.Chart (Library)

/-! ## A process -/

/-- What the reports of one process see. -/
structure Process where
  files : FileStore
  fonts : FontCache

/-- What happens to a process. -/
inductive Deed where
  | write (path : String) (bytes : ByteArray)
  | remove (path : String)
  /-- A report is run, in the course of which this fails. -/
  | report (faults : Faults) (plan : Plan)

/-- The files without the one that a path names. -/
def removeFile (files : FileStore) (path : String) : FileStore :=
  match files.lookup path with
  | .ok (location, .file _) => files.remove location
  | _ => files

namespace Process

section

variable (library : Library)

def next (process : Process) : Deed → Process
  | .write path bytes =>
    match process.files.write path (.data bytes) with
    | .ok files => { process with files }
    | .error _ => process
  | .remove path => { process with files := removeFile process.files path }
  | .report faults plan =>
    let done := ((run ⟨library, faults⟩ plan).runOn process.files process.fonts).2
    ⟨done.files, done.fonts⟩

/-- A process that began with no font loaded. -/
def after (start : FileStore) (deeds : List Deed) : Process :=
  deeds.foldl (next library) ⟨start, []⟩

end

theorem after_concat (library : Library) (start : FileStore) (deeds : List Deed) (deed : Deed) :
    after library start (deeds ++ [deed]) = (after library start deeds).next library deed := by
  simp [after]

end Process

/-! ## The font of a report -/

/-- All that a report looks at before its font is as it should be.  None of it is a loaded font. -/
def ReachesFont (machine : Machine) (plan : Plan) (files : FileStore) : Prop :=
  ∀ stage : Stage, stage.number < Stage.font.number → stage.Holds machine plan files []

/-- The failure is that a font could not be loaded. -/
def Failure.TellsOfFont : Failure → Prop
  | .draw (.unreadableFont _ _) => True
  | .draw (.invalidFont _) => True
  | _ => False

/-- The outcome is a failure that tells of a font. -/
def FailsForFont {α : Type} : Except Failure α → Prop
  | .ok _ => False
  | .error failure => failure.TellsOfFont

section

variable {machine : Machine} {plan : Plan} {files : FileStore} {fonts : FontCache}

theorem Settles.exists_ok {α : Type} {stage : Stage} {outcome : Except Failure α}
    (hsettles : Settles machine plan files fonts stage outcome)
    (hholds : stage.Holds machine plan files fonts) : ∃ value, outcome = .ok value := by
  cases outcome with
  | ok value => exact ⟨value, rfl⟩
  | error failure => exact absurd hholds hsettles.1

theorem reachesFont_iff :
    ReachesFont machine plan files ↔ ∃ draft, drafted plan files = .ok draft := by
  constructor
  · intro hreaches
    obtain ⟨measurements, hmeasured⟩ := settles_log.exists_ok (hreaches .log (by decide))
    have hlog : HasLog plan files measurements := measured_ok_iff.1 hmeasured
    obtain ⟨table, htable⟩ := (settles_cells hlog).exists_ok (hreaches .cells (by decide))
    obtain ⟨_, hchart⟩ := settles_chartParent.exists_ok (hreaches .chartParent (by decide))
    obtain ⟨_, hsummary⟩ := settles_summaryParent.exists_ok (hreaches .summaryParent (by decide))
    have hboxes := (tags_holds_iff hlog).1 (hreaches .tags (by decide))
    obtain ⟨range, hrange⟩ := (settles_ranged hlog hboxes).exists_ok (hreaches .axis (by decide))
    rw [← boxesOf_eq_plottedBoxes htable] at hrange
    exact ⟨⟨measurements, table, range⟩,
      drafted_ok_iff.2 ⟨hmeasured, htable, hchart, hsummary, hrange⟩⟩
  · rintro ⟨draft, hdraft⟩
    have hdecides := drafted_decides machine plan files []
    rw [hdraft] at hdecides
    exact hdecides

/-- What goes wrong before the font is looked for is not the font. -/
theorem not_tellsOfFont_of_drafted {failure : Failure}
    (hdraft : drafted plan files = .error failure) : ¬ failure.TellsOfFont := by
  -- The draft does not depend on the fonts, so that the font may be thought of as loaded.
  let fonts : FontCache := plan.font.toList.map fun path => ⟨Files.pathKey path, ⟨"", []⟩⟩
  have hdecides := drafted_decides Machine.reference plan files fonts
  rw [hdraft] at hdecides
  obtain ⟨stage, -, hfails, hblames⟩ := hdecides
  have hfont : stage ≠ .font := by
    rintro rfl
    exact hfails fun font hsome => .inl (by simp [fonts, hsome, FontCache.keys])
  cases hblames with
  | unreadableFont | invalidFont => exact absurd rfl hfont
  | _ => exact id

/-- Nor is what goes wrong once it has been found. -/
theorem not_tellsOfFont_of_pictured {draft : Draft} {chart : Chart} {failure : Failure}
    (hdraft : drafted plan files = .ok draft)
    (hpictured : pictured machine files plan.output chart = .error failure) :
    ¬ failure.TellsOfFont := by
  obtain ⟨-, -, hparent, -⟩ := drafted_ok_iff.1 hdraft
  have hmissing := parentFound_ok_iff.1 hparent
  rcases pictured_error_cases hmissing hpictured with hundrawn | ⟨-, hlocation⟩
  · rw [drawn] at hundrawn
    split at hundrawn
    · obtain rfl := Except.error.inj hundrawn
      exact id
    · split at hundrawn
      · obtain rfl := Except.error.inj hundrawn
        exact id
      · cases hundrawn
  · obtain ⟨error, rfl⟩ := exists_of_chartLocation_error hmissing hlocation
    exact id

theorem not_tellsOfFont_of_saves {path : String} {result : Result} {failure : Failure}
    {after : FileStore} (hsaves : Saves machine files path result (.error failure, after)) :
    ¬ failure.TellsOfFont := by
  cases hsaves with
  | notTold | notOpened | cutOff => exact id

/-- A font that is named is usable, or the failure tells of it. -/
theorem fontFound_named (machine : Machine) (files : FileStore) (fonts : FontCache)
    (font : String) :
    (∃ found, Usable machine.library files fonts font ∧
        fontFound machine files fonts (some font) = .ok found) ∨
      ∃ failure, ¬ Usable machine.library files fonts font ∧ failure.TellsOfFont ∧
        fontFound machine files fonts (some font) = .error failure := by
  rw [fontFound, searchFont]
  cases hregister : register machine.library files fonts font with
  | ok found => exact .inl ⟨found, (registers_of_register hregister).usable, rfl⟩
  | error fault =>
    have hregisters := registers_of_register hregister
    refine .inr ⟨_, hregisters.not_usable, ?_, rfl⟩
    cases hregisters <;> exact trivial

/-! ## One report -/

theorem run_of_not_reachesFont (hreaches : ¬ ReachesFont machine plan files) :
    ∃ failure, drafted plan files = .error failure ∧ ∀ fonts,
      (run machine plan).runOn files fonts =
        (.error failure, ⟨files, fonts, openingEvents plan files⟩) := by
  rw [reachesFont_iff] at hreaches
  cases hdraft : drafted plan files with
  | ok draft => exact absurd ⟨draft, hdraft⟩ hreaches
  | error failure =>
    refine ⟨failure, rfl, fun fonts => ?_⟩
    rw [runOn_eq_exec, exec_run_eq, hdraft]
    rfl

/-- Behind its font, a report fails for what it writes, if at all. -/
theorem failsForFont_run_iff_sketched :
    FailsForFont ((run machine plan).runOn files fonts).1 ↔
      FailsForFont (sketched machine plan files fonts) := by
  rcases runOn_cases machine plan files fonts with
    ⟨failure, hsketch, hfails⟩ | ⟨draft, found, hdraft, hfound, last, hends, hended⟩
  · rw [hsketch, hfails]
    exact Iff.rfl
  · have hsketch : sketched machine plan files fonts = .ok (draft.sketch found.font) :=
      sketched_ok_iff.2 ⟨hdraft, found, hfound, rfl⟩
    rw [hsketch, hended]
    refine iff_of_false ?_ id
    cases hends with
    | notPictured hpictured => exact not_tellsOfFont_of_pictured hdraft hpictured
    | notSaved hpictured hsummary hsaves => exact not_tellsOfFont_of_saves hsaves
    | charted | saved => exact id

/-- A report that looks for the font that it names finds it among the loaded fonts or in its
file. -/
theorem failsForFont_run_iff {font : String} (hfont : plan.font = some font)
    (hreaches : ReachesFont machine plan files) :
    FailsForFont ((run machine plan).runOn files fonts).1 ↔
      ¬ Usable machine.library files fonts font := by
  obtain ⟨draft, hdraft⟩ := reachesFont_iff.1 hreaches
  rw [failsForFont_run_iff_sketched, sketched, hdraft, hfont]
  rcases fontFound_named machine files fonts font with
    ⟨found, husable, hfound⟩ | ⟨failure, hlacks, htells, hfound⟩
  · simp only [bind, Except.bind, hfound]
    exact iff_of_false id (not_not_intro husable)
  · simp only [bind, Except.bind, hfound]
    exact iff_of_true htells hlacks

theorem fonts_run_of_failsForFont
    (hfails : FailsForFont ((run machine plan).runOn files fonts).1) :
    ((run machine plan).runOn files fonts).2.fonts = fonts := by
  have hsketch := failsForFont_run_iff_sketched.1 hfails
  rcases runOn_cases machine plan files fonts with
    ⟨failure, -, hstops⟩ | ⟨draft, found, hdraft, hfound, -⟩
  · rw [hstops]
  · rw [show sketched machine plan files fonts = .ok (draft.sketch found.font) from
      sketched_ok_iff.2 ⟨hdraft, found, hfound, rfl⟩] at hsketch
    exact hsketch.elim

/-- The report gets to a path with this key when it looks for its font, and there is a font. -/
def FindsFont (machine : Machine) (plan : Plan) (process : Process) (key : Files.PathKey) : Prop :=
  ReachesFont machine plan process.files ∧
    ∃ before path, GetsTo machine.library process.files process.fonts plan.font before path ∧
      Files.pathKey path = key ∧ HasFont machine.library process.files path

/-- A report loads a font at most, the one that it has found. -/
theorem mem_keys_run_iff {key : Files.PathKey} :
    key ∈ ((run machine plan).runOn files fonts).2.fonts.keys ↔
      key ∈ fonts.keys ∨ FindsFont machine plan ⟨files, fonts⟩ key := by
  rw [FindsFont, reachesFont_iff, runOn_eq_exec, exec_run_eq]
  dsimp only
  cases drafted plan files with
  | error failure => simp [Session.opened]
  | ok draft =>
    rcases hsearch : searchFont machine.library files fonts plan.font with fault | found
    · have hlacks : ∀ before path, GetsTo machine.library files fonts plan.font before path →
          ¬ HasFont machine.library files path := by
        intro before path hgets hfont
        obtain ⟨found, hfound⟩ := @exists_register_ok _ _ fonts _ (.inr hfont)
        rw [searchFont_of_getsTo hgets hfound] at hsearch
        cases hsearch
      rw [fontFound, hsearch]
      simp only [Except.mapError, Session.opened]
      refine (or_iff_left ?_).symm
      rintro ⟨-, before, path, hgets, -, hfont⟩
      exact hlacks before path hgets hfont
    · rw [fontFound, hsearch]
      simp only [Except.mapError, Session.ended, mem_keys_of_searchFont hsearch,
        Except.ok.injEq, exists_eq', true_and]

end

/-! ## The whole process -/

/-- In the past, a report looked for its font at a path with the key, and there was a font. -/
def Loaded (library : Library) (start : FileStore) (past : List Deed) (key : Files.PathKey) :
    Prop :=
  ∃ earlier faults plan later, past = earlier ++ .report faults plan :: later ∧
    FindsFont ⟨library, faults⟩ plan (Process.after library start earlier) key

section

variable {library : Library} {start : FileStore} {past : List Deed} {key : Files.PathKey}

theorem loaded_concat_iff {deed : Deed} :
    Loaded library start (past ++ [deed]) key ↔ Loaded library start past key ∨
      ∃ faults plan, deed = .report faults plan ∧
        FindsFont ⟨library, faults⟩ plan (Process.after library start past) key := by
  constructor
  · rintro ⟨earlier, faults, plan, later, hpast, hfinds⟩
    rcases List.eq_nil_or_concat' later with rfl | ⟨later, last, rfl⟩
    · obtain ⟨rfl, hdeed⟩ := List.append_inj' hpast rfl
      exact .inr ⟨faults, plan, List.singleton_inj.1 hdeed, hfinds⟩
    · rw [← List.cons_append, ← List.append_assoc] at hpast
      exact .inl ⟨earlier, faults, plan, later, (List.append_inj' hpast rfl).1, hfinds⟩
  · rintro (⟨earlier, faults, plan, later, rfl, hfinds⟩ | ⟨faults, plan, rfl, hfinds⟩)
    · exact ⟨earlier, faults, plan, later ++ [deed], by simp, hfinds⟩
    · exact ⟨past, faults, plan, [], rfl, hfinds⟩

/-- The loaded fonts are those that were found in the past, by induction on it. -/
theorem mem_keys_after_iff (library : Library) (start : FileStore) (past : List Deed)
    (key : Files.PathKey) :
    key ∈ (Process.after library start past).fonts.keys ↔ Loaded library start past key := by
  induction past using List.reverseRecOn with
  | nil => simp [Process.after, Loaded, FontCache.keys]
  | append_singleton past deed ih =>
    rw [loaded_concat_iff, ← ih, Process.after_concat]
    cases deed with
    | write path bytes =>
      rw [Process.next]
      split <;> simp
    | remove path => simp [Process.next]
    | report faults plan => simp [Process.next, mem_keys_run_iff]

/-- What has been loaded stays loaded. -/
theorem Loaded.append (hloaded : Loaded library start past key) (later : List Deed) :
    Loaded library start (past ++ later) key := by
  obtain ⟨earlier, faults, plan, rest, rfl, hfinds⟩ := hloaded
  exact ⟨earlier, faults, plan, rest ++ later, by simp, hfinds⟩

end

/-- The loaded fonts of a process are those that one of its reports looked for and found in a
file, at the path that it named or, without one, at the usual path that it got to.  A report with a
font that gets as far as its font goes on exactly if the font has been loaded so or is in its file
now; from then on the font is loaded, whatever becomes of the report and of the file.  A report that
fails for its font loads nothing, and one that does not get as far neither looks at the loaded
fonts nor changes them. -/
theorem font_history (library : Library) (start : FileStore) (past : List Deed) (faults : Faults)
    (plan : Plan) :
    let machine : Machine := ⟨library, faults⟩
    let now := Process.after library start past
    let done := (run machine plan).runOn now.files now.fonts
    (∀ key, key ∈ now.fonts.keys ↔ Loaded library start past key) ∧
      (∀ font, plan.font = some font → ReachesFont machine plan now.files →
        (¬ FailsForFont done.1 ↔
            Loaded library start past (Files.pathKey font) ∨ HasFont library now.files font) ∧
          (¬ FailsForFont done.1 → ∀ later, Files.pathKey font ∈
            (Process.after library start (past ++ .report faults plan :: later)).fonts.keys)) ∧
      (FailsForFont done.1 → done.2.fonts = now.fonts) ∧
      (¬ ReachesFont machine plan now.files → ∃ failure events, ¬ failure.TellsOfFont ∧
        ∀ fonts, (run machine plan).runOn now.files fonts =
          (.error failure, ⟨now.files, fonts, events⟩)) := by
  intro machine now done
  have hloaded : ∀ key, key ∈ now.fonts.keys ↔ Loaded library start past key :=
    mem_keys_after_iff library start past
  refine ⟨hloaded, fun font hfont hreaches => ?_, fonts_run_of_failsForFont, fun hreaches => ?_⟩
  · have hgoes : ¬ FailsForFont done.1 ↔
        Loaded library start past (Files.pathKey font) ∨ HasFont library now.files font := by
      rw [failsForFont_run_iff hfont hreaches, not_not, Usable, hloaded]
    refine ⟨hgoes, fun hpasses later => ?_⟩
    rw [mem_keys_after_iff]
    rcases hgoes.1 hpasses with hbefore | hhas
    · exact hbefore.append _
    · refine ⟨past, faults, plan, later, rfl, hreaches, [], font, ?_, rfl, hhas⟩
      rw [hfont]
      exact .named font
  · obtain ⟨failure, hdraft, hrun⟩ := run_of_not_reachesFont hreaches
    exact ⟨failure, _, not_tellsOfFont_of_drafted hdraft, hrun⟩

theorem reachesFont_of_isOk {machine : Machine} {plan : Plan} {files : FileStore}
    (hdraft : (drafted plan files).isOk = true) : ReachesFont machine plan files :=
  reachesFont_iff.2 (Fallible.exists_of_isOk hdraft)

theorem not_hasFont_of_read {library : Library} {files : FileStore} {path : String}
    (hnone : (files.read path).isOk = false) : ¬ HasFont library files path := by
  rintro ⟨content, hread, -⟩
  rw [hread] at hnone
  cases hnone

/-- A font is loaded still when the chart has been written over it and removed, and without the
first report it cannot be loaded any more. -/
theorem font_history_overwritten :
    let log := "0,a,1\n".toUTF8
    let start : FileStore :=
      ⟨[(["a.csv"], .file (.data log)), (["f.ttf"], .file smallFontFile)], []⟩
    let plan : Plan :=
      { Plan.default with input := "a.csv", output := "f.ttf", font := some "f.ttf" }
    let machine := Machine.reference
    let first : Deed := .report machine.faults plan
    let now := Process.after machine.library start [first, .remove "f.ttf"]
    let other := Process.after machine.library start [.remove "f.ttf"]
    let missing : Plan := { plan with input := "b.csv" }
    ReachesFont machine plan now.files ∧ ¬ HasFont machine.library now.files "f.ttf" ∧
      ¬ FailsForFont ((run machine plan).runOn now.files now.fonts).1 ∧
      ReachesFont machine plan other.files ∧
      FailsForFont ((run machine plan).runOn other.files other.fonts).1 ∧
      ¬ ReachesFont machine missing now.files ∧
      ((run machine missing).runOn now.files now.fonts).2.fonts = now.fonts := by
  intro log start plan machine first now other missing
  have hfont : HasFont machine.library start "f.ttf" :=
    ⟨smallFontFile, rfl, isFont_smallFontFile⟩
  have hloaded : Loaded machine.library start [first, .remove "f.ttf"] (Files.pathKey "f.ttf") :=
    ⟨[], machine.faults, plan, [.remove "f.ttf"], rfl, reachesFont_of_isOk (by decide +kernel),
      [], "f.ttf", .named "f.ttf", rfl, hfont⟩
  have hnever : ¬ Loaded machine.library start [.remove "f.ttf"] (Files.pathKey "f.ttf") := by
    rintro ⟨earlier, faults, plan, later, hpast, -⟩
    have hmem : Deed.report faults plan ∈ [Deed.remove "f.ttf"] := by simp [hpast]
    simp at hmem
  have hmissing : ¬ ReachesFont machine missing now.files := by
    rintro hreaches
    obtain ⟨draft, hdraft⟩ := reachesFont_iff.1 hreaches
    have hnone : (drafted missing now.files).isOk = false := by decide +kernel
    rw [hdraft] at hnone
    cases hnone
  have hnow : ReachesFont machine plan now.files := reachesFont_of_isOk (by decide +kernel)
  have hother : ReachesFont machine plan other.files := reachesFont_of_isOk (by decide +kernel)
  obtain ⟨-, hnowFont, -, -⟩ :=
    font_history machine.library start [first, .remove "f.ttf"] machine.faults plan
  obtain ⟨-, hotherFont, -, -⟩ :=
    font_history machine.library start [.remove "f.ttf"] machine.faults plan
  obtain ⟨-, -, -, hstops⟩ :=
    font_history machine.library start [first, .remove "f.ttf"] machine.faults missing
  refine ⟨hnow, not_hasFont_of_read (by decide +kernel),
    (hnowFont "f.ttf" rfl hnow).1.2 (.inl hloaded), hother, ?_, hmissing, ?_⟩
  · by_contra hpasses
    rcases (hotherFont "f.ttf" rfl hother).1.1 hpasses with hloaded | hhas
    · exact hnever hloaded
    · exact not_hasFont_of_read (by decide +kernel) hhas
  · obtain ⟨failure, events, -, hrun⟩ := hstops hmissing
    rw [show (run machine missing).runOn now.files now.fonts = _ from hrun now.fonts]

/-- A font may also have been loaded by a report that named none, from a usual path: no report has
named it before and its file is gone, and still it is found. -/
theorem font_history_usual_path :
    let path := "C:\\Windows\\Fonts\\arial.ttf"
    let log := "0,a,1\n".toUTF8
    let start : FileStore :=
      ⟨[(["a.csv"], .file (.data log)), ([path], .file smallFontFile)], []⟩
    let plan : Plan := { Plan.default with input := "a.csv", output := "p.png" }
    let named : Plan := { plan with font := some path }
    let machine := Machine.reference
    let past : List Deed := [.report machine.faults plan, .remove path]
    let now := Process.after machine.library start past
    (∀ faults earlier, Deed.report faults earlier ∈ past → earlier.font ≠ some path) ∧
      ReachesFont machine named now.files ∧ ¬ HasFont machine.library now.files path ∧
      ¬ FailsForFont ((run machine named).runOn now.files now.fonts).1 := by
  intro path log start plan named machine past now
  have hreaches : ReachesFont machine named now.files := reachesFont_of_isOk (by decide +kernel)
  refine ⟨fun faults earlier hmem => ?_, hreaches, not_hasFont_of_read (by decide +kernel), ?_⟩
  · simp only [past, List.mem_cons, Deed.report.injEq, reduceCtorEq, List.not_mem_nil,
      or_false] at hmem
    rw [hmem.2]
    simp [plan, Plan.default]
  · have hkey : Files.pathKey path ∈ now.fonts.keys := by decide +kernel
    rw [failsForFont_run_iff rfl hreaches, not_not]
    exact .inl hkey

end TimingReport.Report
