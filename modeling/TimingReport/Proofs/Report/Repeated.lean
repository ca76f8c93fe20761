import TimingReport.Proofs.Report.FontFiles
import TimingReport.Proofs.Report.FontSearch
import TimingReport.Proofs.Report.Outputs

/-!
# Running a report again

A report may write over any file but its log, its font included, and it still comes to the same
end when it is run again.  Where paths lead has not changed, a font that was found stays loaded,
and the files that are written a second time stand as they stood.  Only a file that is put where a
loaded font once was may bring back that font.
-/

namespace TimingReport.Report

open Step
open TimingReport.Chart (Image Library)
open Files (Location)
open Files.Store (Placed SameDirectories)

/-! ## The draft -/

section

variable {plan : Plan} {files after : FileStore}

/-- What is measured is a matter of the bytes of the log. -/
theorem measured_eq_of_bytes {path : String} {content kept : Content}
    (hread : files.read path = .ok content) (hkept : after.read path = .ok kept)
    (hbytes : kept.bytes = content.bytes) : measured after path = measured files path := by
  simp only [measured, hread, hkept, hbytes]

theorem missingParent?_eq (hsame : SameDirectories files after) (path : String) :
    missingParent? after path = missingParent? files path := by
  simp only [missingParent?, hsame.isDirectory_eq]

/-- Beyond its log, a draft only depends on where directories are. -/
theorem drafted_eq (hmeasured : measured after plan.input = measured files plan.input)
    (hsame : SameDirectories files after) : drafted plan after = drafted plan files := by
  have hfound : parentFound after = parentFound files := by
    funext path
    rw [parentFound, parentFound, missingParent?_eq hsame]
  rw [drafted, drafted, hmeasured, hfound]

theorem pictured_again {machine : Machine} {path : String} {chart : Chart} {location : Location}
    {image : Image} (hsame : SameDirectories files after)
    (hpictured : pictured machine files path chart = .ok (location, image)) :
    pictured machine after path chart = .ok (location, image) := by
  rw [pictured_ok_iff, chartLocation_ok_iff] at hpictured ⊢
  rwa [missingParent?_eq hsame, hsame.target?_eq, ne_eq, hsame.directory_iff]

end

/-! ## The ending -/

section

variable {machine : Machine} {plan : Plan} {files : FileStore} {location : Location}

/-- A summary that is saved once more, behind the same chart, comes to the same. -/
theorem saved_again {image : Image} (hnode : files.node? location ≠ some .directory)
    (path : String) (result : Result) :
    let charted := files.put location (.file (.picture image))
    let last := saved machine charted path result
    saved machine (last.2.put location (.file (.picture image))) path result = last := by
  intro charted last
  have hagain : charted.put location (.file (.picture image)) = charted :=
    Files.Store.put_put ..
  simp only [last, saved_eq_write]
  cases machine.faults.serializing result with
  | some reason => simp only [hagain]
  | none =>
    dsimp only
    cases hwrite : charted.write path _ with
    | error error => simp only [hagain, hwrite]
    | ok after => simp only [Files.Store.write_again hnode hwrite]

theorem Saves.sameDirectories {path : String} {result : Result} {after : FileStore}
    {outcome : Except Failure Unit} (hsaves : Saves machine files path result (outcome, after)) :
    SameDirectories files after := by
  cases hsaves with
  | notTold | notOpened => exact .refl files
  | cutOff htold hcut hplaced => exact hplaced.sameDirectories
  | whole htold hwhole hplaced => exact hplaced.sameDirectories

theorem Ends.sameDirectories {sketch : Sketch} {last : Ending}
    (hends : Ends machine plan files sketch last) : SameDirectories files last.files := by
  have hcharted : ∀ {location image}, pictured machine files plan.output
      (sketch.chart machine plan) = .ok (location, image) →
      SameDirectories files (files.put location (.file (.picture image))) :=
    fun hpictured => (placed_of_chartLocation (pictured_ok_iff.1 hpictured).1 _).sameDirectories
  cases hends with
  | notPictured => exact .refl files
  | charted hpictured => exact hcharted hpictured
  | notSaved hpictured hsummary hsaves => exact (hcharted hpictured).trans hsaves.sameDirectories
  | saved hpictured hsummary hsaves => exact (hcharted hpictured).trans hsaves.sameDirectories

/-- What is drawn and saved once more ends as before, and changes nothing. -/
theorem ending_again (machine : Machine) (plan : Plan) (files : FileStore) (sketch : Sketch) :
    ending machine plan (ending machine plan files sketch).files sketch =
      ending machine plan files sketch := by
  have hsame := (ends_ending machine plan files sketch).sameDirectories
  cases hpictured : pictured machine files plan.output (sketch.chart machine plan) with
  | error failure => simp only [ending, plotEnding, hpictured]
  | ok placed =>
    obtain ⟨location, image⟩ := placed
    have hagain := pictured_again hsame hpictured
    obtain ⟨-, -, hnode⟩ := chartLocation_ok_iff.1 (pictured_ok_iff.1 hpictured).1
    rw [ending, plotEnding, hagain]
    cases hsummary : plan.summary with
    | none => simp only [ending, plotEnding, hpictured, hsummary, Files.Store.put_put]
    | some summary =>
      have hsaved := @saved_again machine files location image hnode summary (sketch.result plan)
      dsimp only at hsaved
      simp only [ending, plotEnding, hpictured, hsummary]
      generalize saved machine (files.put location (.file (.picture image))) summary
        (sketch.result plan) = last at hsaved ⊢
      obtain ⟨failure | _, after⟩ := last <;> simp only [hsaved]

end

/-! ## The font -/

/-- Nothing that is new is a font, and no file is gone. -/
structure AddsNoFont (library : Library) (before after : FileStore) : Prop where
  hasFont : ∀ path, HasFont library after path → HasFont library before path
  isFile : ∀ path, before.isFile path = true → after.isFile path = true

section

variable {library : Library} {files after : FileStore} {fonts : FontCache}

theorem AddsNoFont.refl (library : Library) (files : FileStore) : AddsNoFont library files files :=
  ⟨fun _ => id, fun _ => id⟩

theorem AddsNoFont.placed (hadds : AddsNoFont library files after) {content : Content}
    {path : String} {later : FileStore} (hplaced : Placed content path after later)
    (hnone : library.isFont content.bytes = false) : AddsNoFont library files later := by
  constructor
  · rintro other ⟨found, hread, hfont⟩
    rcases hplaced.read_cases hread with rfl | hbefore
    · rw [hnone] at hfont
      cases hfont
    · exact hadds.hasFont other ⟨found, hbefore, hfont⟩
  · intro other hfile
    obtain ⟨found, hread⟩ := Files.Store.isFile_iff.1 (hadds.isFile other hfile)
    exact Files.Store.isFile_iff.2 ⟨_, hplaced.read_of_read hread⟩

/-- A report adds no font. -/
theorem addsNoFont_ends {machine : Machine} {plan : Plan} {draft : Draft} {last : Ending}
    {font : Option Chart.Font} (hknows : KnowsFonts machine.library)
    (hdraft : drafted plan files = .ok draft)
    (hends : Ends machine plan files (draft.sketch font) last) :
    AddsNoFont machine.library files last.files := by
  have hcharted : ∀ {location image}, pictured machine files plan.output
      ((draft.sketch font).chart machine plan) = .ok (location, image) →
      AddsNoFont machine.library files (files.put location (.file (.picture image))) :=
    fun hpictured => (AddsNoFont.refl _ files).placed (pictures_of_pictured hdraft hpictured).2
      (hknows.not_isFont_picture _)
  cases hends with
  | notPictured hpictured => exact .refl _ files
  | charted hpictured => exact hcharted hpictured
  | notSaved hpictured hsummary hsaves =>
    cases hsaves with
    | notTold | notOpened => exact hcharted hpictured
    | cutOff htold hcut hplaced =>
      exact (hcharted hpictured).placed hplaced (hknows.not_isFont_rest _ _)
  | saved hpictured hsummary hsaves =>
    cases hsaves with
    | whole htold hwhole hplaced =>
      exact (hcharted hpictured).placed hplaced (hknows.not_isFont_summary _)

/-- No usual path is the same as another. -/
theorem nodup_systemFonts : (systemFonts.map Files.pathKey).Nodup := by decide +kernel

/-- What was passed over is passed over again, unless a loaded font was missing there. -/
theorem Useless.again {loaded : FontCache} {paths : List String}
    (huseless : Useless library files fonts paths) (hadds : AddsNoFont library files after)
    (hloaded : ∀ path ∈ paths, Files.pathKey path ∈ loaded.keys → Files.pathKey path ∈ fonts.keys)
    (hmissing : ∀ path ∈ paths, Files.pathKey path ∈ fonts.keys → files.isFile path = false →
      after.isFile path = false) : Useless library after loaded paths := by
  rintro path hpath hfile (hkey | hfont)
  · have hkey := hloaded path hpath hkey
    have hbefore : files.isFile path = true := by
      by_contra hnone
      rw [hmissing path hpath hkey (by simpa using hnone)] at hfile
      cases hfile
    exact huseless path hpath hbefore (.inl hkey)
  · obtain ⟨content, hread, hcontent⟩ := hadds.hasFont path hfont
    exact huseless path hpath (Files.Store.isFile_iff.2 ⟨content, hread⟩)
      (.inr ⟨content, hread, hcontent⟩)

/-- A font that was found is found again among the loaded fonts. -/
theorem searchFont_again {font : Option String} {found : FontSearch}
    (hsearch : searchFont library files fonts font = .ok found)
    (hadds : AddsNoFont library files after)
    (hmissing : font = none → ∀ path ∈ systemFonts, Files.pathKey path ∈ fonts.keys →
      files.isFile path = false → after.isFile path = false) :
    ∃ again, searchFont library after found.fonts font = .ok again ∧
      again.font = found.font ∧ again.fonts = found.fonts := by
  rcases searchFont_cases library files fonts font with
    ⟨before, path, loaded, hgets, hloaded, hfound⟩ | ⟨rfl, huseless, hfound⟩ |
      ⟨_, _, -, -, hfound⟩
  · rw [hsearch] at hfound
    obtain rfl := Except.ok.inj hfound
    have hregisters := registers_of_register hloaded
    have hagain := hregisters.again after
    have hgetsAgain : GetsTo library after loaded.fonts font before path := by
      cases hgets with
      | named => exact .named path
      | @usual _ rest _ hpaths huseless hfile =>
        have hmem : ∀ earlier ∈ before, earlier ∈ systemFonts := by simp [hpaths]; tauto
        refine .usual hpaths (huseless.again hadds (fun earlier hearlier hkey => ?_)
          fun earlier hearlier => hmissing rfl earlier (hmem earlier hearlier))
          (hadds.isFile path hfile)
        rcases (hregisters.keys_eq.2 _).1 hkey with hkey | ⟨hsame, -⟩
        · exact hkey
        · have hnodup := nodup_systemFonts
          rw [hpaths, List.map_append, List.nodup_append] at hnodup
          exact absurd hsame (hnodup.2.2 _ (List.mem_map_of_mem hearlier) _ (by simp))
    exact ⟨_, searchFont_of_getsTo hgetsAgain hagain, rfl, rfl⟩
  · rw [hsearch] at hfound
    obtain rfl := Except.ok.inj hfound
    exact ⟨_, searchFont_of_useless (huseless.again hadds (fun _ _ => id) (hmissing rfl)), rfl, rfl⟩
  · rw [hsearch] at hfound
    cases hfound

end

/-! ## The whole report -/

/-- Where the first run of a report leaves the bytes of the log as they were, and puts no file
where a loaded font is looked for that was missing there, a second run has the same outcome, success
or failure, and finds and leaves everything as the first run left it: each file with its content,
be it the chart or the summary, and the loaded fonts. -/
theorem run_again {machine : Machine} (hknows : KnowsFonts machine.library) (plan : Plan)
    (files : FileStore) (fonts : FontCache) :
    let first := (run machine plan).runOn files fonts
    let second := (run machine plan).runOn first.2.files first.2.fonts
    (∀ content, files.read plan.input = .ok content →
        ∃ kept, first.2.files.read plan.input = .ok kept ∧ kept.bytes = content.bytes) →
    (plan.font = none → ∀ path ∈ systemFonts, Files.pathKey path ∈ fonts.keys →
        files.isFile path = false → first.2.files.isFile path = false) →
      second.1 = first.1 ∧ second.2.files = first.2.files ∧ second.2.fonts = first.2.fonts := by
  intro first second hlog hmissing
  have hfirst : first = _ := exec_run_eq machine plan ⟨files, fonts, []⟩
  have hsecond : second = _ := exec_run_eq machine plan ⟨first.2.files, first.2.fonts, []⟩
  dsimp only at hfirst hsecond
  cases hdraft : drafted plan files with
  | error failure =>
    simp only [hdraft, Session.opened] at hfirst
    simp only [hfirst, hdraft, Session.opened] at hsecond
    simp only [hsecond, hfirst, and_self]
  | ok draft =>
    rw [hdraft] at hfirst
    cases hsearch : searchFont machine.library files fonts plan.font with
    | error fault =>
      simp only [fontFound, hsearch, Except.mapError, Session.opened] at hfirst
      simp only [hfirst, hdraft, fontFound, hsearch, Except.mapError, Session.opened] at hsecond
      simp only [hsecond, hfirst, and_self]
    | ok found =>
      simp only [fontFound, hsearch, Except.mapError] at hfirst
      have hends := ends_ending machine plan files (draft.sketch found.font)
      obtain ⟨content, hread, -⟩ := measured_ok_iff.1 (drafted_ok_iff.1 hdraft).1
      obtain ⟨kept, hkept, hbytes⟩ := hlog content hread
      simp only [hfirst, Session.ended] at hkept hmissing
      have hdraftAgain := drafted_eq (measured_eq_of_bytes hread hkept hbytes)
        hends.sameDirectories
      obtain ⟨again, hagain, hfont, hfonts⟩ :=
        searchFont_again hsearch (addsNoFont_ends hknows hdraft hends) hmissing
      simp only [hfirst, hdraftAgain, hdraft, fontFound, Session.ended, hagain, Except.mapError,
        hfont, hfonts, ending_again] at hsecond
      simp only [hsecond, hfirst, Session.ended, and_self]

/-- The chart may well take the place of the font. -/
theorem run_again_over_font :
    let log := "0,a,1\n".toUTF8
    let files : FileStore :=
      ⟨[(["a.csv"], .file (.data log)), (["f.ttf"], .file smallFontFile)], []⟩
    let plan : Plan :=
      { Plan.default with
        input := "a.csv", output := "f.ttf", summary := some "s.json", font := some "f.ttf" }
    let machine := Machine.reference
    let first := (run machine plan).runOn files []
    let second := (run machine plan).runOn first.2.files first.2.fonts
    KnowsFonts machine.library ∧ first.1.isOk = true ∧
      first.2.fonts.keys = [Files.pathKey "f.ttf"] ∧
      (∀ content, files.read "a.csv" = .ok content →
        ∃ kept, first.2.files.read "a.csv" = .ok kept ∧ kept.bytes = content.bytes) ∧
      (∃ image, second.2.files.read "f.ttf" = .ok (.picture image)) ∧
      second.1 = first.1 ∧ second.2.files = first.2.files ∧ second.2.fonts = first.2.fonts := by
  intro log files plan machine first second
  obtain ⟨result, after, hrun⟩ := @exists_of_isOk _ (run machine plan) files []
    (by decide +kernel)
  obtain ⟨found, image, charted, -, -, -, hplaced, hsummary⟩ := exists_charted_of_run hrun
  have hapart : ∀ path ∈ ["a.csv", "f.ttf"],
      files.target? path ≠ files.target? "s.json" := by decide +kernel
  have hkept : ∀ {path content}, path ∈ ["a.csv", "f.ttf"] → charted.read path = .ok content →
      first.2.files.read path = .ok content := by
    intro path content hpath hread
    have hsame := hplaced.sameDirectories.target?_eq
    have hafter := Files.Store.Placed.read_of_read hsummary hread
    rw [hsame, hsame, if_neg (hapart path hpath)] at hafter
    rw [show first = _ from hrun, hafter]
  have hlog : ∀ content, files.read "a.csv" = .ok content →
      ∃ kept, first.2.files.read "a.csv" = .ok kept ∧ kept.bytes = content.bytes := by
    intro content hread
    have hcharted := hplaced.read_of_read hread
    rw [if_neg (by decide +kernel)] at hcharted
    exact ⟨content, hkept (by simp) hcharted, rfl⟩
  obtain ⟨houtcome, hfiles, hfonts⟩ := run_again knowsFonts_reference plan files [] hlog
    (fun hnone => by cases hnone)
  refine ⟨knowsFonts_reference, by rw [show first = _ from hrun]; rfl, by decide +kernel, hlog,
    ⟨image, ?_⟩, houtcome, hfiles, hfonts⟩
  rw [show second.2.files = first.2.files from hfiles]
  exact hkept (by simp) hplaced.read_eq

/-- A chart that is put where a loaded font once was brings back its font: the second chart has
labels, the first has none. -/
theorem run_again_not_usual_path :
    let path := "C:\\Windows\\Fonts\\arial.ttf"
    let log := Content.data "0,a,1\n".toUTF8
    let files : FileStore := ⟨[(["a.csv"], .file log)], []⟩
    let fonts : FontCache := [⟨Files.pathKey path, ⟨"perf-report-font-0", smallFont⟩⟩]
    let plan : Plan := { Plan.default with input := "a.csv", output := path }
    let first := (run Machine.reference plan).runOn files fonts
    let second := (run Machine.reference plan).runOn first.2.files first.2.fonts
    first.2.files.read "a.csv" = .ok log ∧
      first.1.toOption.map Result.labeled = some false ∧
      second.1.toOption.map Result.labeled = some true ∧ second.1 ≠ first.1 := by
  intro path log files fonts plan first second
  have hsecond : second.1.toOption.map Result.labeled = some true := by decide +kernel
  obtain ⟨result, after, hrun⟩ := @exists_of_isOk _ (run Machine.reference plan) files fonts
    (by decide +kernel)
  obtain ⟨found, image, charted, hsearch, hlabeled, -, hplaced, hfinal⟩ :=
    exists_charted_of_run hrun
  have hfirst : first.1.toOption.map Result.labeled = some false := by
    have hnone : found.font = none := by
      rw [← show searchSystem Machine.reference.library files fonts systemFonts = found from
        Except.ok.inj hsearch]
      decide +kernel
    rw [show first = _ from hrun]
    simp [Except.toOption, hlabeled, hnone]
  refine ⟨?_, hfirst, hsecond, fun hsame => ?_⟩
  · obtain rfl : after.files = charted := hfinal
    have hread := hplaced.read_of_read (show files.read "a.csv" = .ok log from rfl)
    rwa [if_neg (by decide +kernel), ← show first.2 = after from congrArg Prod.snd hrun] at hread
  · rw [hsame, hfirst] at hsecond
    cases hsecond

end TimingReport.Report
