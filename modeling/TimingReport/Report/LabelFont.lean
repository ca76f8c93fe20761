import TimingReport.Chart.Library
import TimingReport.Report.Event
import TimingReport.Report.Machine

/-!
# Fonts for tick labels

A font is looked for where the settings say, or else at the usual places. A font that
has been loaded stays loaded for the path it was loaded from, whatever happens to the
file later.
-/

namespace TimingReport.Report

open TimingReport.Chart (Font Library)

/-- The paths at which a font is looked for if the settings name none, in this order. -/
def systemFonts : List String :=
  ["/usr/share/fonts/truetype/dejavu/DejaVuSans.ttf",
   "/usr/share/fonts/dejavu/DejaVuSans.ttf",
   "/usr/share/fonts/TTF/DejaVuSans.ttf",
   "/usr/share/fonts/truetype/liberation/LiberationSans-Regular.ttf",
   "/usr/share/fonts/liberation/LiberationSans-Regular.ttf",
   "/System/Library/Fonts/Supplemental/Arial.ttf",
   "/Library/Fonts/Arial.ttf",
   "C:\\Windows\\Fonts\\arial.ttf"]

/-- A font that has been loaded, and what tells the path it was loaded from. -/
structure LoadedFont where
  key : Files.PathKey
  font : Font
  deriving DecidableEq, Repr

/-- The fonts that have been loaded, in the order of loading. -/
abbrev FontCache := List LoadedFont

namespace FontCache

/-- The name under which the next font is registered. -/
def nextFamily (fonts : FontCache) : String := s!"perf-report-font-{fonts.length}"

/-- The font that has been loaded from a path. -/
def font? (fonts : FontCache) (path : String) : Option Font :=
  (fonts.find? (fun loaded => loaded.key = Files.pathKey path)).map LoadedFont.font

end FontCache

/-- What comes of looking for a font: the font if there is one, the fonts that are
loaded then, and what is said about it. -/
structure FontSearch where
  font : Option Font
  fonts : FontCache
  events : List Event

section

variable (library : Library) (files : FileStore) (fonts : FontCache)

/-- Loads the font at a path, unless it has been loaded before. -/
def register (path : String) : Except DrawFault FontSearch :=
  match fonts.font? path with
  | some font => .ok ⟨some font, fonts, []⟩
  | none =>
    match files.read path with
    | .error error => .error (.unreadableFont path error)
    | .ok content =>
      if library.isFont content.bytes then
        let font : Font := ⟨fonts.nextFamily, content.bytes⟩
        let loaded := fonts ++ [⟨Files.pathKey path, font⟩]
        .ok ⟨some font, loaded, [.registeredFont path font.family]⟩
      else .error (.invalidFont path)

/-- Loads the first font at some paths. What is no file is passed over, and so is, with
a warning, what is no font. -/
def searchSystem : List String → FontSearch
  | [] => ⟨none, fonts, [.noFont]⟩
  | path :: rest =>
    if files.isFile path then
      match register library files fonts path with
      | .ok found => found
      | .error fault =>
        let found := searchSystem rest
        let skipped := .skippedFont path (Failure.draw fault).message
        { found with events := skipped :: found.events }
    else searchSystem rest

/-- Looks for the font of the settings, which must be there if it is named. -/
def searchFont : Option String → Except DrawFault FontSearch
  | some path => register library files fonts path
  | none => .ok (searchSystem library files fonts systemFonts)

end

end TimingReport.Report
