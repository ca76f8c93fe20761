import Mathlib.Data.List.Basic
import TimingReport.Report.LabelFont

/-!
# Looking for a font

A font is found at a path if it has been loaded from there before or is there now.  Where the
settings name no path, the first file at one of the usual paths decides that is either; the
files before it are skipped with a warning, and nothing is loaded but what is found.
-/

namespace TimingReport.Report

open TimingReport.Chart (Font Library)

/-- What tells the paths apart from which fonts have been loaded. -/
def FontCache.keys (fonts : FontCache) : List Files.PathKey := fonts.map LoadedFont.key

theorem FontCache.font?_eq_none_iff {fonts : FontCache} {path : String} :
    fonts.font? path = none ↔ Files.pathKey path ∉ fonts.keys := by
  simp [FontCache.font?, FontCache.keys, List.find?_eq_none]

theorem FontCache.isSome_font?_iff {fonts : FontCache} {path : String} :
    (fonts.font? path).isSome = true ↔ Files.pathKey path ∈ fonts.keys := by
  rw [Option.isSome_iff_ne_none, ne_eq, FontCache.font?_eq_none_iff, not_not]

/-- A font that has been loaded just now is found, and those before it still are. -/
theorem FontCache.font?_concat (fonts : FontCache) (loaded : LoadedFont) (path : String) :
    FontCache.font? (fonts ++ [loaded]) path =
      (fonts.font? path).or
        (if loaded.key = Files.pathKey path then some loaded.font else none) := by
  rw [FontCache.font?, FontCache.font?, List.find?_append, Option.map_or]
  congr 1
  by_cases hkey : loaded.key = Files.pathKey path <;> simp [hkey]

section

variable (library : Library) (files : FileStore) (fonts : FontCache)

/-- There is a font at the path. -/
def HasFont (path : String) : Prop :=
  ∃ content, files.read path = .ok content ∧ library.isFont content.bytes = true

/-- The font at a path has been loaded or can be. -/
def Usable (path : String) : Prop := Files.pathKey path ∈ fonts.keys ∨ HasFont library files path

/-- The ways in which loading the font at a path ends. -/
inductive Registers (path : String) : Except DrawFault FontSearch → Prop where
  | cached {font : Font} (hcached : fonts.font? path = some font) :
    Registers path (.ok ⟨some font, fonts, []⟩)
  | loaded {content : Content} (hnew : fonts.font? path = none)
    (hread : files.read path = .ok content) (hfont : library.isFont content.bytes = true) :
    Registers path
      (.ok ⟨some ⟨fonts.nextFamily, content.bytes⟩,
        fonts ++ [⟨Files.pathKey path, ⟨fonts.nextFamily, content.bytes⟩⟩],
        [.registeredFont path fonts.nextFamily]⟩)
  | unreadable {error : Files.SystemError} (hnew : fonts.font? path = none)
    (hread : files.read path = .error error) :
    Registers path (.error (.unreadableFont path error))
  | invalid {content : Content} (hnew : fonts.font? path = none)
    (hread : files.read path = .ok content) (hfont : library.isFont content.bytes = false) :
    Registers path (.error (.invalidFont path))

end

section

variable {library : Library} {files : FileStore} {fonts : FontCache}

theorem registers_of_register {path : String} {outcome : Except DrawFault FontSearch}
    (hregister : register library files fonts path = outcome) :
    Registers library files fonts path outcome := by
  subst hregister
  rw [register]
  cases hcached : fonts.font? path with
  | some font => exact .cached hcached
  | none =>
    cases hread : files.read path with
    | error error => exact .unreadable hcached hread
    | ok content =>
      dsimp only
      split
      · next hfont => exact .loaded hcached hread hfont
      · next hfont => exact .invalid hcached hread (by simpa using hfont)

theorem Registers.usable {path : String} {found : FontSearch}
    (hregisters : Registers library files fonts path (.ok found)) :
    Usable library files fonts path := by
  cases hregisters with
  | cached hcached => exact .inl (FontCache.isSome_font?_iff.1 (by rw [hcached]; rfl))
  | loaded hnew hread hfont => exact .inr ⟨_, hread, hfont⟩

theorem Registers.not_usable {path : String} {fault : DrawFault}
    (hregisters : Registers library files fonts path (.error fault)) :
    ¬ Usable library files fonts path := by
  rintro (hkey | ⟨content, hread, hfont⟩)
  · cases hregisters with
    | unreadable hnew | invalid hnew => exact FontCache.font?_eq_none_iff.1 hnew hkey
  · cases hregisters with
    | unreadable hnew hother =>
      rw [hread] at hother
      cases hother
    | invalid hnew hother hnone =>
      rw [hread] at hother
      obtain rfl := Except.ok.inj hother
      rw [hfont] at hnone
      cases hnone

/-- What is found is a font, and what is loaded is that font alone. -/
theorem Registers.keys_eq {path : String} {found : FontSearch}
    (hregisters : Registers library files fonts path (.ok found)) :
    found.font.isSome = true ∧ ∀ key, key ∈ found.fonts.keys ↔
      key ∈ fonts.keys ∨ key = Files.pathKey path ∧ HasFont library files path := by
  cases hregisters with
  | cached hcached =>
    have hmem := FontCache.isSome_font?_iff.1 (Option.isSome_of_eq_some hcached)
    refine ⟨rfl, fun key => (or_iff_left_of_imp ?_).symm⟩
    rintro ⟨rfl, -⟩
    exact hmem
  | loaded hnew hread hfont =>
    exact ⟨rfl, fun key => by simp [FontCache.keys, HasFont, hread, hfont]⟩

theorem exists_register_error {path : String} (husable : ¬ Usable library files fonts path) :
    ∃ fault, register library files fonts path = .error fault := by
  cases hregister : register library files fonts path with
  | error fault => exact ⟨fault, rfl⟩
  | ok found => exact absurd (registers_of_register hregister).usable husable

theorem exists_register_ok {path : String} (husable : Usable library files fonts path) :
    ∃ found, register library files fonts path = .ok found := by
  cases hregister : register library files fonts path with
  | ok found => exact ⟨found, rfl⟩
  | error fault => exact absurd husable (registers_of_register hregister).not_usable

/-- A font that has been found is found at once from then on. -/
theorem Registers.again {path : String} {found : FontSearch}
    (hregisters : Registers library files fonts path (.ok found)) (later : FileStore) :
    register library later found.fonts path = .ok ⟨found.font, found.fonts, []⟩ := by
  rw [register]
  cases hregisters with
  | cached hcached => rw [hcached]
  | loaded hnew hread hfont => rw [FontCache.font?_concat, hnew]; simp

end

/-! ## The usual paths -/

section

variable (library : Library) (files : FileStore) (fonts : FontCache)

/-- What is said of a path that is passed over. -/
def skipEvent? (path : String) : Option Event :=
  if files.isFile path then
    match register library files fonts path with
    | .error fault => some (.skippedFont path (Failure.draw fault).message)
    | .ok _ => none
  else none

/-- No font can be had from what is at these paths. -/
def Useless (paths : List String) : Prop :=
  ∀ path ∈ paths, files.isFile path = true → ¬ Usable library files fonts path

/-- A search gets to a path when it has passed over others: to the path that is named, or from one
file to the next at the usual paths. -/
inductive GetsTo : Option String → List String → String → Prop where
  | named (path : String) : GetsTo (some path) [] path
  | usual {before rest : List String} {path : String}
    (hpaths : systemFonts = before ++ path :: rest)
    (huseless : Useless library files fonts before) (hfile : files.isFile path = true) :
    GetsTo none before path

end

section

variable {library : Library} {files : FileStore} {fonts : FontCache}

/-- What is passed over has no part in what is found, and is spoken of before it. -/
theorem searchSystem_append {before : List String} (huseless : Useless library files fonts before)
    (rest : List String) :
    let found := searchSystem library files fonts rest
    searchSystem library files fonts (before ++ rest) =
      { found with
        events := before.filterMap (skipEvent? library files fonts) ++ found.events } := by
  intro found
  induction before with
  | nil => rfl
  | cons first before ih =>
    obtain ⟨hfirst, hbefore⟩ := List.forall_mem_cons.1 huseless
    rw [List.cons_append, searchSystem, ih hbefore, List.filterMap_cons, skipEvent?]
    cases hfile : files.isFile first with
    | false => simp
    | true =>
      obtain ⟨fault, hfault⟩ := exists_register_error (hfirst hfile)
      simp [hfault]

/-- A search that gets to a usable font finds it. -/
theorem searchFont_of_getsTo {font : Option String} {before : List String} {path : String}
    {found : FontSearch} (hgets : GetsTo library files fonts font before path)
    (hfound : register library files fonts path = .ok found) :
    searchFont library files fonts font =
      .ok { found with
        events := before.filterMap (skipEvent? library files fonts) ++ found.events } := by
  cases hgets with
  | named path => exact hfound
  | usual hpaths huseless hfile =>
    rw [searchFont, hpaths, searchSystem_append huseless, searchSystem, hfile, hfound]
    rfl

/-- A search that passes over all usual paths finds nothing, and says so. -/
theorem searchFont_of_useless (huseless : Useless library files fonts systemFonts) :
    searchFont library files fonts none =
      .ok ⟨none, fonts,
        systemFonts.filterMap (skipEvent? library files fonts) ++ [.noFont]⟩ := by
  have hsearch := searchSystem_append huseless []
  rw [List.append_nil] at hsearch
  exact congrArg Except.ok hsearch

/-- A search gets to a usable font, it is over without one, or it fails for the font that is
named. -/
theorem searchFont_cases (library : Library) (files : FileStore) (fonts : FontCache)
    (font : Option String) :
    (∃ before path found, GetsTo library files fonts font before path ∧
        register library files fonts path = .ok found ∧
        searchFont library files fonts font =
          .ok { found with
            events := before.filterMap (skipEvent? library files fonts) ++ found.events }) ∨
      (font = none ∧ Useless library files fonts systemFonts ∧
        searchFont library files fonts font =
          .ok ⟨none, fonts,
            systemFonts.filterMap (skipEvent? library files fonts) ++ [.noFont]⟩) ∨
      ∃ path fault, font = some path ∧ register library files fonts path = .error fault ∧
        searchFont library files fonts font = .error fault := by
  cases font with
  | some path =>
    cases hregister : register library files fonts path with
    | ok found => exact .inl ⟨[], path, found, .named path, hregister, hregister⟩
    | error fault => exact .inr (.inr ⟨path, fault, rfl, hregister, hregister⟩)
  | none =>
    classical
    cases hfirst : systemFonts.find? fun path =>
        decide (files.isFile path = true ∧ Usable library files fonts path) with
    | none =>
      have huseless : Useless library files fonts systemFonts := fun path hpath => by
        simpa using List.find?_eq_none.1 hfirst path hpath
      exact .inr (.inl ⟨rfl, huseless, searchFont_of_useless huseless⟩)
    | some path =>
      obtain ⟨hhere, before, rest, hpaths, hbefore⟩ := List.find?_eq_some_iff_append.1 hfirst
      obtain ⟨hfile, husable⟩ := of_decide_eq_true hhere
      obtain ⟨found, hfound⟩ := exists_register_ok husable
      have hgets : GetsTo library files fonts none before path :=
        .usual hpaths (fun earlier hearlier hthere husable => by
          simpa [hthere, husable] using hbefore earlier hearlier) hfile
      exact .inl ⟨before, path, found, hgets, hfound, searchFont_of_getsTo hgets hfound⟩

/-- Nothing is loaded but the font that a search gets to. -/
theorem mem_keys_of_searchFont {font : Option String} {found : FontSearch}
    (hsearch : searchFont library files fonts font = .ok found) {key : Files.PathKey} :
    key ∈ found.fonts.keys ↔ key ∈ fonts.keys ∨
      ∃ before path, GetsTo library files fonts font before path ∧ Files.pathKey path = key ∧
        HasFont library files path := by
  have hgot : ∀ before path, GetsTo library files fonts font before path →
      HasFont library files path → Files.pathKey path ∈ found.fonts.keys := by
    intro before path hgets hfont
    obtain ⟨loaded, hloaded⟩ := @exists_register_ok library files fonts path (.inr hfont)
    have hfound := searchFont_of_getsTo hgets hloaded
    rw [hsearch] at hfound
    obtain rfl := Except.ok.inj hfound
    exact ((registers_of_register hloaded).keys_eq.2 _).2 (.inr ⟨rfl, hfont⟩)
  rcases searchFont_cases library files fonts font with
    ⟨before, path, loaded, hgets, hloaded, hfound⟩ | ⟨-, -, hfound⟩ | ⟨_, _, -, -, hfound⟩
  · rw [hsearch] at hfound
    obtain rfl := Except.ok.inj hfound
    have hkeys := (registers_of_register hloaded).keys_eq.2 key
    constructor
    · intro hkey
      exact (hkeys.1 hkey).imp_right fun ⟨hpath, hfont⟩ =>
        ⟨before, path, hgets, hpath.symm, hfont⟩
    · rintro (hkey | ⟨before, path, hgets, rfl, hfont⟩)
      · exact hkeys.2 (.inl hkey)
      · exact hgot before path hgets hfont
  · rw [hsearch] at hfound
    obtain rfl := Except.ok.inj hfound
    refine ⟨.inl, ?_⟩
    rintro (hkey | ⟨before, path, hgets, rfl, hfont⟩)
    · exact hkey
    · exact hgot before path hgets hfont
  · rw [hsearch] at hfound
    cases hfound

end

end TimingReport.Report
