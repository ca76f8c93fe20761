import TimingReport.Command.Setting

/-!
# Help texts

The options with their explanations, laid out in two columns or, in full, one below the
other.
-/

namespace TimingReport.Command

/-- What is said about an option. -/
structure HelpEntry where
  /-- The spellings of the option. -/
  spelling : String
  about : String
  default : Option String
  choices : List (String × String)

def about : String := "Boxplot report for benchmark timing logs"

def usage : String := "Usage: perf-report [OPTIONS]"

def spellingOf (letter : Option Char) (display : String) : String :=
  match letter with
  | some letter => s!"-{letter}, {display}"
  | none => s!"    {display}"

def settingAbout : Setting → String
  | .input => "Timing log: `ix, tag, time` per line, no header"
  | .summary => "Also write per-tag box statistics as JSON"
  | .width => "Figure width in inches"
  | .height => "Figure height in inches"
  | .fontSize => "Tick label size in points"
  | .yMax => "Upper y-axis bound in nanoseconds"
  | .tags => "Only plot tags matching this regex"
  | .font => "TrueType font for tick labels"
  | .output | .dpi | .onDuplicate => ""

def settingDefault? : Setting → Option String
  | .input => some Plan.default.input
  | .output => some Plan.default.output
  | .dpi => some (toString Plan.default.dpi)
  | .width => some (Number.Layout.plain.text Plan.default.width)
  | .height => some (Number.Layout.plain.text Plan.default.height)
  | .fontSize => some (Number.Layout.plain.text Plan.default.fontSize)
  | .yMax => some (Number.Layout.plain.text Plan.default.yMax)
  | .onDuplicate => some (ruleName Plan.default.duplicateRule)
  | .summary | .tags | .font => none

def ruleAbout : DuplicateRule → String
  | .reject => "Fail with a reshape error"
  | .first => "Keep the value that appears first in the file"
  | .last => "Keep the value that appears last in the file"

def settingEntry (setting : Setting) : HelpEntry where
  spelling := spellingOf setting.letter? setting.display
  about := settingAbout setting
  default := settingDefault? setting
  choices :=
    if setting = .onDuplicate then
      duplicateRules.map (fun rule => (ruleName rule, ruleAbout rule))
    else []

def unboundedEntry : HelpEntry :=
  ⟨spellingOf none "--unbounded",
    "Fit the y-axis to the data instead of clamping it to --y-max", none, []⟩

def helpEntry (full : Bool) : HelpEntry :=
  let other := if full then "a summary with '-h'" else "more with '--help'"
  ⟨spellingOf (some 'h') "--help", s!"Print help (see {other})", none, []⟩

/-- All options in the order in which they are shown. -/
def helpEntries (full : Bool) : List HelpEntry :=
  let front := [.input, .output, .summary, .dpi, .width, .height, .fontSize, .yMax]
  front.map settingEntry ++ [unboundedEntry] ++
    [.onDuplicate, .tags, .font].map settingEntry ++ [helpEntry full]

def padRight (width : Nat) (text : String) : String :=
  text ++ String.ofList (List.replicate (width - text.length) ' ')

def longest (texts : List String) : Nat := (texts.map String.length).foldl max 0

namespace HelpEntry

def defaultNote (entry : HelpEntry) : List String :=
  match entry.default with
  | some value => [s!"[default: {value}]"]
  | none => []

def aboutNote (entry : HelpEntry) : List String :=
  if entry.about = "" then [] else [entry.about]

/-- The option in a column of the given width, and its explanation beside it. -/
def shortLine (width : Nat) (entry : HelpEntry) : String :=
  let names := ", ".intercalate (entry.choices.map Prod.fst)
  let choices := if entry.choices.isEmpty then [] else [s!"[possible values: {names}]"]
  let notes := " ".intercalate (entry.aboutNote ++ entry.defaultNote ++ choices)
  s!"  {padRight width entry.spelling}  {notes}\n"

/-- The paragraphs of the explanation, each in lines. -/
def paragraphs (entry : HelpEntry) : List (List String) :=
  let width := longest (entry.choices.map Prod.fst) + 1
  let choice (item : String × String) : String :=
    "- " ++ padRight width (item.1 ++ ":") ++ " " ++ item.2
  let choices :=
    if entry.choices.isEmpty then []
    else ["Possible values:" :: entry.choices.map choice]
  entry.aboutNote.map ([·]) ++ choices ++ entry.defaultNote.map ([·])

def indentation : String := "          "

/-- The option on a line of its own, and its explanation below it. -/
def fullText (entry : HelpEntry) : String :=
  let paragraph (lines : List String) : String :=
    String.join (lines.map (fun line => indentation ++ line ++ "\n"))
  s!"  {entry.spelling}\n" ++
    (indentation ++ "\n").intercalate (entry.paragraphs.map paragraph)

end HelpEntry

def helpHead : String := s!"{about}\n\n{usage}\n\nOptions:\n"

def helpText (full : Bool) : String :=
  let entries := helpEntries full
  helpHead ++
    if full then "\n".intercalate (entries.map HelpEntry.fullText)
    else
      let width := longest (entries.map HelpEntry.spelling)
      String.join (entries.map (HelpEntry.shortLine width))

end TimingReport.Command
