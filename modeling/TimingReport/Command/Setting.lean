import TimingReport.Plan

/-!
# Settings on the command line

The options that take a value, how each is spelled, and what values it accepts.
-/

namespace TimingReport.Command

/-- An option that takes a value. -/
inductive Setting where
  | input
  | output
  | summary
  | dpi
  | width
  | height
  | fontSize
  | yMax
  | onDuplicate
  | tags
  | font
  deriving DecidableEq, Repr

namespace Setting

def all : List Setting :=
  [.input, .output, .summary, .dpi, .width, .height, .fontSize, .yMax, .onDuplicate,
    .tags, .font]

def name : Setting → String
  | .input => "input"
  | .output => "output"
  | .summary => "summary"
  | .dpi => "dpi"
  | .width => "width"
  | .height => "height"
  | .fontSize => "font-size"
  | .yMax => "y-max"
  | .onDuplicate => "on-duplicate"
  | .tags => "tags"
  | .font => "font"

def letter? : Setting → Option Char
  | .input => some 'i'
  | .output => some 'o'
  | _ => none

/-- The name of the value in messages. -/
def placeholder (setting : Setting) : String :=
  setting.name.toUpper.map (fun c => if c = '-' then '_' else c)

/-- The option with its value as it is shown in messages. -/
def display (setting : Setting) : String := s!"--{setting.name} <{setting.placeholder}>"

def ofName? (name : String) : Option Setting :=
  all.find? (fun setting => setting.name = name)

theorem ofName?_name (setting : Setting) : ofName? setting.name = some setting := by
  cases setting <;> rfl

def ofLetter? (letter : Char) : Option Setting :=
  all.find? (fun setting => setting.letter? = some letter)

end Setting

/-- Why a value does not fit an option. -/
inductive ValueFault where
  | literal (error : Number.LiteralError)
  | dpiRange (value : Int)
  deriving DecidableEq, Repr

def ValueFault.message : ValueFault → String
  | .literal error => error.message
  | .dpiRange value => s!"{value} is not in 1..=4294967295"

/-- Why a command line is refused. -/
inductive UsageError where
  | unknownArgument (argument : String)
  | missingValue (setting : Setting)
  | unknownChoice (setting : Setting) (value : String)
  | badValue (setting : Setting) (value : String) (fault : ValueFault)
  /-- A value was given to an option that takes none. -/
  | unneededValue (option value : String)
  | repeated (option : String)
  deriving DecidableEq, Repr

def UsageError.message : UsageError → String
  | .unknownArgument argument => s!"error: unexpected argument '{argument}' found"
  | .missingValue setting =>
    s!"error: a value is required for '{setting.display}' but none was supplied"
  | .unknownChoice setting value =>
    s!"error: invalid value '{value}' for '{setting.display}'"
  | .badValue setting value fault =>
    s!"error: invalid value '{value}' for '{setting.display}': {fault.message}"
  | .unneededValue option value =>
    s!"error: unexpected value '{value}' for '{option}' found; no more were expected"
  | .repeated option => s!"error: the argument '{option}' cannot be used multiple times"

/-- The settings chosen so far. The tag pattern is kept as text until all arguments have
been read. -/
structure Choices where
  plan : Plan
  tagPattern : Option String
  given : List Setting
  unbounded : Bool

def Choices.default : Choices := ⟨.default, none, [], false⟩

def ruleName : DuplicateRule → String
  | .reject => "reject"
  | .first => "first"
  | .last => "last"

def duplicateRules : List DuplicateRule := [.reject, .first, .last]

namespace Setting

def path (setting : Setting) (value : String) : Except UsageError String :=
  if value = "" then .error (.missingValue setting) else .ok value

def float (setting : Setting) (value : String) : Except UsageError Float :=
  match Number.float value.toList with
  | .ok x => .ok x
  | .error error => .error (.badValue setting value (.literal error))

def positiveWord32 (setting : Setting) (value : String) : Except UsageError Nat :=
  match Number.integer64 value.toList with
  | .error error => .error (.badValue setting value (.literal error))
  | .ok n =>
    if 1 ≤ n ∧ n ≤ Number.maxWord32 then .ok n.toNat
    else .error (.badValue setting value (.dpiRange n))

def duplicateRule (setting : Setting) (value : String) :
    Except UsageError DuplicateRule :=
  if value = "" then .error (.missingValue setting)
  else
    match duplicateRules.find? (fun rule => ruleName rule = value) with
    | some rule => .ok rule
    | none => .error (.unknownChoice setting value)

/-- Puts a value into the settings. -/
def store (setting : Setting) (value : String) (choices : Choices) :
    Except UsageError Choices :=
  let plan := choices.plan
  let change (plan : Plan) : Choices := { choices with plan }
  match setting with
  | .input => (setting.path value).map (fun input => change { plan with input })
  | .output => (setting.path value).map (fun output => change { plan with output })
  | .summary =>
    (setting.path value).map
      (fun summary => change { plan with summary := some summary })
  | .font =>
    (setting.path value).map (fun font => change { plan with font := some font })
  | .width => (setting.float value).map (fun width => change { plan with width })
  | .height => (setting.float value).map (fun height => change { plan with height })
  | .fontSize =>
    (setting.float value).map (fun fontSize => change { plan with fontSize })
  | .yMax => (setting.float value).map (fun yMax => change { plan with yMax })
  | .dpi => (setting.positiveWord32 value).map (fun dpi => change { plan with dpi })
  | .onDuplicate =>
    (setting.duplicateRule value).map
      (fun rule => change { plan with duplicateRule := rule })
  | .tags => .ok { choices with tagPattern := some value }

/-- Chooses a value for a setting, which may be done once. -/
def choose (setting : Setting) (value : String) (choices : Choices) :
    Except UsageError Choices :=
  if setting ∈ choices.given then .error (.repeated setting.display)
  else setting.store value { choices with given := setting :: choices.given }

end Setting

end TimingReport.Command
