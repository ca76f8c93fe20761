import TimingReport.Command.Setting

/-!
# Reading the command line

Arguments are read from left to right. A value that stands in an argument of its own is
judged only when the next known option is met or the arguments end, so an argument that
is not known is reported before it.
-/

namespace TimingReport.Command

/-- Why there are no settings. -/
inductive Stop where
  | usage (error : UsageError)
  /-- Help is asked for, in full or in short. -/
  | help (full : Bool)
  | badPattern
  deriving DecidableEq, Repr

/-- An argument by its form. -/
inductive Argument where
  /-- The argument `--`, behind which no options follow. -/
  | separator
  | long (name : String) (value : Option String)
  /-- A letter with what follows it in the argument. -/
  | short (letter : Char) (rest : List Char)
  | plain (text : String)
  deriving DecidableEq, Repr

def Argument.ofText (text : String) : Argument :=
  match text.toList with
  | ['-', '-'] => .separator
  | '-' :: '-' :: rest =>
    let name := String.ofList (rest.takeWhile (· ≠ '='))
    match rest.dropWhile (· ≠ '=') with
    | [] => .long name none
    | _ :: value => .long name (some (String.ofList value))
  | '-' :: letter :: rest => .short letter rest
  | _ => .plain text

/-- The arguments read so far. -/
structure Reading where
  choices : Choices
  /-- The last option, if its value has not been judged, and the value, if it has been
  met. -/
  pending : Option (Setting × Option String)

namespace Reading

def initial : Reading := ⟨.default, none⟩

/-- Judges the value that waits. -/
def settle (reading : Reading) : Except Stop Choices :=
  match reading.pending with
  | none => .ok reading.choices
  | some (setting, none) => .error (.usage (.missingValue setting))
  | some (setting, some value) => (setting.choose value reading.choices).mapError .usage

/-- Takes an option, with its value if that is part of the same argument. -/
def takeSetting (reading : Reading) (setting : Setting) (value : Option String) :
    Except Stop Reading := do
  let choices ← reading.settle
  match value with
  | none => .ok ⟨choices, some (setting, none)⟩
  | some value => ((setting.choose value choices).mapError .usage).map (⟨·, none⟩)

def takeUnbounded (reading : Reading) : Except Stop Reading := do
  let choices ← reading.settle
  if choices.unbounded then .error (.usage (.repeated "--unbounded"))
  else .ok ⟨{ choices with unbounded := true }, none⟩

def takeHelp (reading : Reading) (full : Bool) : Except Stop Reading := do
  let _ ← reading.settle
  .error (.help full)

def takeLong (reading : Reading) (name : String) (value : Option String) :
    Except Stop Reading :=
  match Setting.ofName? name with
  | some setting => reading.takeSetting setting value
  | none =>
    if name = "unbounded" ∨ name = "help" then
      match value with
      | some value => .error (.usage (.unneededValue s!"--{name}" value))
      | none => if name = "help" then reading.takeHelp true else reading.takeUnbounded
    else .error (.usage (.unknownArgument s!"--{name}"))

def takeShort (reading : Reading) (letter : Char) (rest : List Char) :
    Except Stop Reading :=
  match Setting.ofLetter? letter with
  | some setting =>
    let value := match rest with
      | [] => none
      | '=' :: value => some (String.ofList value)
      | value => some (String.ofList value)
    reading.takeSetting setting value
  | none =>
    if letter = 'h' then reading.takeHelp false
    else .error (.usage (.unknownArgument (String.ofList ['-', letter])))

/-- An argument that is no option is the value of the option that waits for one. -/
def takePlain (reading : Reading) (text : String) : Except Stop Reading :=
  match reading.pending with
  | some (setting, none) => .ok { reading with pending := some (setting, some text) }
  | _ => .error (.usage (.unknownArgument text))

def takeAll (reading : Reading) : List String → Except Stop Choices
  | [] => reading.settle
  | argument :: rest =>
    match Argument.ofText argument with
    | .separator =>
      match rest with
      | [] => reading.settle
      | extra :: _ => .error (.usage (.unknownArgument extra))
    | .long name value =>
      match reading.takeLong name value with
      | .ok next => next.takeAll rest
      | .error stop => .error stop
    | .short letter value =>
      match reading.takeShort letter value with
      | .ok next => next.takeAll rest
      | .error stop => .error stop
    | .plain text =>
      match reading.takePlain text with
      | .ok next => next.takeAll rest
      | .error stop => .error stop

end Reading

/-- The settings that have been chosen, with the tag pattern compiled. -/
def Choices.toPlan (compile : Pattern.Compiler) (choices : Choices) :
    Except Stop Plan :=
  let plan := { choices.plan with bounded := !choices.unbounded }
  match choices.tagPattern with
  | none => .ok plan
  | some text =>
    match compile text with
    | some pattern => .ok { plan with tags := some pattern }
    | none => .error .badPattern

/-- The settings that the arguments describe. -/
def planOfArguments (compile : Pattern.Compiler) (arguments : List String) :
    Except Stop Plan :=
  (Reading.initial.takeAll arguments).bind (Choices.toPlan compile)

end TimingReport.Command
