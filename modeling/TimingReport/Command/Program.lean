import TimingReport.Command.Arguments
import TimingReport.Command.Help
import TimingReport.Command.LogFilter
import TimingReport.Report.Run

/-!
# The program

What a command line prints, logs and leaves behind.
-/

namespace TimingReport.Command

open TimingReport.Report (FileStore)

/-- The end of a run. -/
structure Finish where
  exitCode : Nat
  stdout : String
  stderr : String
  logLines : List String
  files : FileStore

def Stop.exitCode : Stop → Nat
  | .usage _ => 2
  | .help _ => 0
  | .badPattern => 1

/-- What is said on a channel of errors; help is no error. -/
def Stop.errorText : Stop → String
  | .usage error => error.message ++ "\n"
  | .help _ => ""
  | .badPattern => "Error: invalid --tags pattern\n"

def Stop.outputText : Stop → String
  | .help full => helpText full
  | _ => ""

/-- Indents all lines of a text but the first. -/
def indentLines (text : String) : String :=
  let indented (c : Char) : List Char :=
    if c = '\n' then ['\n', ' ', ' ', ' ', ' '] else [c]
  String.ofList (text.toList.flatMap indented)

def failureText (plan : Plan) (failure : Report.Failure) : String :=
  s!"Error: generate report from {plan.input}\n\n" ++
    s!"Caused by:\n    {indentLines failure.message}\n"

def successText (plan : Plan) (result : Report.Result) : String :=
  let summary := match plan.summary with
    | some path => s!"Wrote {path}\n"
    | none => ""
  s!"Wrote {result.output}\n" ++ summary

/-- Makes the report of some settings. -/
def runReport (machine : Report.Machine) (plan : Plan) (filter : LogFilter)
    (files : FileStore) : Finish :=
  let (result, session) := (Report.run machine plan).runOn files []
  let logLines := (session.events.filter filter.admits).map Report.Event.line
  match result with
  | .ok result => ⟨0, successText plan result, "", logLines, session.files⟩
  | .error failure => ⟨1, "", failureText plan failure, logLines, session.files⟩

def run (compile : Pattern.Compiler) (machine : Report.Machine)
    (arguments : List String) (filter : LogFilter) (files : FileStore) : Finish :=
  match planOfArguments compile arguments with
  | .ok plan => runReport machine plan filter files
  | .error stop => ⟨stop.exitCode, stop.outputText, stop.errorText, [], files⟩

end TimingReport.Command
